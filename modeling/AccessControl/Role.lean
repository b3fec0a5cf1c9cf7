import AccessControl.Grants
import AccessControl.Text.Blank

/-!
Roles: named bundles of grants. Custom roles are made under a name that is not blank, as accounts are
(`FilledText`); a clone of any role is a custom role.
-/

namespace AccessControl

structure Role where
  name : String
  description : Option String
  system : Bool
  grants : Grants
  deriving DecidableEq

/-- A text that is not blank. -/
structure FilledText where
  text : String
  filled : blankText text = false
  deriving DecidableEq

namespace FilledText

def ofString (text : String) : Except AccessError FilledText :=
  if h : blankText text = false then .ok ⟨text, h⟩ else .error .blankValue

/-- A text that must not be blank, with the cause that is reported if it is. -/
def required (text : String) (cause : AccessError) : Except AccessError FilledText :=
  (ofString text).mapError fun _ => cause

variable {text : String} {cause : AccessError}

theorem required_of_filled (h : blankText text = false) : required text cause = .ok ⟨text, h⟩ := by
  rw [required, ofString, dif_pos h]
  rfl

theorem required_of_blank (h : blankText text = true) : required text cause = .error cause := by
  rw [required, ofString, dif_neg (by simp [h])]
  rfl

theorem required_eq_ok {name : FilledText} : required text cause = .ok name ↔ name.text = text := by
  constructor
  · intro h
    cases hblank : blankText text with
    | true =>
        rw [required_of_blank hblank] at h
        cases h
    | false =>
        rw [required_of_filled hblank] at h
        cases h
        rfl
  · rintro rfl
    exact required_of_filled name.filled

end FilledText

namespace Role

/-- A custom role under a name that is not blank. -/
def custom (name : String) (description : Option String) (grants : Grants) : Except AccessError Role := do
  let name ← FilledText.required name .blankRoleName
  return ⟨name.text, description, false, grants⟩

def cloneAs (r : Role) (name : String) : Except AccessError Role := custom name r.description r.grants

def permissionsIn (r : Role) (s : Scope) : PermissionSet := (r.grants.get? s).getD .none

/-- All that some role of the list grants, without scopes that hold nothing. -/
def mergedGrants (roles : List Role) : Grants :=
  Grants.pruned (roles.foldl (fun (g : Grants) r => g.join r.grants) Table.empty)

end Role

end AccessControl
