import AccessControl.Proofs.Grants.Union
import AccessControl.Proofs.Refusal

/-!
Reading grants from words. Entries are read scope by scope, each scope before its permissions, and the first word that
names nothing is reported (`ofNames_failsAtFirst`); grants that are read have the scopes and the permissions that the
entries name, however often they name them (`allows_of_ofNames`, `contains_of_ofNames`).
-/

namespace AccessControl

theorem Permission.name_injective : Function.Injective Permission.name := by
  intro p q h
  exact Option.some.inj (by rw [← ofName?_name, h, ofName?_name])

/-- A text that is read as a name of a scope or of a permission. -/
inductive Word
  | scope (text : String)
  | permission (text : String)

namespace Word

/-- Nothing has this name. -/
def Unknown : Word → Prop
  | scope text => ∀ s : Scope, s.name ≠ text
  | permission text => ∀ p : Permission, p.name ≠ text

def refusal : Word → AccessError
  | scope text => .unknownScope text
  | permission text => .unknownPermission text

theorem kind_refusal (w : Word) : w.refusal.kind = .invalidArgument := by cases w <;> rfl

end Word

namespace Grants

/-- The words of entries, in reading order. -/
def words (entries : List (String × List String)) : List Word :=
  entries.flatMap fun e => .scope e.1 :: e.2.map .permission

variable {text : String} {entry : String × List String} {entries : List (String × List String)} {e : Scope × PermissionSet}
  {g : Grants} {s : Scope} {p : Permission}

/-! ### Single words -/

theorem readScope_eq (text : String) : readScope text = present (Scope.ofName? text) (.unknownScope text) := by
  rw [readScope]
  cases Scope.ofName? text with
  | some s => rfl
  | none => rfl

theorem readPermission_eq (text : String) :
    readPermission text = present (Permission.ofName? text) (.unknownPermission text) := by
  rw [readPermission]
  cases Permission.ofName? text with
  | some p => rfl
  | none => rfl

theorem readScope_eq_ok : readScope text = .ok s ↔ text = s.name := by
  rw [readScope_eq, present_eq_ok, Scope.ofName?_eq_some]

theorem readPermission_eq_ok : readPermission text = .ok p ↔ text = p.name := by
  rw [readPermission_eq, present_eq_ok, Permission.ofName?_eq_some]

theorem unknown_scope : Word.Unknown (.scope text) ↔ Scope.ofName? text = none := by
  rw [Option.eq_none_iff_forall_ne_some]
  exact forall_congr' fun s => not_congr (eq_comm.trans Scope.ofName?_eq_some.symm)

theorem unknown_permission : Word.Unknown (.permission text) ↔ Permission.ofName? text = none := by
  rw [Option.eq_none_iff_forall_ne_some]
  exact forall_congr' fun p => not_congr (eq_comm.trans Permission.ofName?_eq_some.symm)

/-! ### The first unknown word -/

theorem readScope_failsAtFirst (text : String) :
    FailsAtFirst Word.Unknown Word.refusal [.scope text] (readScope text) := by
  rw [readScope_eq]
  exact FailsAtFirst.of_present unknown_scope

theorem readPermission_failsAtFirst (text : String) :
    FailsAtFirst Word.Unknown Word.refusal [.permission text] (readPermission text) := by
  rw [readPermission_eq]
  exact FailsAtFirst.of_present unknown_permission

theorem readEntry_failsAtFirst (entry : String × List String) :
    FailsAtFirst Word.Unknown Word.refusal (.scope entry.1 :: entry.2.map .permission) (readEntry entry) := by
  rw [← List.append_nil (entry.2.map Word.permission), List.map_eq_flatMap]
  refine (readScope_failsAtFirst entry.1).bind fun s _ => ?_
  exact (FailsAtFirst.mapM readPermission_failsAtFirst entry.2).bind fun permissions _ => FailsAtFirst.ok _

/-- Reading grants fails at the first word that names nothing, and only there. -/
theorem ofNames_failsAtFirst (entries : List (String × List String)) :
    FailsAtFirst Word.Unknown Word.refusal (words entries) (ofNames entries) := by
  rw [← List.append_nil (words entries)]
  exact (FailsAtFirst.mapM readEntry_failsAtFirst entries).bind fun read _ => FailsAtFirst.ok _

/-! ### What is read -/

theorem mem_of_readPermissions {texts : List String} {permissions : List Permission}
    (h : texts.mapM readPermission = .ok permissions) : p ∈ permissions ↔ p.name ∈ texts := by
  have hread : ∀ text q, readPermission text = .ok q → (q = p ↔ text = p.name) := by
    intro text q hq
    rw [readPermission_eq_ok.1 hq]
    exact Permission.name_injective.eq_iff.symm
  simpa using Json.exists_mem_of_mapM hread h

theorem readEntry_eq_ok (h : readEntry entry = .ok e) :
    entry.1 = e.1.name ∧ ∀ p, e.2.holds p = true ↔ p.name ∈ entry.2 := by
  simp only [readEntry, bind_eq_ok, pure_eq_ok] at h
  obtain ⟨s, hscope, permissions, hpermissions, rfl⟩ := h
  refine ⟨readScope_eq_ok.1 hscope, fun p => ?_⟩
  rw [PermissionSet.holds_ofList, List.contains_iff_mem, mem_of_readPermissions hpermissions]

/-- Grants that are read allow what some entry names. -/
theorem allows_of_ofNames (h : ofNames entries = .ok g) :
    g.allows s p = true ↔ ∃ entry ∈ entries, entry.1 = s.name ∧ p.name ∈ entry.2 := by
  simp only [ofNames, bind_eq_ok, pure_eq_ok] at h
  obtain ⟨read, hread, rfl⟩ := h
  have hempty : Grants.allows Table.empty s p = false := rfl
  rw [allows_foldl_extend, hempty]
  refine (or_iff_right Bool.false_ne_true).trans (Json.exists_mem_of_mapM (fun entry e he => ?_) hread)
  obtain ⟨hname, hholds⟩ := readEntry_eq_ok he
  rw [hname, hholds, Scope.name_injective.eq_iff, eq_comm]

/-- Grants that are read have the scopes that the entries name, also those without permissions. -/
theorem contains_of_ofNames (h : ofNames entries = .ok g) :
    g.contains s = true ↔ ∃ entry ∈ entries, entry.1 = s.name := by
  simp only [ofNames, bind_eq_ok, pure_eq_ok] at h
  obtain ⟨read, hread, rfl⟩ := h
  have hempty : Table.contains (Table.empty : Grants) s = false := rfl
  rw [contains_foldl_extend, hempty]
  refine (or_iff_right Bool.false_ne_true).trans (Json.exists_mem_of_mapM (fun entry e he => ?_) hread)
  rw [(readEntry_eq_ok he).1, Scope.name_injective.eq_iff, eq_comm]

end Grants

end AccessControl
