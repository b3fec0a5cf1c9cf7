import AccessControl.Proofs.Directory.Changes

/-!
Two properties that no command takes from a directory, whatever it is asked: every role an account holds is
known (`Sound`), and every entry stands under its own name, custom roles apart from system roles (`WellFormed`).
Both are shown for the five changes, so a new command needs only to be one of these.
-/

namespace AccessControl

namespace Directory

/-- Every role name held by an account is a system role or a key of the custom roles. -/
def Sound (d : Directory) : Prop :=
  ∀ name, d.Assigns name → Catalogue.reserves name = true ∨ d.roles.contains name = true

/-- Every entry stands under its own name, which is not blank; no custom role is, or is named like, a system
role. -/
structure WellFormed (d : Directory) : Prop where
  account : ∀ {key a}, d.users.get? key = some a → a.username = key ∧ blankText key = false
  role : ∀ {key r}, d.roles.get? key = some r →
    r.name = key ∧ blankText key = false ∧ Catalogue.reserves key = false ∧ r.system = false

/-- No change takes the property from a directory. -/
def Kept (P : Directory → Prop) : Prop := ∀ {d next : Directory}, Change d next → P d → P next

/-! ### Assigned roles -/

section Assigns

variable {d : Directory} {name : String}

theorem assigns_putAccount {key : String} {a : Account} (h : (d.putAccount key a).Assigns name) :
    name ∈ a.roles ∨ d.Assigns name := by
  obtain ⟨j, b, hget, hmem⟩ := h
  rcases Table.get?_insert_eq_some.1 hget with ⟨-, rfl⟩ | ⟨-, hget⟩
  · exact Or.inl hmem
  · exact Or.inr ⟨j, b, hget, hmem⟩

theorem assigns_deleteAccount {key : String} (h : (d.deleteAccount key).Assigns name) : d.Assigns name := by
  obtain ⟨j, b, hget, hmem⟩ := h
  exact ⟨j, b, (Table.get?_erase_eq_some.1 hget).2, hmem⟩

theorem not_assigns_empty : ¬ empty.Assigns name := by
  rintro ⟨key, a, hget, -⟩
  cases hget

theorem sound_empty : empty.Sound := fun _ h => absurd h not_assigns_empty

theorem sound_kept : Kept Sound := by
  intro d next h hd name hassigns
  cases h with
  | account a named resolved =>
      rcases assigns_putAccount hassigns with hmem | hassigns
      · exact knowsRole_eq_true.1 (resolved name hmem)
      · exact hd name hassigns
  | secret key a b held sameName sameRoles =>
      rcases assigns_putAccount hassigns with hmem | hassigns
      · rw [sameRoles] at hmem
        exact hd name ⟨key, a, held, hmem⟩
      · exact hd name hassigns
  | accountGone key => exact hd name (assigns_deleteAccount hassigns)
  | role r named free custom => exact (hd name hassigns).imp_right fun h => Table.contains_insert.2 (Or.inr h)
  | roleGone gone free =>
      -- the accounts are those of `d`, none of which holds the role that goes
      have hne : name ≠ gone := by
        rintro rfl
        exact free hassigns
      exact (hd name hassigns).imp_right fun h => Table.contains_erase.2 ⟨hne, h⟩

theorem Sound.resolves (hd : d.Sound) (h : d.Assigns name) : (d.resolve? name).isSome = true := by
  rw [resolve?]
  cases hrole : d.roles.get? name with
  | some r => rfl
  | none =>
      rcases hd name h with hfree | hknown
      · exact hfree
      · obtain ⟨r, hget⟩ := Table.contains_iff.1 hknown
        rw [hrole] at hget
        cases hget

theorem deleteRole_not_assigns {next : Directory} (h : d.deleteRole name = .ok next) : ¬ next.Assigns name := by
  obtain ⟨-, -, hholders, rfl⟩ := deleteRole_eq_ok.1 h
  exact holders_eq_nil.1 hholders

end Assigns

/-! ### Entries under their own names -/

section WellFormed

variable {d : Directory}

theorem wellFormed_empty : empty.WellFormed where
  account h := by cases h
  role h := by cases h

theorem WellFormed.putAccount (hd : d.WellFormed) {a : Account} (hname : blankText a.username = false) :
    (d.putAccount a.username a).WellFormed where
  account := by
    intro key b hget
    rcases Table.get?_insert_eq_some.1 hget with ⟨rfl, rfl⟩ | ⟨-, hget⟩
    · exact ⟨rfl, hname⟩
    · exact hd.account hget
  role := hd.role

theorem WellFormed.putRole (hd : d.WellFormed) {r : Role} (hname : blankText r.name = false)
    (hfree : Catalogue.reserves r.name = false) (hcustom : r.system = false) : (d.putRole r).WellFormed where
  account := hd.account
  role := by
    intro key s hget
    rcases Table.get?_insert_eq_some.1 hget with ⟨rfl, rfl⟩ | ⟨-, hget⟩
    · exact ⟨rfl, hname, hfree, hcustom⟩
    · exact hd.role hget

theorem wellFormed_kept : Kept WellFormed := by
  intro d next h hd
  cases h with
  | account a named resolved =>
      refine hd.putAccount ?_
      rcases named with hname | hheld
      · exact hname
      · -- an account that is replaced stands under a name already
        obtain ⟨b, hget⟩ := Table.contains_iff.1 hheld
        exact (hd.account hget).2
  | secret key a b held sameName sameRoles =>
      obtain ⟨hkey, hname⟩ := hd.account held
      rw [← hkey, ← sameName] at hname ⊢
      exact hd.putAccount hname
  | accountGone key => exact ⟨fun hget => hd.account (Table.get?_erase_eq_some.1 hget).2, hd.role⟩
  | role r named free custom => exact hd.putRole named free custom
  | roleGone name free => exact ⟨hd.account, fun hget => hd.role (Table.get?_erase_eq_some.1 hget).2⟩

theorem WellFormed.disjoint (hd : d.WellFormed) {name : String} (h : d.roles.contains name = true) :
    Catalogue.reserves name = false := by
  obtain ⟨r, hget⟩ := Table.contains_iff.1 h
  exact (hd.role hget).2.2.1

end WellFormed

/-! ### Custom roles apart from system roles -/

section RolesApart

variable {d : Directory}

/-- Every custom role stands under its own name, and this is not the name of a system role. -/
def RolesApart (d : Directory) : Prop :=
  ∀ name r, d.roles.get? name = some r → r.name = name ∧ Catalogue.reserves name = false

theorem rolesApart_empty : empty.RolesApart := fun _ _ hget => by cases hget

theorem rolesApart_kept : Kept RolesApart := by
  intro d next h hd name r hget
  cases h with
  | account a named resolved => exact hd name r hget
  | secret key a b held sameName sameRoles => exact hd name r hget
  | accountGone key => exact hd name r hget
  | role s named free custom =>
      rcases Table.get?_insert_eq_some.1 hget with ⟨rfl, rfl⟩ | ⟨-, hget⟩
      · exact ⟨rfl, free⟩
      · exact hd name r hget
  | roleGone gone free => exact hd name r (Table.get?_erase_eq_some.1 hget).2

theorem WellFormed.rolesApart (hd : d.WellFormed) : d.RolesApart :=
  fun _ _ hget => ⟨(hd.role hget).1, (hd.role hget).2.2.1⟩

/-- Custom and system roles share no name, so it does not matter which are looked up first. -/
theorem RolesApart.resolve?_eq_role? (hd : d.RolesApart) (name : String) : d.resolve? name = d.role? name := by
  rw [resolve?, role?]
  cases hrole : d.roles.get? name with
  | none => cases Catalogue.find? name <;> rfl
  | some r =>
      have hfree : Catalogue.find? name = none := by
        simpa [Catalogue.reserves] using (hd name r hrole).2
      rw [hfree]

end RolesApart

end Directory

end AccessControl
