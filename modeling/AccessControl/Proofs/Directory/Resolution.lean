import AccessControl.Proofs.Directory.Changes

/-!
What the names of roles stand for. A name stands for the custom role under it, or else for the system role of this name
(`resolve?_eq_some`), and an account may hold exactly the names that stand for a role (`knowsRole_eq_true_iff`).
-/

namespace AccessControl

namespace Catalogue

variable {name : String} {r : Role}

theorem names_distinct : roles.Pairwise fun r r' => r.name ≠ r'.name := by decide

theorem find?_eq_some : find? name = some r ↔ r ∈ roles ∧ r.name = name := by
  constructor
  · intro h
    have hnamed := List.find?_some h
    exact ⟨List.mem_of_find?_eq_some h, eq_of_beq hnamed⟩
  · rintro ⟨hmem, rfl⟩
    rw [find?, List.find?_eq_some_iff_append]
    obtain ⟨before, after, hroles⟩ := List.append_of_mem hmem
    refine ⟨beq_self_eq_true _, before, after, hroles, fun r' hbefore => ?_⟩
    have hdistinct := names_distinct
    rw [hroles, List.pairwise_append] at hdistinct
    have hne : r'.name ≠ r.name := hdistinct.2.2 r' hbefore r List.mem_cons_self
    simpa using hne

theorem reserves_eq_true : reserves name = true ↔ ∃ r ∈ roles, r.name = name := by
  rw [reserves, Option.isSome_iff_exists]
  simp only [find?_eq_some]

end Catalogue

namespace Directory

/-- The role that a name stands for. A custom role hides a system role of the same name. -/
inductive StandsFor (d : Directory) (name : String) : Role → Prop
  | custom (r : Role) (held : d.roles.get? name = some r) : StandsFor d name r
  | system (r : Role) (unhidden : d.roles.get? name = none) (listed : r ∈ Catalogue.roles) (named : r.name = name) :
      StandsFor d name r

/-- The name stands for no role. -/
def Unresolved (d : Directory) (name : String) : Prop := ∀ r, ¬ d.StandsFor name r

variable {d : Directory} {name : String} {r : Role}

theorem resolve?_eq_some : d.resolve? name = some r ↔ d.StandsFor name r := by
  rw [resolve?]
  cases hcustom : d.roles.get? name with
  | some custom =>
      constructor
      · intro h
        cases h
        exact StandsFor.custom r hcustom
      · intro h
        cases h with
        | custom held => rw [← hcustom, held]
        | system unhidden listed named =>
            rw [hcustom] at unhidden
            cases unhidden
  | none =>
      constructor
      · intro h
        obtain ⟨hlisted, hnamed⟩ := Catalogue.find?_eq_some.1 h
        exact StandsFor.system r hcustom hlisted hnamed
      · intro h
        cases h with
        | custom held =>
            rw [hcustom] at held
            cases held
        | system unhidden listed named => exact Catalogue.find?_eq_some.2 ⟨listed, named⟩

theorem resolve?_eq_none : d.resolve? name = none ↔ d.Unresolved name := by
  rw [Option.eq_none_iff_forall_ne_some]
  simp only [ne_eq, resolve?_eq_some, Unresolved]

theorem knowsRole_eq_true_iff : d.knowsRole name = true ↔ ∃ r, d.StandsFor name r := by
  rw [knowsRole_eq_true, Catalogue.reserves_eq_true, Table.contains_iff]
  constructor
  · rintro (⟨r, hlisted, hnamed⟩ | ⟨r, hheld⟩)
    · cases hcustom : d.roles.get? name with
      | some custom => exact ⟨custom, StandsFor.custom custom hcustom⟩
      | none => exact ⟨r, StandsFor.system r hcustom hlisted hnamed⟩
    · exact ⟨r, StandsFor.custom r hheld⟩
  · rintro ⟨r, h⟩
    cases h with
    | custom held => exact Or.inr ⟨r, held⟩
    | system unhidden listed named => exact Or.inl ⟨r, listed, named⟩

theorem knowsRole_eq_isSome (d : Directory) (name : String) : d.knowsRole name = (d.resolve? name).isSome := by
  rw [Bool.eq_iff_iff, knowsRole_eq_true_iff, Option.isSome_iff_exists]
  simp only [resolve?_eq_some]

theorem knowsRole_eq_false_iff : d.knowsRole name = false ↔ d.resolve? name = none := by
  rw [knowsRole_eq_isSome, Option.isSome_eq_false_iff, Option.isNone_iff_eq_none]

end Directory

end AccessControl
