import AccessControl.Proofs.Grants
import AccessControl.Role

/-!
Unions of grants. Grants that have no scope without permissions are determined by what they allow (`Compact.ext`), and
merged grants allow exactly what some role of the list allows (`Role.allows_mergedGrants`); so merging behaves as the
union of sets does (`Role.mergedGrants_is_union`).
-/

namespace AccessControl

/-- What holds after a step if it held before or if the step brings it, holds after a fold if it held at first or if some
step brings it. -/
theorem foldl_brings {α β : Type} {f : β → α → β} {P : β → Prop} {Q : α → Prop}
    (hstep : ∀ b a, P (f b a) ↔ P b ∨ Q a) (l : List α) (b : β) : P (l.foldl f b) ↔ P b ∨ ∃ a ∈ l, Q a := by
  induction l generalizing b with
  | nil => simp
  | cons a l ih =>
      rw [List.foldl_cons, ih, hstep, or_assoc, List.exists_mem_cons_iff]

namespace Grants

variable {g h : Grants} {s t : Scope} {p : Permission} {ps : PermissionSet}

theorem allows_of_get? (hget : g.get? s = some ps) : g.allows s p = ps.holds p := by rw [allows, hget]

theorem allows_eq_true : g.allows s p = true ↔ ∃ ps, g.get? s = some ps ∧ ps.holds p = true := by
  rw [allows]
  cases g.get? s with
  | some ps => simp
  | none => simp

/-! ### Adding permissions -/

theorem allows_extend : (g.extend t ps).allows s p = true ↔ g.allows s p = true ∨ s = t ∧ ps.holds p = true := by
  rw [allows, allows, get?_extend]
  by_cases hs : s = t
  · subst hs
    rw [if_pos rfl]
    cases g.get? s with
    | some held => simp
    | none => simp
  · rw [if_neg hs]
    simp [hs]

theorem contains_extend : (g.extend t ps).contains s = true ↔ g.contains s = true ∨ s = t := by
  rw [extend, Table.contains_insert, or_comm]

theorem allows_foldl_extend (l : List (Scope × PermissionSet)) (g : Grants) :
    (l.foldl (fun (g : Grants) e => g.extend e.1 e.2) g).allows s p = true ↔
      g.allows s p = true ∨ ∃ e ∈ l, s = e.1 ∧ e.2.holds p = true :=
  foldl_brings (P := fun g : Grants => g.allows s p = true) (Q := fun e => s = e.1 ∧ e.2.holds p = true)
    (fun _ _ => allows_extend) l g

theorem contains_foldl_extend (l : List (Scope × PermissionSet)) (g : Grants) :
    (l.foldl (fun (g : Grants) e => g.extend e.1 e.2) g).contains s = true ↔
      g.contains s = true ∨ ∃ e ∈ l, s = e.1 :=
  foldl_brings (P := fun g : Grants => g.contains s = true) (Q := fun e => s = e.1) (fun _ _ => contains_extend) l g

theorem allows_join : (g.join h).allows s p = true ↔ g.allows s p = true ∨ h.allows s p = true := by
  rw [join, allows_foldl_extend, allows_eq_true (g := h)]
  refine or_congr_right ?_
  constructor
  · rintro ⟨e, hmem, rfl, hholds⟩
    exact ⟨e.2, Table.mem_entries_iff.1 hmem, hholds⟩
  · rintro ⟨ps, hget, hholds⟩
    exact ⟨(s, ps), Table.mem_entries_iff.2 hget, rfl, hholds⟩

/-! ### Scopes without permissions -/

/-- No scope is there without a permission in it. -/
def Compact (g : Grants) : Prop := ∀ s ps, g.get? s = some ps → ∃ p, ps.holds p = true

theorem isEmpty_eq_false : ps.isEmpty = false ↔ ∃ p, ps.holds p = true := by
  rw [PermissionSet.isEmpty, List.isEmpty_eq_false_iff_exists_mem]
  simp only [PermissionSet.mem_toList]

theorem get?_pruned : g.pruned.get? s = some ps ↔ g.get? s = some ps ∧ ∃ p, ps.holds p = true := by
  rw [pruned, Table.get?_filter_eq_some, Bool.not_eq_true', isEmpty_eq_false]

theorem compact_pruned (g : Grants) : g.pruned.Compact := fun _ _ hget => (get?_pruned.1 hget).2

theorem allows_pruned : g.pruned.allows s p = true ↔ g.allows s p = true := by
  simp only [allows_eq_true, get?_pruned]
  constructor
  · rintro ⟨ps, ⟨hget, -⟩, hholds⟩
    exact ⟨ps, hget, hholds⟩
  · rintro ⟨ps, hget, hholds⟩
    exact ⟨ps, ⟨hget, p, hholds⟩, hholds⟩

/-- A scope of compact grants is in all grants that allow the same, with the same permissions. -/
theorem Compact.get?_of_allows (hg : g.Compact) (hallows : ∀ s p, g.allows s p = h.allows s p)
    (hget : g.get? s = some ps) : h.get? s = some ps := by
  obtain ⟨p, hholds⟩ := hg s ps hget
  have hallowed : h.allows s p = true := by rw [← hallows, allows_of_get? hget, hholds]
  obtain ⟨ps', hget', -⟩ := allows_eq_true.1 hallowed
  have hsame : ps = ps' := by
    apply PermissionSet.ext_holds
    intro q
    rw [← allows_of_get? hget, hallows, allows_of_get? hget']
  rw [hget', hsame]

/-- Compact grants are determined by what they allow. -/
theorem Compact.ext (hg : g.Compact) (hh : h.Compact) (hallows : ∀ s p, g.allows s p = h.allows s p) : g = h := by
  apply Table.ext_get?
  intro s
  apply Option.ext
  intro ps
  exact ⟨hg.get?_of_allows hallows, hh.get?_of_allows fun s p => (hallows s p).symm⟩

end Grants

namespace Role

variable {roles roles' : List Role} {s : Scope} {p : Permission}

/-- Merged grants are the union of the grants of all roles. -/
theorem allows_mergedGrants :
    (mergedGrants roles).allows s p = true ↔ ∃ r ∈ roles, r.grants.allows s p = true := by
  have hempty : Grants.allows Table.empty s p = false := rfl
  have hjoined := foldl_brings (P := fun g : Grants => g.allows s p = true)
    (Q := fun r : Role => r.grants.allows s p = true) (fun _ _ => Grants.allows_join) roles Table.empty
  rw [mergedGrants, Grants.allows_pruned, hjoined, hempty]
  simp

theorem compact_mergedGrants (roles : List Role) : (mergedGrants roles).Compact := Grants.compact_pruned _

theorem mergedGrants_congr (h : ∀ r, r ∈ roles ↔ r ∈ roles') : mergedGrants roles = mergedGrants roles' := by
  apply (compact_mergedGrants roles).ext (compact_mergedGrants roles')
  intro s p
  rw [Bool.eq_iff_iff, allows_mergedGrants, allows_mergedGrants]
  simp only [h]

theorem allows_mergedGrants_append :
    (mergedGrants (roles ++ roles')).allows s p = true ↔
      (mergedGrants roles).allows s p = true ∨ (mergedGrants roles').allows s p = true := by
  simp only [allows_mergedGrants, List.mem_append, or_and_right, exists_or]

/-- Grants without empty scopes are not changed by merging them alone. -/
theorem mergedGrants_singleton {r : Role} (h : r.grants.Compact) : mergedGrants [r] = r.grants := by
  apply (compact_mergedGrants [r]).ext h
  intro s p
  rw [Bool.eq_iff_iff, allows_mergedGrants, List.exists_mem_cons_iff]
  simp

/-- Merging roles is a union. It makes no difference in which order the roles come, and how often; a permission is in the
merge exactly if some role grants it, so that of two lists together is in the merge of the one or of the other; no scope
of the merge is empty, whatever the roles have; and what was merged once is not changed by merging it again. -/
theorem mergedGrants_is_union (xs ys : List Role) :
    (∀ zs, (∀ r, r ∈ zs ↔ r ∈ xs) → mergedGrants zs = mergedGrants xs) ∧
      (∀ s p, (mergedGrants xs).allows s p = true ↔
        ∃ r ∈ xs, ∃ ps, r.grants.get? s = some ps ∧ ps.holds p = true) ∧
      (∀ s p, (mergedGrants (xs ++ ys)).allows s p = true ↔
        (mergedGrants xs).allows s p = true ∨ (mergedGrants ys).allows s p = true) ∧
      (∀ s ps, (mergedGrants xs).get? s = some ps → ∃ p, ps.holds p = true) ∧
      ∀ r : Role, r.grants = mergedGrants xs → mergedGrants [r] = mergedGrants xs := by
  refine ⟨fun zs => mergedGrants_congr, fun s p => ?_, fun s p => allows_mergedGrants_append, compact_mergedGrants xs,
    fun r hr => ?_⟩
  · rw [allows_mergedGrants]
    simp only [Grants.allows_eq_true]
  · rw [← hr]
    exact mergedGrants_singleton (hr ▸ compact_mergedGrants xs)

/-- A role whose one scope is empty. -/
def emptyHanded : Role := ⟨"idle", none, false, .ofList [(.pool, .none)]⟩

def poolReader : Role := ⟨"reader", none, false, .ofList [(.pool, .ofList [.read]), (.log, .none)]⟩

def poolMaker : Role := ⟨"maker", none, false, .ofList [(.pool, .ofList [.create]), (.hosts, .ofList [.delete])]⟩

/-- One of the roles comes twice and in another place, and one adds only an empty scope, which the merge does not have. -/
theorem mergedGrants_is_union_pool :
    (∀ r, r ∈ [poolReader, emptyHanded, poolReader] ↔ r ∈ [emptyHanded, poolReader]) ∧
      mergedGrants [poolReader, emptyHanded, poolReader] = mergedGrants [emptyHanded, poolReader] ∧
      (mergedGrants ([emptyHanded, poolReader] ++ [poolMaker])).allows .pool .read = true ∧
      (mergedGrants ([emptyHanded, poolReader] ++ [poolMaker])).allows .pool .create = true ∧
      (∀ ps, (mergedGrants [emptyHanded, poolReader]).get? .log ≠ some ps) ∧
      mergedGrants [⟨"both", none, false, mergedGrants [emptyHanded, poolReader]⟩] =
        mergedGrants [emptyHanded, poolReader] := by
  obtain ⟨hsame, hexact, hunion, hfilled, hagain⟩ := mergedGrants_is_union [emptyHanded, poolReader] [poolMaker]
  have hmem : ∀ r, r ∈ [poolReader, emptyHanded, poolReader] ↔ r ∈ [emptyHanded, poolReader] := by
    intro r
    simp only [List.mem_cons, List.not_mem_nil, or_false]
    constructor
    · rintro (h | h | h) <;> simp [h]
    · rintro (h | h) <;> simp [h]
  have hread : (mergedGrants [emptyHanded, poolReader]).allows .pool .read = true :=
    (hexact .pool .read).2 ⟨poolReader, by simp, .ofList [.read], by decide, by decide⟩
  refine ⟨hmem, hsame _ hmem, (hunion .pool .read).2 (.inl hread), (hunion .pool .create).2 (.inr (by decide)), ?_,
    hagain _ rfl⟩
  intro ps hget
  obtain ⟨p, hholds⟩ := hfilled .log ps hget
  have hallowed : (mergedGrants [emptyHanded, poolReader]).allows .log p = true :=
    Grants.allows_eq_true.2 ⟨ps, hget, hholds⟩
  obtain ⟨r, hr, hgranted⟩ := allows_mergedGrants.1 hallowed
  have hsilent : r.grants.allows .log p = false := by
    obtain rfl | rfl : r = emptyHanded ∨ r = poolReader := by simpa using hr
    · rfl
    · cases p <;> rfl
  rw [hsilent] at hgranted
  cases hgranted

end Role

end AccessControl
