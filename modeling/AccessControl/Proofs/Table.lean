import AccessControl.Table

/-!
What a table holds, seen through its entries: an entry is in the list exactly when a look-up finds it, and a
list of entries under distinct keys makes the same table in every order.
-/

namespace AccessControl

namespace Table

variable {κ α β : Type} [Ord κ]

def DistinctKeys (l : List (κ × α)) : Prop := l.Pairwise fun a b => compare a.1 b.1 ≠ .eq

theorem distinctKeys_entries (t : Table κ α) : DistinctKeys t.entries := by
  refine t.increasing.imp fun h heq => ?_
  rw [h] at heq
  cases heq

theorem find_append (k : κ) (l m : List (κ × α)) : find k (l ++ m) = (find k l).or (find k m) := by
  induction l with
  | nil => rfl
  | cons e l ih =>
      obtain ⟨j, v⟩ := e
      rw [List.cons_append, find, find, ih]
      split <;> rfl

theorem contains_iff {t : Table κ α} {k : κ} : t.contains k = true ↔ ∃ v, t.get? k = some v := by
  rw [contains, Option.isSome_iff_exists]

theorem contains_eq_false {t : Table κ α} {k : κ} : t.contains k = false ↔ t.get? k = none := by
  rw [contains, Option.isSome_eq_false_iff, Option.isNone_iff_eq_none]

/-- Under this key the table `u` holds the value, or nothing, and under every other key what `t` holds. -/
structure SetTo (t : Table κ α) (k : κ) (v : Option α) (u : Table κ α) : Prop where
  here : u.get? k = v
  elsewhere : ∀ j, j ≠ k → u.get? j = t.get? j

/-- The table with every value changed. -/
def map (f : α → β) (t : Table κ α) : Table κ β :=
  ⟨t.entries.map fun e => (e.1, f e.2), List.pairwise_map.2 t.increasing⟩

theorem find_map (f : α → β) (k : κ) (l : List (κ × α)) :
    find k (l.map fun e => (e.1, f e.2)) = (find k l).map f := by
  induction l with
  | nil => rfl
  | cons e l ih =>
      rw [List.map_cons, find, find, ih]
      split <;> rfl

@[simp] theorem get?_map (f : α → β) (t : Table κ α) (k : κ) : (t.map f).get? k = (t.get? k).map f :=
  find_map f k t.entries

@[simp] theorem contains_map (f : α → β) (t : Table κ α) (k : κ) : (t.map f).contains k = t.contains k := by
  rw [contains, get?_map, Option.isSome_map, contains]

@[simp] theorem values_map (f : α → β) (t : Table κ α) : (t.map f).values = t.values.map f := by
  simp only [values, map, List.map_map, Function.comp_def]

section Lawful

variable [Std.LawfulEqOrd κ]

theorem mem_of_find {k : κ} {v : α} {l : List (κ × α)} (h : find k l = some v) :
    (k, v) ∈ l := by
  induction l with
  | nil => cases h
  | cons e l ih =>
      obtain ⟨j, w⟩ := e
      rw [find] at h
      split at h
      · rename_i hk
        rw [Std.LawfulEqOrd.eq_of_compare hk, ← Option.some.inj h]
        exact List.mem_cons_self
      · exact List.mem_cons_of_mem _ (ih h)

theorem find_of_mem {k : κ} {v : α} {l : List (κ × α)} (hl : DistinctKeys l) (h : (k, v) ∈ l) :
    find k l = some v := by
  induction l with
  | nil => cases h
  | cons e l ih =>
      obtain ⟨j, w⟩ := e
      rw [DistinctKeys, List.pairwise_cons] at hl
      rw [find]
      rcases List.mem_cons.1 h with heq | hmem
      · cases heq
        rw [if_pos Std.ReflCmp.compare_self]
      · have hne : compare k j ≠ .eq := by
          intro hk
          rw [Std.LawfulEqOrd.eq_of_compare hk] at hmem
          exact hl.1 _ hmem Std.ReflCmp.compare_self
        rw [if_neg hne, ih hl.2 hmem]

theorem exists_find_of_mem_keys {k : κ} {l : List (κ × α)} (h : k ∈ l.map Prod.fst) : ∃ v, find k l = some v := by
  induction l with
  | nil => cases h
  | cons e l ih =>
      rw [find]
      split
      · exact ⟨e.2, rfl⟩
      · rename_i hne
        rcases List.mem_cons.1 h with rfl | hmem
        · exact absurd Std.ReflCmp.compare_self hne
        · exact ih hmem

theorem distinctKeys_iff_nodup {l : List (κ × α)} : DistinctKeys l ↔ (l.map Prod.fst).Nodup := by
  simp only [DistinctKeys, ne_eq, Std.compare_eq_iff_eq, List.nodup_iff_pairwise_ne, List.pairwise_map]

theorem DistinctKeys.nodup {l : List (κ × α)} (hl : DistinctKeys l) : l.Nodup := by
  refine hl.imp fun h heq => h ?_
  rw [heq]
  exact Std.ReflCmp.compare_self

theorem mem_entries_iff {t : Table κ α} {k : κ} {v : α} : (k, v) ∈ t.entries ↔ t.get? k = some v :=
  ⟨find_of_mem (distinctKeys_entries t), mem_of_find⟩

theorem mem_values_iff {t : Table κ α} {v : α} : v ∈ t.values ↔ ∃ k, t.get? k = some v := by
  rw [values, List.mem_map]
  constructor
  · rintro ⟨⟨k, w⟩, hmem, rfl⟩
    exact ⟨k, mem_entries_iff.1 hmem⟩
  · rintro ⟨k, hget⟩
    exact ⟨(k, v), mem_entries_iff.2 hget, rfl⟩

theorem get?_erase_eq_some {t : Table κ α} {k j : κ} {w : α} :
    (t.erase k).get? j = some w ↔ j ≠ k ∧ t.get? j = some w := by
  rw [get?_erase]
  by_cases h : j = k
  · rw [if_pos (h ▸ Std.ReflCmp.compare_self)]
    exact ⟨(nomatch ·), fun hv => absurd h hv.1⟩
  · rw [if_neg fun heq => h (Std.LawfulEqOrd.eq_of_compare heq)]
    exact ⟨fun hv => ⟨h, hv⟩, And.right⟩

theorem setTo_erase (t : Table κ α) (k : κ) : t.SetTo k none (t.erase k) := by
  refine ⟨?_, fun j hj => ?_⟩
  · rw [get?_erase, if_pos Std.ReflCmp.compare_self]
  · rw [get?_erase, if_neg fun heq => hj (Std.LawfulEqOrd.eq_of_compare heq)]

theorem get?_filter_eq_some {t : Table κ α} {p : α → Bool} {k : κ} {v : α} :
    (t.filter p).get? k = some v ↔ t.get? k = some v ∧ p v = true := by
  rw [← mem_entries_iff, ← mem_entries_iff]
  exact List.mem_filter

theorem contains_erase {t : Table κ α} {k j : κ} :
    (t.erase k).contains j = true ↔ j ≠ k ∧ t.contains j = true := by
  simp only [contains_iff, get?_erase_eq_some, exists_and_left]

end Lawful

section Laws

variable [Std.TransOrd κ] [Std.LawfulEqOrd κ]

theorem get?_insert_eq_some {t : Table κ α} {k j : κ} {v w : α} :
    (t.insert k v).get? j = some w ↔ (j = k ∧ v = w) ∨ (j ≠ k ∧ t.get? j = some w) := by
  rw [get?_insert]
  by_cases h : j = k
  · rw [if_pos (h ▸ Std.ReflCmp.compare_self), Option.some.injEq]
    exact ⟨fun hv => Or.inl ⟨h, hv⟩, fun hv => hv.elim And.right fun hne => absurd h hne.1⟩
  · rw [if_neg fun heq => h (Std.LawfulEqOrd.eq_of_compare heq)]
    exact ⟨fun hv => Or.inr ⟨h, hv⟩, fun hv => hv.elim (fun heq => absurd heq.1 h) And.right⟩

theorem setTo_insert (t : Table κ α) (k : κ) (v : α) : t.SetTo k (some v) (t.insert k v) := by
  refine ⟨?_, fun j hj => ?_⟩
  · rw [get?_insert, if_pos Std.ReflCmp.compare_self]
  · rw [get?_insert, if_neg fun heq => hj (Std.LawfulEqOrd.eq_of_compare heq)]

/-- Putting a value where it is already changes nothing. -/
theorem insert_of_get? {t : Table κ α} {k : κ} {v : α} (h : t.get? k = some v) : t.insert k v = t := by
  apply ext_get?
  intro j
  rw [get?_insert]
  by_cases hj : compare j k = .eq
  · rw [if_pos hj, Std.LawfulEqOrd.eq_of_compare hj, h]
  · rw [if_neg hj]

/-- Removing what was put where there was nothing changes nothing. -/
theorem erase_insert {t : Table κ α} {k : κ} (h : t.get? k = none) (v : α) : (t.insert k v).erase k = t := by
  apply ext_get?
  intro j
  rw [get?_erase, get?_insert]
  by_cases hj : compare j k = .eq
  · rw [if_pos hj, Std.LawfulEqOrd.eq_of_compare hj, h]
  · rw [if_neg hj, if_neg hj]

theorem contains_insert {t : Table κ α} {k j : κ} {v : α} :
    (t.insert k v).contains j = true ↔ j = k ∨ t.contains j = true := by
  simp only [contains_iff, get?_insert_eq_some]
  by_cases h : j = k
  · exact ⟨fun _ => Or.inl h, fun _ => ⟨v, Or.inl ⟨h, rfl⟩⟩⟩
  · constructor
    · rintro ⟨w, ⟨heq, -⟩ | ⟨-, hget⟩⟩
      · exact absurd heq h
      · exact Or.inr ⟨w, hget⟩
    · rintro (heq | ⟨w, hget⟩)
      · exact absurd heq h
      · exact ⟨w, Or.inr ⟨h, hget⟩⟩

@[simp] theorem map_insert (f : α → β) (t : Table κ α) (k : κ) (v : α) :
    (t.insert k v).map f = (t.map f).insert k (f v) := by
  apply ext_get?
  intro j
  simp only [get?_map, get?_insert]
  split <;> rfl

@[simp] theorem map_erase (f : α → β) (t : Table κ α) (k : κ) : (t.erase k).map f = (t.map f).erase k := by
  apply ext_get?
  intro j
  simp only [get?_map, get?_erase]
  split <;> rfl

theorem find_perm {l m : List (κ × α)} (hperm : l.Perm m) (hl : DistinctKeys l) (k : κ) : find k l = find k m := by
  have hm : DistinctKeys m := hl.perm hperm fun h heq => h (Std.OrientedCmp.eq_symm heq)
  apply Option.ext
  intro v
  exact ⟨fun h => find_of_mem hm (hperm.mem_iff.1 (mem_of_find h)),
    fun h => find_of_mem hl (hperm.mem_iff.2 (mem_of_find h))⟩

theorem get?_foldl_insert (k : κ) (l : List (κ × α)) (t : Table κ α) :
    (l.foldl (fun t e => t.insert e.1 e.2) t).get? k = (find k l.reverse).or (t.get? k) := by
  induction l generalizing t with
  | nil => rfl
  | cons e l ih =>
      rw [List.foldl_cons, ih, get?_insert, List.reverse_cons, find_append, Option.or_assoc]
      congr 1
      rw [find]
      split <;> rfl

theorem get?_ofList {l : List (κ × α)} (hl : DistinctKeys l) (k : κ) : (ofList l).get? k = find k l := by
  rw [ofList, get?_foldl_insert, get?_empty, Option.or_none]
  exact (find_perm (List.reverse_perm l).symm hl k).symm

/-- A table is made of its own entries, in whatever order they come. -/
theorem ofList_perm {t : Table κ α} {l : List (κ × α)} (h : l.Perm t.entries) : ofList l = t := by
  have hl : DistinctKeys l := (distinctKeys_entries t).perm h.symm fun h heq => h (Std.OrientedCmp.eq_symm heq)
  apply ext_get?
  intro k
  rw [get?_ofList hl, find_perm h hl]
  rfl

theorem ofList_eq_of_perm {l m : List (κ × α)} (h : l.Perm m) (hl : DistinctKeys l) : ofList l = ofList m := by
  have hm : DistinctKeys m := hl.perm h fun h heq => h (Std.OrientedCmp.eq_symm heq)
  apply ext_get?
  intro k
  rw [get?_ofList hl, get?_ofList hm, find_perm h hl]

theorem ofList_entries (t : Table κ α) : ofList t.entries = t := ofList_perm (List.Perm.refl _)

/-- The entries of a table made of a list under distinct keys are those of the list. -/
theorem entries_ofList_perm {l : List (κ × α)} (hl : DistinctKeys l) : (ofList l).entries.Perm l := by
  refine (List.perm_ext_iff_of_nodup (distinctKeys_entries _).nodup hl.nodup).2 fun e => ?_
  obtain ⟨k, v⟩ := e
  rw [mem_entries_iff, get?_ofList hl]
  exact ⟨mem_of_find, find_of_mem hl⟩

/-- An entry goes for nothing if a later one has its key. -/
theorem ofList_superseded {front back : List (κ × α)} {k : κ} (v : α) (h : k ∈ back.map Prod.fst) :
    ofList (front ++ (k, v) :: back) = ofList (front ++ back) := by
  have hback : k ∈ back.reverse.map Prod.fst := by
    rw [List.map_reverse, List.mem_reverse]
    exact h
  obtain ⟨w, hfind⟩ := exists_find_of_mem_keys hback
  apply ext_get?
  intro j
  simp only [ofList, get?_foldl_insert, List.reverse_append, List.reverse_cons, find_append, find]
  by_cases hj : compare j k = .eq
  · rw [Std.LawfulEqOrd.eq_of_compare hj, hfind]
    rfl
  · rw [if_neg hj, Option.or_none]

end Laws

end Table

end AccessControl
