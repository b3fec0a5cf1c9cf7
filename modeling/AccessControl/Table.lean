/-!
Finite tables kept as entry lists in strictly increasing key order. A table is determined by its
look-ups (`Table.ext_get?`), so equality of tables is equality of the finite maps they stand for, and the
order in which entries arrive leaves no trace.
-/

namespace AccessControl

/-- A finite map from `κ` to `α`, as its entries in increasing key order. -/
structure Table (κ : Type) [Ord κ] (α : Type) where
  entries : List (κ × α)
  increasing : entries.Pairwise (fun a b => compare a.1 b.1 = .lt)
  deriving DecidableEq

namespace Table

variable {κ α β : Type} [Ord κ]

/-! ### Entry lists -/

def find (k : κ) : List (κ × α) → Option α
  | [] => none
  | (k', v) :: rest => if compare k k' = .eq then some v else find k rest

/-- Puts `(k, v)` at its place, over an entry of the same key. -/
def place (k : κ) (v : α) : List (κ × α) → List (κ × α)
  | [] => [(k, v)]
  | (k', v') :: rest =>
    match compare k k' with
    | .lt => (k, v) :: (k', v') :: rest
    | .eq => (k, v) :: rest
    | .gt => (k', v') :: place k v rest

theorem mem_place {k : κ} {v : α} {e : κ × α} {l : List (κ × α)} (h : e ∈ place k v l) :
    e = (k, v) ∨ e ∈ l := by
  induction l with
  | nil => simpa [place] using h
  | cons x rest ih =>
    obtain ⟨k', v'⟩ := x
    unfold place at h
    split at h
    · simpa using h
    · simp only [List.mem_cons] at h ⊢
      exact h.imp_right Or.inr
    · simp only [List.mem_cons] at h ⊢
      rcases h with h | h
      · exact Or.inr (Or.inl h)
      · exact (ih h).imp_right Or.inr

theorem lt_of_eq_of_lt [Std.LawfulEqOrd κ] {a b c : κ} (h : compare a b = .eq) (h' : compare b c = .lt) :
    compare a c = .lt := by
  rw [Std.LawfulEqOrd.eq_of_compare h]; exact h'

theorem place_increasing [Std.TransOrd κ] [Std.LawfulEqOrd κ] (k : κ) (v : α) {l : List (κ × α)}
    (h : l.Pairwise (fun a b => compare a.1 b.1 = .lt)) :
    (place k v l).Pairwise (fun a b => compare a.1 b.1 = .lt) := by
  induction l with
  | nil => simp [place]
  | cons x rest ih =>
    obtain ⟨k', v'⟩ := x
    rw [List.pairwise_cons] at h
    unfold place
    split
    · rename_i hk
      refine List.pairwise_cons.2 ⟨fun e he => ?_, List.pairwise_cons.2 h⟩
      rcases List.mem_cons.1 he with rfl | he
      · exact hk
      · exact Std.TransCmp.lt_trans hk (h.1 e he)
    · rename_i hk
      exact List.pairwise_cons.2 ⟨fun e he => lt_of_eq_of_lt hk (h.1 e he), h.2⟩
    · rename_i hk
      refine List.pairwise_cons.2 ⟨fun e he => ?_, ih h.2⟩
      rcases mem_place he with rfl | he
      · exact Std.OrientedCmp.lt_of_gt hk
      · exact h.1 e he

/-! ### Operations -/

def empty : Table κ α := ⟨[], .nil⟩

def get? (t : Table κ α) (k : κ) : Option α := find k t.entries

def contains (t : Table κ α) (k : κ) : Bool := (t.get? k).isSome

/-- The table with `v` under `k`, whatever was there before. -/
def insert [Std.TransOrd κ] [Std.LawfulEqOrd κ] (t : Table κ α) (k : κ) (v : α) : Table κ α :=
  ⟨place k v t.entries, place_increasing k v t.increasing⟩

def erase (t : Table κ α) (k : κ) : Table κ α :=
  ⟨t.entries.filter (fun e => compare k e.1 != .eq), t.increasing.filter _⟩

def filter (p : α → Bool) (t : Table κ α) : Table κ α :=
  ⟨t.entries.filter (fun e => p e.2), t.increasing.filter _⟩

/-- The table of a list of entries; of several entries under one key the last counts. -/
def ofList [Std.TransOrd κ] [Std.LawfulEqOrd κ] (l : List (κ × α)) : Table κ α :=
  l.foldl (fun t e => t.insert e.1 e.2) empty

def keys (t : Table κ α) : List κ := t.entries.map (·.1)

def values (t : Table κ α) : List α := t.entries.map (·.2)

/-! ### Look-ups -/

@[simp] theorem get?_empty (k : κ) : (empty : Table κ α).get? k = none := rfl

theorem find_eq_none_of_lt {k : κ} {l : List (κ × α)} (h : ∀ e ∈ l, compare k e.1 = .lt) : find k l = none := by
  induction l with
  | nil => rfl
  | cons x rest ih =>
    have hx := h x (by simp)
    simp only [find, hx]
    simpa using ih fun e he => h e (List.mem_cons_of_mem _ he)

theorem find_filter_ne [Std.LawfulEqOrd κ] (k j : κ) (l : List (κ × α)) :
    find j (l.filter (fun e => compare k e.1 != .eq)) = if compare j k = .eq then none else find j l := by
  induction l with
  | nil => simp [find]
  | cons x rest ih =>
    obtain ⟨k', v'⟩ := x
    by_cases hk : compare k k' = .eq
    · have hk' := Std.LawfulEqOrd.eq_of_compare hk
      subst hk'
      simp only [List.filter_cons, hk, bne_self_eq_false, Bool.false_eq_true, if_false, ih, find]
      split <;> rfl
    · simp only [List.filter_cons, bne_iff_ne, ne_eq, hk, not_false_eq_true, if_true, find, ih]
      by_cases hj : compare j k' = .eq
      · have hj' := Std.LawfulEqOrd.eq_of_compare hj
        subst hj'
        have hne : compare j k ≠ .eq := fun h => hk (by
          rw [Std.LawfulEqOrd.eq_of_compare h]; exact Std.ReflCmp.compare_self)
        simp [hne]
      · simp [hj]

@[simp] theorem get?_erase [Std.LawfulEqOrd κ] (t : Table κ α) (k j : κ) :
    (t.erase k).get? j = if compare j k = .eq then none else t.get? j :=
  find_filter_ne k j t.entries

section Laws

variable [Std.TransOrd κ] [Std.LawfulEqOrd κ]

theorem find_place (k j : κ) (v : α) (l : List (κ × α)) :
    find j (place k v l) = if compare j k = .eq then some v else find j l := by
  induction l with
  | nil => simp [place, find]
  | cons x rest ih =>
    obtain ⟨k', v'⟩ := x
    unfold place
    split
    · simp [find]
    · rename_i hk
      have hk' := Std.LawfulEqOrd.eq_of_compare hk
      subst hk'
      simp only [find]
      split <;> rfl
    · rename_i hk
      simp only [find, ih]
      by_cases hj : compare j k' = .eq
      · have hj' := Std.LawfulEqOrd.eq_of_compare hj
        subst hj'
        have hswap : compare j k = (compare k j).swap := Std.OrientedCmp.eq_swap
        have hne : compare j k ≠ .eq := by rw [hswap, hk]; decide
        simp [hne]
      · simp [hj]

@[simp] theorem get?_insert (t : Table κ α) (k j : κ) (v : α) :
    (t.insert k v).get? j = if compare j k = .eq then some v else t.get? j :=
  find_place k j v t.entries

theorem entries_eq_of_find {l m : List (κ × α)} (hl : l.Pairwise (fun a b => compare a.1 b.1 = .lt))
    (hm : m.Pairwise (fun a b => compare a.1 b.1 = .lt)) (h : ∀ k, find k l = find k m) : l = m := by
  induction l generalizing m with
  | nil =>
    cases m with
    | nil => rfl
    | cons y m =>
      have := h y.1
      simp [find] at this
  | cons x l ih =>
    obtain ⟨kx, vx⟩ := x
    rw [List.pairwise_cons] at hl
    cases m with
    | nil =>
      have := h kx
      simp [find] at this
    | cons y m =>
      obtain ⟨ky, vy⟩ := y
      rw [List.pairwise_cons] at hm
      have hxy : compare kx ky = .eq := by
        rcases hc : compare kx ky with _ | _ | _
        · have hn : find kx m = none :=
            find_eq_none_of_lt fun e he => Std.TransCmp.lt_trans hc (hm.1 e he)
          have := h kx
          simp [find, hc, hn] at this
        · rfl
        · have hc' : compare ky kx = .lt := Std.OrientedCmp.lt_of_gt hc
          have hn : find ky l = none :=
            find_eq_none_of_lt fun e he => Std.TransCmp.lt_trans hc' (hl.1 e he)
          have := h ky
          simp [find, hc', hn] at this
      have hk := Std.LawfulEqOrd.eq_of_compare hxy
      subst hk
      have hv := h kx
      simp only [find, hxy, if_true, Option.some.injEq] at hv
      subst hv
      have hrest : l = m := by
        refine ih hl.2 hm.2 fun k => ?_
        by_cases hk : compare k kx = .eq
        · have hk' := Std.LawfulEqOrd.eq_of_compare hk
          subst hk'
          rw [find_eq_none_of_lt hl.1, find_eq_none_of_lt hm.1]
        · have := h k
          simpa [find, hk] using this
      rw [hrest]

/-- A table is determined by its look-ups. -/
theorem ext_get? {s t : Table κ α} (h : ∀ k, s.get? k = t.get? k) : s = t := by
  obtain ⟨l, hl⟩ := s
  obtain ⟨m, hm⟩ := t
  have : l = m := entries_eq_of_find hl hm h
  subst this
  rfl

end Laws

end Table

end AccessControl
