import AccessControl.Proofs.Table
import AccessControl.Token.Registry

/-!
The active tokens of a registry at a time are those that have not expired (`Registry.pruned`). Expired entries
come and go with the operations that meet them; the active tokens do not depend on that. So what is active can be told
without the registry, and stays told when entries are added, removed and looked up (`Shows`).
-/

namespace AccessControl

namespace Registry

variable {r : Registry} {earlier now : Int64} {digest k : String} {t v : ActiveToken}

theorem eq_of_get? {r' : Registry} (h : ∀ k v, r.active.get? k = some v ↔ r'.active.get? k = some v) : r = r' :=
  congrArg Registry.mk (Table.ext_get? fun k => Option.ext (h k))

theorem get?_pruned : (r.pruned now).active.get? k = some v ↔ r.active.get? k = some v ∧ now < v.expiresAt := by
  rw [pruned, Table.get?_filter_eq_some, decide_eq_true_eq]

/-- What was dropped earlier had expired already. -/
theorem pruned_pruned (h : earlier ≤ now) : (r.pruned earlier).pruned now = r.pruned now := by
  refine eq_of_get? fun k v => ?_
  rw [get?_pruned, get?_pruned, get?_pruned]
  constructor
  · rintro ⟨⟨hget, -⟩, hactive⟩
    exact ⟨hget, hactive⟩
  · rintro ⟨hget, hactive⟩
    exact ⟨⟨hget, Int64.lt_of_le_of_lt h hactive⟩, hactive⟩

theorem get?_pruned_add (h : earlier ≤ now) :
    ((r.add earlier digest t).pruned now).active.get? k = some v ↔
      (k = digest ∧ t = v ∧ now < v.expiresAt) ∨ (k ≠ digest ∧ (r.pruned now).active.get? k = some v) := by
  rw [get?_pruned, add, Table.get?_insert_eq_some, or_and_right, and_assoc, and_assoc, ← get?_pruned, pruned_pruned h]

theorem get?_pruned_remove :
    ((r.remove digest).pruned now).active.get? k = some v ↔
      k ≠ digest ∧ (r.pruned now).active.get? k = some v := by
  rw [get?_pruned, get?_pruned, remove, Table.get?_erase_eq_some, and_assoc]

theorem pruned_remove_of_expired (hget : r.active.get? digest = some t) (hexpired : ¬ now < t.expiresAt) :
    (r.remove digest).pruned now = r.pruned now := by
  refine eq_of_get? fun k v => ?_
  rw [get?_pruned_remove, and_iff_right_iff_imp]
  rintro hactive rfl
  obtain ⟨hget', hactive⟩ := get?_pruned.1 hactive
  rw [hget] at hget'
  cases hget'
  exact hexpired hactive

@[simp] theorem remove_remove (r : Registry) (digest : String) : (r.remove digest).remove digest = r.remove digest := by
  refine eq_of_get? fun k v => ?_
  simp only [remove, Table.get?_erase_eq_some, and_self_left]

/-- Looking a token up removes at most an expired one. -/
theorem pruned_introspect (h : earlier ≤ now) (digest : String) :
    (r.introspect earlier digest).2.pruned now = r.pruned now := by
  unfold introspect
  split
  · rfl
  · rename_i t hget
    split
    · rfl
    · rename_i hexpired
      exact pruned_remove_of_expired hget fun hactive => hexpired (Int64.lt_of_le_of_lt h hactive)

theorem introspect_eq_ok {subject : String} :
    (r.introspect now digest).1 = .ok subject ↔
      ∃ t, r.active.get? digest = some t ∧ now < t.expiresAt ∧ t.subject = subject := by
  unfold introspect
  split
  · rename_i hnone
    constructor
    · intro h
      cases h
    · rintro ⟨t, hget, -⟩
      rw [hnone] at hget
      cases hget
  · rename_i t hget
    split
    · rename_i hactive
      constructor
      · intro h
        exact ⟨t, hget, hactive, Except.ok.inj h⟩
      · rintro ⟨t', hget', -, rfl⟩
        rw [hget] at hget'
        cases hget'
        rfl
    · rename_i hexpired
      constructor
      · intro h
        cases h
      · rintro ⟨t', hget', hactive, -⟩
        rw [hget] at hget'
        cases hget'
        exact absurd hactive hexpired

/-- A look-up succeeds as the active entries have it. -/
theorem introspect_eq_ok_pruned {subject : String} :
    (r.introspect now digest).1 = .ok subject ↔
      ∃ t, (r.pruned now).active.get? digest = some t ∧ t.subject = subject := by
  simp only [introspect_eq_ok, get?_pruned, and_assoc]

/-- Removing one token does not show when another one is looked up. -/
theorem introspect_remove_of_ne {k : String} (hne : k ≠ digest) :
    ((r.remove digest).introspect now k).1 = (r.introspect now k).1 := by
  have hget : (r.remove digest).active.get? k = r.active.get? k := by
    apply Option.ext
    intro t
    rw [remove, Table.get?_erase_eq_some]
    exact ⟨And.right, fun h => ⟨hne, h⟩⟩
  unfold introspect
  rw [hget]
  cases r.active.get? k with
  | none => rfl
  | some t =>
      by_cases hactive : now < t.expiresAt
      · simp only [if_pos hactive]
      · simp only [if_neg hactive]

/-! ### What is told of a registry -/

/-- The entries that have not expired by now are those that are told of, each under the digest of its token. -/
def Shows (r : Registry) (digest : String → String) (now : Int64) (told : String → ActiveToken → Prop) : Prop :=
  ∀ k t, (r.pruned now).active.get? k = some t ↔ now < t.expiresAt ∧ ∃ token, told token t ∧ digest token = k

section

variable {digest : String → String} {told told' : String → ActiveToken → Prop} {token : String}

theorem shows_empty (htold : ∀ token t, ¬ told token t) : Shows .empty digest now told := by
  intro k t
  constructor
  · intro hget
    cases (get?_pruned.1 hget).1
  · rintro ⟨-, token, h, -⟩
    exact absurd h (htold token t)

theorem Shows.of_pruned {r' : Registry} (h : r.Shows digest now told) (hpruned : r'.pruned now = r.pruned now)
    (htold : ∀ s u, told' s u ↔ told s u) : r'.Shows digest now told' := by
  intro k u
  simp only [hpruned, h k u, htold]

/-- A token that is told of already is entered as it was. -/
theorem Shows.add (h : r.Shows digest now told) (hentered : earlier ≤ now)
    (htold : ∀ s u, told' s u ↔ (s = token ∧ u = t) ∨ told s u)
    (hone : ∀ s u, told s u → digest s = digest token → s = token ∧ u = t) :
    (r.add earlier (digest token) t).Shows digest now told' := by
  intro k u
  rw [get?_pruned_add hentered, h k u]
  constructor
  · rintro (⟨rfl, rfl, hactive⟩ | ⟨-, hactive, s, hs, rfl⟩)
    · exact ⟨hactive, token, (htold _ _).2 (Or.inl ⟨rfl, rfl⟩), rfl⟩
    · exact ⟨hactive, s, (htold _ _).2 (Or.inr hs), rfl⟩
  · rintro ⟨hactive, s, hs, rfl⟩
    rcases (htold _ _).1 hs with ⟨rfl, rfl⟩ | hs
    · exact Or.inl ⟨rfl, rfl, hactive⟩
    · by_cases hdigest : digest s = digest token
      · exact Or.inl ⟨hdigest, (hone s u hs hdigest).2.symm, hactive⟩
      · exact Or.inr ⟨hdigest, hactive, s, hs, rfl⟩

theorem Shows.remove (h : r.Shows digest now told) (htold : ∀ s u, told' s u ↔ told s u ∧ s ≠ token)
    (hone : ∀ s u, told s u → digest s = digest token → s = token) :
    (r.remove (digest token)).Shows digest now told' := by
  intro k u
  rw [get?_pruned_remove, h k u]
  constructor
  · rintro ⟨hne, hactive, s, hs, rfl⟩
    exact ⟨hactive, s, (htold _ _).2 ⟨hs, fun heq => hne (by rw [heq])⟩, rfl⟩
  · rintro ⟨hactive, s, hs, rfl⟩
    obtain ⟨hs, hne⟩ := (htold _ _).1 hs
    exact ⟨fun hdigest => hne (hone s u hs hdigest), hactive, s, hs, rfl⟩

theorem Shows.introspect_eq_ok (h : r.Shows digest now told) (hone : ∀ s u, told s u → digest s = digest token → s = token)
    {subject : String} :
    (r.introspect now (digest token)).1 = .ok subject ↔
      ∃ t, told token t ∧ now < t.expiresAt ∧ t.subject = subject := by
  rw [introspect_eq_ok_pruned]
  constructor
  · rintro ⟨t, hget, hsubject⟩
    obtain ⟨hactive, s, hs, hdigest⟩ := (h _ _).1 hget
    obtain rfl := hone s t hs hdigest
    exact ⟨t, hs, hactive, hsubject⟩
  · rintro ⟨t, ht, hactive, hsubject⟩
    exact ⟨t, (h _ _).2 ⟨hactive, token, ht, rfl⟩, hsubject⟩

end

end Registry

end AccessControl
