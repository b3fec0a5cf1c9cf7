import AccessControl.Proofs.Grants.Words

/-!
Reading grants from names, exactly. They are read if every word of the entries names something; then they are what the
entries describe, and otherwise the first word that names nothing is reported. Grants that travel as names are read back,
whatever the order in which their scopes arrive (`ofNames_exact`).
-/

namespace AccessControl.Grants

instance : DecidablePred Word.Unknown
  | .scope _ => decidable_of_iff _ unknown_scope.symm
  | .permission _ => decidable_of_iff _ unknown_permission.symm

/-- The grants hold exactly the scopes that are named, also those for which nothing is named, and in each of them exactly
the permissions that are named for it in any entry. -/
structure DescribedBy (g : Grants) (entries : List (String × List String)) : Prop where
  scopes : ∀ s, g.contains s = true ↔ ∃ entry ∈ entries, entry.1 = s.name
  permissions : ∀ s ps, g.get? s = some ps → ∀ p,
    ps.holds p = true ↔ ∃ entry ∈ entries, entry.1 = s.name ∧ p.name ∈ entry.2

theorem describedBy_of_ofNames {entries : List (String × List String)} {g : Grants} (h : ofNames entries = .ok g) :
    g.DescribedBy entries := by
  refine ⟨fun s => contains_of_ofNames h, fun s ps hget p => ?_⟩
  rw [← allows_of_get? hget]
  exact allows_of_ofNames h

/-- Entries are read exactly if no word of theirs is unknown, as the grants that they describe; else the first unknown word
is reported. Grants are read back from the entries in which they travel, in whatever order these are. -/
theorem ofNames_exact (entries : List (String × List String)) :
    ((∃ g, ofNames entries = .ok g) ↔ ∀ w ∈ words entries, ¬ w.Unknown) ∧
      (∀ g, ofNames entries = .ok g → g.DescribedBy entries) ∧
      (∀ e, ofNames entries = .error e ↔ ∃ w, IsFirst Word.Unknown (words entries) w ∧ e = w.refusal) ∧
      ∀ g, entries.Perm (transport g).entries → ofNames entries = .ok g := by
  have hreads := ofNames_failsAtFirst entries
  refine ⟨hreads.eq_ok_iff, fun g => describedBy_of_ofNames, fun e => hreads.eq_error_iff, fun g hperm => ?_⟩
  exact ofNames_perm (hperm.trans (transport_perm g))

/-- Grants of which one scope is empty, in an order of scopes that is neither theirs nor alphabetical. -/
def scattered : Grants := .ofList [(.pool, .none), (.hosts, .ofList [.read, .delete]), (.rgw, .ofList [.update])]

/-- They are read from this order. Entries of one scope add up, and one without permissions counts. Of two unknown words
the first is reported, here a permission before a scope. -/
theorem ofNames_exact_scattered :
    ofNames [("rgw", ["update"]), ("pool", []), ("hosts", ["read", "delete"])] = .ok scattered ∧
      (∃ g, ofNames [("rgw", ["update"]), ("pool", []), ("rgw", ["read", "update"])] = .ok g ∧
        g.contains .pool = true ∧ g.contains .hosts = false ∧
        ∀ ps, g.get? .rgw = some ps → ps.holds .read = true ∧ ps.holds .create = false) ∧
      ofNames [("pool", ["read", "write"]), ("disk", [])] = .error (.unknownPermission "write") := by
  obtain ⟨-, -, -, hback⟩ := ofNames_exact [("rgw", ["update"]), ("pool", []), ("hosts", ["read", "delete"])]
  obtain ⟨hread, hdescribed, -, -⟩ := ofNames_exact [("rgw", ["update"]), ("pool", []), ("rgw", ["read", "update"])]
  obtain ⟨-, -, hrefused, -⟩ := ofNames_exact [("pool", ["read", "write"]), ("disk", [])]
  refine ⟨hback scattered (by decide), ?_, (hrefused _).2 ⟨.permission "write", ?_, rfl⟩⟩
  · obtain ⟨g, hg⟩ := hread.2 (by decide)
    have hnames := hdescribed g hg
    refine ⟨g, hg, (hnames.scopes .pool).2 (by decide), ?_, fun ps hget => ⟨?_, ?_⟩⟩
    · rw [← Bool.not_eq_true, hnames.scopes]
      decide
    · exact (hnames.permissions .rgw ps hget .read).2 (by decide)
    · rw [← Bool.not_eq_true, hnames.permissions .rgw ps hget]
      decide
  · exact ⟨[.scope "pool", .permission "read"], [.scope "disk"], rfl, by decide, by decide⟩

end AccessControl.Grants
