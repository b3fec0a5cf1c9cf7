import AccessControl.Grants
import AccessControl.Proofs.Attempt
import AccessControl.Proofs.Json.Records
import Mathlib.Data.List.Perm.Basic
import Mathlib.Data.Set.List

/-!
Grants on their way through names. Grants are read back from their names in whatever order the scopes come, so nothing
is lost in the alphabetical order in which they travel (`ofNames_perm`), also no scope without permissions.
-/

namespace AccessControl

theorem Scope.name_injective : Function.Injective Scope.name := by
  intro s t h
  exact Option.some.inj (by rw [← ofName?_name, h, ofName?_name])

namespace Grants

/-- An entry by its names. -/
def entryNames (e : Scope × PermissionSet) : String × List String := (e.1.name, e.2.toList.map Permission.name)

theorem readPermission_name (p : Permission) : readPermission p.name = .ok p := by
  rw [readPermission, Permission.ofName?_name]

theorem readEntry_entryNames (e : Scope × PermissionSet) : readEntry (entryNames e) = .ok e := by
  have hscope : readScope e.1.name = .ok e.1 := by rw [readScope, Scope.ofName?_name]
  have hpermissions := Json.mapM_map_of_read readPermission_name e.2.toList
  rw [readEntry, entryNames]
  dsimp only
  rw [hscope, hpermissions]
  show Except.ok (e.1, PermissionSet.ofList e.2.toList) = _
  rw [PermissionSet.ofList_toList]

theorem entryNames_injective : Function.Injective entryNames := by
  intro e e' h
  have hread := readEntry_entryNames e
  rw [h, readEntry_entryNames] at hread
  exact (Except.ok.inj hread).symm

theorem get?_extend (g : Grants) (s t : Scope) (ps : PermissionSet) :
    (g.extend s ps).get? t = if t = s then some (((g.get? s).getD .none).union ps) else g.get? t := by
  rw [extend, Table.get?_insert]
  simp only [Std.compare_eq_iff_eq]

theorem get?_foldl_extend {l : List (Scope × PermissionSet)} (hl : Table.DistinctKeys l) (g : Grants)
    (hnew : ∀ e ∈ l, g.get? e.1 = none) (s : Scope) :
    (l.foldl (fun (g : Grants) e => g.extend e.1 e.2) g).get? s = (Table.find s l).or (g.get? s) := by
  induction l generalizing g with
  | nil => rfl
  | cons e l ih =>
      obtain ⟨t, ps⟩ := e
      rw [Table.DistinctKeys, List.pairwise_cons] at hl
      have hrest : ∀ e ∈ l, (g.extend t ps).get? e.1 = none := by
        intro e he
        have hne : e.1 ≠ t := fun heq => hl.1 e he (by rw [heq]; exact Std.ReflCmp.compare_self)
        rw [get?_extend, if_neg hne]
        exact hnew e (List.mem_cons_of_mem _ he)
      have hfirst : g.get? t = none := hnew (t, ps) List.mem_cons_self
      rw [List.foldl_cons, ih hl.2 _ hrest, get?_extend, Table.find, hfirst]
      simp only [Std.compare_eq_iff_eq, Option.getD_none, PermissionSet.none_union]
      by_cases hs : s = t
      · have hnone : Table.find s l = none := by
          rw [Option.eq_none_iff_forall_ne_some]
          intro ps' hfind
          exact hl.1 _ (Table.mem_of_find hfind) (by rw [hs]; exact Std.ReflCmp.compare_self)
        rw [hnone, if_pos hs, if_pos hs]
        rfl
      · rw [if_neg hs, if_neg hs]

/-- Grants are made of their own entries, in whatever order they come. -/
theorem foldl_extend_perm {g : Grants} {l : List (Scope × PermissionSet)} (h : l.Perm g.entries) :
    l.foldl (fun (g : Grants) e => g.extend e.1 e.2) Table.empty = g := by
  have hl : Table.DistinctKeys l :=
    (Table.distinctKeys_entries g).perm h.symm fun h heq => h (Std.OrientedCmp.eq_symm heq)
  apply Table.ext_get?
  intro s
  rw [get?_foldl_extend hl _ fun _ _ => rfl, Table.find_perm h hl, Table.get?_empty, Option.or_none]
  rfl

theorem distinctKeys_toNames (g : Grants) : Table.DistinctKeys g.toNames := by
  refine List.pairwise_map.2 ((Table.distinctKeys_entries g).imp fun hne heq => hne ?_)
  rw [Std.compare_eq_iff_eq]
  exact Scope.name_injective (Std.LawfulEqOrd.eq_of_compare heq)

theorem transport_perm (g : Grants) : (transport g).entries.Perm (g.entries.map entryNames) :=
  Table.entries_ofList_perm (distinctKeys_toNames g)

/-- Grants are read back from their names in whatever order the scopes come. -/
theorem ofNames_perm {g : Grants} {entries : List (String × List String)} (h : entries.Perm (g.entries.map entryNames)) :
    ofNames entries = .ok g := by
  have hnames : entries ∈ Set.range (List.map entryNames) := by
    rw [Set.range_list_map]
    intro x hx
    obtain ⟨e, -, he⟩ := List.mem_map.1 (h.mem_iff.1 hx)
    exact ⟨e, he⟩
  obtain ⟨l, rfl⟩ := hnames
  rw [List.map_perm_map_iff entryNames_injective] at h
  rw [ofNames, Json.mapM_map_of_read readEntry_entryNames]
  show Except.ok (l.foldl _ _) = _
  rw [foldl_extend_perm h]

theorem ofNames_transport (g : Grants) : ofNames (transport g).entries = .ok g := ofNames_perm (transport_perm g)

end Grants

end AccessControl
