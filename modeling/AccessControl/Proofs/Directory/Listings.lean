import AccessControl.Proofs.Directory.Integrity
import AccessControl.Proofs.Directory.Resolution
import AccessControl.Proofs.Text.CodePoints
import Mathlib.Data.List.Perm.Basic

/-!
Listings. Values that stand under their own names are listed in exactly one way by increasing names, so a listing does
not depend on the order in which a table gives its values (`Table.KeyedBy.listedBy_iff`); and no role is listed twice
under one name (`listings_exact`).
-/

namespace AccessControl

namespace Table

variable {α : Type} {name : α → String} {t : Table String α} {l m : List α}

/-- Every value stands under its own name. -/
def KeyedBy (t : Table String α) (name : α → String) : Prop := ∀ key a, t.get? key = some a → name a = key

/-- The list has exactly the values of the table, each of them once, and the code points of their names increase. -/
structure ListedBy (t : Table String α) (name : α → String) (l : List α) : Prop where
  complete : ∀ a, a ∈ l ↔ ∃ key, t.get? key = some a
  once : l.Nodup
  increasing : l.Pairwise fun a b => codePoints (name a) < codePoints (name b)

theorem KeyedBy.values_distinct (ht : t.KeyedBy name) : t.values.Pairwise fun a b => name a ≠ name b := by
  refine List.pairwise_map.2 ((distinctKeys_entries t).imp_of_mem fun {e e'} he he' hkeys hnames => ?_)
  rw [ht e.1 e.2 (mem_entries_iff.1 he), ht e'.1 e'.2 (mem_entries_iff.1 he')] at hnames
  exact hkeys (by rw [hnames]; exact Std.ReflCmp.compare_self)

/-- Two lists of the same values by increasing names are the same list. -/
theorem ListedBy.unique (hl : t.ListedBy name l) (hm : t.ListedBy name m) : l = m := by
  have hperm : l.Perm m :=
    (List.perm_ext_iff_of_nodup hl.once hm.once).2 fun a => (hl.complete a).trans (hm.complete a).symm
  exact hperm.eq_of_pairwise (fun a b _ _ hab hba => absurd hba (List.lt_asymm hab)) hl.increasing hm.increasing

theorem pairwise_mergeSort_compare (name : α → String) (l : List α) :
    (l.mergeSort fun a b => (compare (name a) (name b)).isLE).Pairwise
      fun a b => (compare (name a) (name b)).isLE = true := by
  apply List.pairwise_mergeSort
  · intro a b c hab hbc
    exact Std.TransCmp.isLE_trans hab hbc
  · intro a b
    rw [Bool.or_eq_true]
    by_cases hle : (compare (name a) (name b)).isLE = true
    · exact Or.inl hle
    · exact Or.inr (by rw [Std.OrientedCmp.lt_of_not_isLE hle]; rfl)

theorem KeyedBy.listedBy_mergeSort (ht : t.KeyedBy name) (hl : l.Perm t.values) :
    t.ListedBy name (l.mergeSort fun a b => (compare (name a) (name b)).isLE) := by
  have hperm := (List.mergeSort_perm l fun a b => (compare (name a) (name b)).isLE).trans hl
  have hdistinct := ht.values_distinct.perm hperm.symm fun h => h.symm
  refine ⟨fun a => hperm.mem_iff.trans mem_values_iff, ?_, ?_⟩
  · exact hdistinct.imp fun hne heq => hne (congrArg name heq)
  · refine (pairwise_mergeSort_compare name l).imp₂ (fun a b hle hne => ?_) hdistinct
    rcases Ordering.isLE_iff_eq_lt_or_eq_eq.1 hle with hlt | heq
    · exact compare_eq_lt_iff.1 hlt
    · exact absurd (Std.LawfulEqOrd.eq_of_compare heq) hne

/-- Sorting the values, in whatever order they come, makes the one list of them by increasing names. -/
theorem KeyedBy.listedBy_iff (ht : t.KeyedBy name) (hl : l.Perm t.values) :
    t.ListedBy name m ↔ m = l.mergeSort fun a b => (compare (name a) (name b)).isLE :=
  ⟨fun hm => hm.unique (ht.listedBy_mergeSort hl), fun h => h ▸ ht.listedBy_mergeSort hl⟩

end Table

namespace Directory

variable {d : Directory} {r : Role}

theorem mem_allRoles : r ∈ d.allRoles ↔ r ∈ Catalogue.roles ∨ ∃ key, d.roles.get? key = some r := by
  rw [allRoles, List.mem_append, sortRoles, List.mem_mergeSort, Table.mem_values_iff]

theorem RolesApart.keyedBy (hd : d.RolesApart) : d.roles.KeyedBy Role.name := fun key r hget => (hd key r hget).1

/-- No two roles that are listed have one name. -/
theorem RolesApart.allRoles_distinct (hd : d.RolesApart) : d.allRoles.Pairwise fun r r' => r.name ≠ r'.name := by
  rw [allRoles, List.pairwise_append]
  refine ⟨Catalogue.names_distinct, ?_, fun r hr r' hr' hnames => ?_⟩
  · exact hd.keyedBy.values_distinct.perm (List.mergeSort_perm _ _).symm fun h => h.symm
  · rw [sortRoles, List.mem_mergeSort, Table.mem_values_iff] at hr'
    obtain ⟨key, hget⟩ := hr'
    obtain ⟨hname, hfree⟩ := hd key r' hget
    rw [Catalogue.reserves_eq_true.2 ⟨r, hr, hnames.trans hname⟩] at hfree
    cases hfree

/-- In a directory whose entries stand under their own names, custom roles apart from system roles, there is one list of
the accounts by increasing names, and it is the listing, whatever the order in which the accounts come. So it is for the
custom roles, which are listed behind the system roles; no name is listed twice. The names increase by their code points,
and so do their encodings. -/
theorem listings_exact (d : Directory) (husers : d.users.KeyedBy Account.username) (hroles : d.RolesApart) :
    (∀ l, l.Perm d.users.values → sortAccounts l = d.accounts) ∧
      (∀ l, d.users.ListedBy Account.username l ↔ l = d.accounts) ∧
      (∀ l, l.Perm d.roles.values → Catalogue.roles ++ sortRoles l = d.allRoles) ∧
      (∀ l, d.roles.ListedBy Role.name l ↔ Catalogue.roles ++ l = d.allRoles) ∧
      (d.allRoles.map Role.name).Nodup ∧
      ∀ s t, codePoints s < codePoints t ↔ s.toUTF8.data.toList < t.toUTF8.data.toList := by
  have hcustom := hroles.keyedBy
  refine ⟨fun l hl => ?_, fun l => husers.listedBy_iff (.refl _), fun l hl => ?_, fun l => ?_, ?_,
    fun s t => codePoints_lt_iff_bytes⟩
  · exact (husers.listedBy_mergeSort hl).unique (husers.listedBy_mergeSort (.refl _))
  · rw [allRoles, List.append_cancel_left_eq]
    exact (hcustom.listedBy_mergeSort hl).unique (hcustom.listedBy_mergeSort (.refl _))
  · rw [allRoles, List.append_cancel_left_eq]
    exact hcustom.listedBy_iff (.refl _)
  · exact List.pairwise_map.2 hroles.allRoles_distinct

/-- Accounts in an order that is neither that of ASCII letters nor that of 16-bit units: the last character takes two of
them, the first of which is less than that of the last but one. -/
def crowd : List Account :=
  ["Z", "z", "é", "\uffee", "😀"].map fun username => ⟨username, [], "", none, none, 0, true, none, false⟩

def crowded : Directory where
  users := .ofList (crowd.reverse.map fun a => (a.username, a))
  roles := .ofList [("ops", ⟨"ops", none, false, .empty⟩), ("Ops", ⟨"Ops", none, false, .empty⟩)]

theorem listings_exact_crowded :
    crowded.users.KeyedBy Account.username ∧ crowded.RolesApart ∧ crowded.accounts = crowd ∧
      sortAccounts crowd.reverse = crowd ∧
      crowded.allRoles.map Role.name =
        ["administrator", "block-manager", "cephfs-manager", "cluster-manager", "ganesha-manager", "pool-manager",
          "read-only", "rgw-manager", "Ops", "ops"] := by
  have hvalues : crowded.users.values = crowd := by rfl
  have husers : crowded.users.KeyedBy Account.username := by
    have hentries : ∀ e ∈ crowded.users.entries, e.2.username = e.1 := by decide
    exact fun key a hget => hentries (key, a) (Table.mem_entries_iff.2 hget)
  have hroles : crowded.RolesApart := by
    have hentries : ∀ e ∈ crowded.roles.entries, e.2.name = e.1 ∧ Catalogue.reserves e.1 = false := by decide
    exact fun key r hget => hentries (key, r) (Table.mem_entries_iff.2 hget)
  obtain ⟨hanyOrder, honly, -, honlyRoles, -, -⟩ := listings_exact crowded husers hroles
  have hlisted : crowded.users.ListedBy Account.username crowd :=
    ⟨fun a => by rw [← hvalues, Table.mem_values_iff], by decide, by decide⟩
  have haccounts : crowd = crowded.accounts := (honly crowd).1 hlisted
  have hcustom : crowded.roles.ListedBy Role.name crowded.roles.values :=
    ⟨fun r => Table.mem_values_iff, by decide, by decide⟩
  refine ⟨husers, hroles, haccounts.symm, ?_, ?_⟩
  · rw [hanyOrder crowd.reverse (hvalues ▸ List.reverse_perm crowd), ← haccounts]
  · rw [← (honlyRoles _).1 hcustom]
    rfl

end Directory

end AccessControl
