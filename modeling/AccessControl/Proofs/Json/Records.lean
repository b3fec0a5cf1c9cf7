import AccessControl.Json.Record
import AccessControl.Proofs.Json.RoundTrip
import AccessControl.Proofs.Table
import Mathlib.Data.List.Perm.Basic

/-!
Reading back what was written of plain values, lists, maps and records. What a record gives to its fields is said for
both of its forms (`readRecord_array`, `readRecord_object`); a record that gives every field its value, in the order of
the fields, is read as exactly these values (`readRecord_record`).
-/

namespace AccessControl

/-- Integers keep their value on the way through a numeral. -/
theorem Numeral.int64?_ofInt (i : Int64) : (Numeral.ofInt i.toInt).int64? = some i := by
  have hlow := Int64.le_toInt i
  have hhigh := Int64.toInt_lt i
  unfold int64? ofInt
  by_cases hneg : i.toInt < 0
  · have habs : -(i.toInt.natAbs : Int) = i.toInt := by omega
    simp only [hneg, decide_true, if_true]
    rw [if_pos (by omega), habs, Int64.ofInt_toInt]
  · have habs : (i.toInt.natAbs : Int) = i.toInt := by omega
    simp only [hneg, decide_false, Bool.false_eq_true, if_false]
    rw [if_pos (by omega), habs, Int64.ofInt_toInt]

namespace Json

/-! ### Values that can be written -/

theorem writable_text (t : String) : (text t).Writable := by
  rw [text, Writable]
  rfl

theorem writable_bool (b : Bool) : (bool b).Writable := by
  rw [Writable] <;> simp

theorem writable_int (i : Int64) : (int i).Writable := by
  rw [int, Writable]
  intro digits h
  cases h

theorem writable_optional {α : Type} {f : α → Json} (h : ∀ a, (f a).Writable) (o : Option α) :
    (optional f o).Writable := by
  cases o with
  | none => rw [optional, Writable] <;> simp
  | some a => exact h a

theorem writable_texts (l : List String) : (texts l).Writable := by
  rw [texts, Writable, writableItems_iff]
  intro v hv
  obtain ⟨t, -, rfl⟩ := List.mem_map.1 hv
  exact writable_text t

theorem writable_record {members : List (String × Json)} (h : ∀ m ∈ members, m.2.Writable) :
    (record members).Writable := by
  rw [record, Writable, writableMembers_iff]
  intro m hm
  obtain ⟨m, hmem, rfl⟩ := List.mem_map.1 hm
  exact ⟨rfl, h m hmem⟩

/-! ### Plain values, lists and maps -/

theorem readInt_int (i : Int64) : readInt (int i) = .ok i := by
  rw [int, readInt, Numeral.int64?_ofInt]

theorem readName_text {α : Type} {ofName? : String → Option α} {t : String} {a : α} (h : ofName? t = some a) :
    readName ofName? (text t) = .ok a := by
  rw [text, readName, h]

section Readers

variable {α : Type} {f : Json → Read α} {g : α → Json}

theorem readOptional_of_ne_null {v : Json} (hv : v ≠ null) : readOptional f v = (f v).map some := by
  rw [readOptional]
  exact hv

theorem readOptional_optional (hread : ∀ a, f (g a) = .ok a) (hnull : ∀ a, g a ≠ null) (o : Option α) :
    readOptional f (optional g o) = .ok o := by
  cases o with
  | none => rfl
  | some a =>
      show readOptional f (g a) = _
      rw [readOptional_of_ne_null (hnull a), hread]
      rfl

theorem readOr_of_ne_null {a default : α} {v : Json} (hv : v ≠ null) (h : f v = .ok a) :
    readOr default f v = .ok a := by
  rw [readOr, readOptional_of_ne_null hv, h]
  rfl

theorem mapM_map_of_read {ε β : Type} {f : β → Except ε α} {g : α → β} (hread : ∀ a, f (g a) = .ok a) (l : List α) :
    (l.map g).mapM f = .ok l := by
  induction l with
  | nil => rfl
  | cons a l ih =>
      rw [List.map_cons, List.mapM_cons, hread, ih]
      rfl

theorem mapM_eq_ok {ε β : Type} {f : β → Except ε α} {l : List β} {as : List α} :
    l.mapM f = .ok as ↔ List.Forall₂ (fun b a => f b = .ok a) l as := by
  induction l generalizing as with
  | nil =>
      rw [List.mapM_nil, pure_eq_ok, List.forall₂_nil_left_iff]
      exact eq_comm
  | cons b l ih =>
      simp only [List.mapM_cons, bind_eq_ok, pure_eq_ok, ih, List.forall₂_cons_left_iff]
      constructor
      · rintro ⟨a, ha, as', has, rfl⟩
        exact ⟨a, as', ha, has, rfl⟩
      · rintro ⟨a, as', ha, has, rfl⟩
        exact ⟨a, ha, as', has, rfl⟩

/-- What holds of some result holds of something that was read, if it is so for each on its own. -/
theorem exists_mem_of_mapM {ε β γ : Type} {f : γ → Except ε β} {P : β → Prop} {Q : γ → Prop}
    (hread : ∀ c b, f c = .ok b → (P b ↔ Q c)) {l : List γ} {results : List β} (h : l.mapM f = .ok results) :
    (∃ b ∈ results, P b) ↔ ∃ c ∈ l, Q c := by
  induction l generalizing results with
  | nil =>
      cases h
      simp
  | cons c l ih =>
      simp only [List.mapM_cons, bind_eq_ok, pure_eq_ok] at h
      obtain ⟨b, hb, rest, hrest, rfl⟩ := h
      rw [List.exists_mem_cons_iff, List.exists_mem_cons_iff, hread c b hb, ih hrest]

theorem mapM_perm {ε β γ : Type} {f : γ → Except ε β} {l m : List γ} (hperm : l.Perm m) {results : List β}
    (h : m.mapM f = .ok results) : ∃ results', l.mapM f = .ok results' ∧ results'.Perm results := by
  obtain ⟨results', hread, hresults⟩ := List.perm_comp_forall₂ hperm (mapM_eq_ok.1 h)
  exact ⟨results', mapM_eq_ok.2 hread, hresults⟩

theorem readList_array (hread : ∀ a, f (g a) = .ok a) (l : List α) : readList f (array (l.map g)) = .ok l :=
  mapM_map_of_read hread l

theorem readList_texts (l : List String) : readList readText (texts l) = .ok l :=
  readList_array (g := text) (fun _ => rfl) l

/-- A map is read back from its entries in whatever order they were written. -/
theorem readTable_record {κ : Type} [Ord κ] [Std.TransOrd κ] [Std.LawfulEqOrd κ] {key : String → Read κ}
    {name : κ → String} (hkey : ∀ k, key (name k) = .ok k) (hread : ∀ a, f (g a) = .ok a) (entries : List (κ × α)) :
    readTable key f (record (entries.map fun e => (name e.1, g e.2))) = .ok (Table.ofList entries) := by
  have hmember : ∀ e : κ × α, readMember key f (some (name e.1), g e.2) = .ok e := by
    intro e
    rw [readMember, hkey, hread]
    rfl
  rw [record, readTable, List.map_map]
  show (((entries.map fun e => (some (name e.1), g e.2)).mapM (readMember key f)).map Table.ofList) = _
  rw [mapM_map_of_read hmember]
  rfl

end Readers

/-! ### Records -/

/-- Members that give all fields their values, in the order of the fields. -/
def Gives (fields : List Field) (members : List (String × Json)) : Prop :=
  List.Forall₂ (fun f m => f.name = m.1 ∧ f.fits m.2 = .ok ()) fields members

theorem fits_field {α : Type} {name : String} {f : Json → Read α} {omissible : Bool} {v : Json} {a : α}
    (h : f v = .ok a) : (field name f omissible).fits v = .ok () := by
  show (f v).map _ = _
  rw [h]
  rfl

theorem Gives.names {fields : List Field} {members : List (String × Json)} (h : Gives fields members) :
    fields.map Field.name = members.map Prod.fst := by
  induction h with
  | nil => rfl
  | cons hm _ ih => rw [List.map_cons, List.map_cons, hm.1, ih]

theorem Gives.find {fields : List Field} {members : List (String × Json)} (h : Gives fields members)
    (hdistinct : (fields.map Field.name).Nodup) :
    ∀ m ∈ members, ∃ f, fields.find? (·.name == m.1) = some f ∧ f.fits m.2 = .ok () := by
  induction h with
  | nil =>
      intro m hm
      cases hm
  | @cons f m fields members hm hrest ih =>
      rw [List.map_cons, List.nodup_cons] at hdistinct
      intro m' hm'
      rcases List.mem_cons.1 hm' with rfl | hmem
      · exact ⟨f, by rw [List.find?_cons_of_pos (by simp [hm.1])], hm.2⟩
      · obtain ⟨f', hfind, hfits⟩ := ih hdistinct.2 m' hmem
        have hne : f.name ≠ m'.1 := by
          intro heq
          apply hdistinct.1
          rw [Gives.names hrest, heq]
          exact List.mem_map_of_mem hmem
        exact ⟨f', by rw [List.find?_cons_of_neg (by simpa using hne), hfind], hfits⟩

/-- Whether a member has the name of one of the fields. -/
def named (fields : List Field) (m : String × Json) : Bool := (fields.find? (·.name == m.1)).isSome

/-- A member that a reader of the fields takes as the value of one of them, or passes over. -/
inductive Suits (fields : List Field) (m : String × Json) : Prop
  | taken (f : Field) (known : fields.find? (·.name == m.1) = some f) (fit : f.fits m.2 = .ok ())
  | passed (unknown : fields.find? (·.name == m.1) = none) (complete : m.2.complete = true)

/-- The members that name fields. -/
def taken (fields : List Field) (members : List (Option String × Json)) : List (String × Json) :=
  (members.filterMap fun m => m.1.map fun name => (name, m.2)).filter (named fields)

section Taken

variable {fields : List Field} {name : String} {v : Json} {members : List (Option String × Json)}

theorem taken_cons_of_named (h : named fields (name, v) = true) :
    taken fields ((some name, v) :: members) = (name, v) :: taken fields members := List.filter_cons_of_pos h

theorem taken_cons_of_not_named (h : named fields (name, v) = false) :
    taken fields ((some name, v) :: members) = taken fields members :=
  List.filter_cons_of_neg (by simp [h])

theorem taken_record (fields : List Field) (members : List (String × Json)) :
    taken fields (members.map fun m => (some m.1, m.2)) = members.filter (named fields) := by
  rw [taken, List.filterMap_map]
  exact congrArg _ List.filterMap_some

theorem map_fst_taken :
    (taken fields members).map Prod.fst =
      ((members.map Prod.fst).filterMap id).filter fun name => named fields (name, null) := by
  have hnames : (members.filterMap fun m => m.1.map fun name => (name, m.2)).map Prod.fst =
      (members.map Prod.fst).filterMap id := by
    rw [List.map_filterMap, List.filterMap_map]
    congr 1
    funext m
    obtain ⟨_ | name, v⟩ := m <;> rfl
  rw [← hnames, List.filter_map]
  rfl

theorem mem_taken : (name, v) ∈ taken fields members ↔ (some name, v) ∈ members ∧ named fields (name, v) = true := by
  rw [taken, List.mem_filter, List.mem_filterMap]
  simp only [Option.map_eq_some_iff, Prod.mk.injEq]
  constructor
  · rintro ⟨⟨m, hm, n, hname, rfl, rfl⟩, hnamed⟩
    exact ⟨hname ▸ hm, hnamed⟩
  · rintro ⟨hm, hnamed⟩
    exact ⟨⟨_, hm, name, rfl, rfl, rfl⟩, hnamed⟩

end Taken

theorem lookup_eq_some_iff {β : Type} {members : List (String × β)} (hdistinct : (members.map Prod.fst).Nodup)
    {name : String} {v : β} : members.lookup name = some v ↔ (name, v) ∈ members := by
  induction members with
  | nil => simp
  | cons m members ih =>
      rw [List.map_cons, List.nodup_cons] at hdistinct
      obtain ⟨key, w⟩ := m
      rw [List.lookup_cons, List.mem_cons]
      by_cases hkey : name = key
      · subst hkey
        have hnone : (name, v) ∉ members := fun hmem => hdistinct.1 (List.mem_map.2 ⟨_, hmem, rfl⟩)
        simp [hnone, eq_comm]
      · simp [beq_false_of_ne hkey, ih hdistinct.2, hkey]

theorem lookup_perm {members members' : List (String × Json)} (hperm : members.Perm members')
    (hdistinct : (members.map Prod.fst).Nodup) (name : String) : members.lookup name = members'.lookup name := by
  apply Option.ext
  intro v
  rw [lookup_eq_some_iff hdistinct, lookup_eq_some_iff ((hperm.map _).nodup_iff.1 hdistinct), hperm.mem_iff]

theorem lookup_cons_eq_none {name key : String} {v : Json} {given : List (String × Json)} :
    List.lookup name ((key, v) :: given) = none ↔ name ≠ key ∧ given.lookup name = none := by
  rw [List.lookup_cons]
  by_cases h : name = key
  · simp [h]
  · simp [beq_false_of_ne h, h]

/-- Members give their values to fields exactly if each of them suits and no field is given twice. -/
theorem givenByName_eq_ok {fields : List Field} {members : List (Option String × Json)}
    {given out : List (String × Json)} :
    givenByName fields given members = .ok out ↔
      (∀ m ∈ members, ∃ name, m.1 = some name ∧ Suits fields (name, m.2)) ∧
        ((taken fields members).map Prod.fst).Nodup ∧ (∀ m ∈ taken fields members, given.lookup m.1 = none) ∧
        out = (taken fields members).reverse ++ given := by
  induction members generalizing given with
  | nil =>
      rw [givenByName, Except.ok.injEq]
      exact ⟨fun h => ⟨nofun, List.nodup_nil, nofun, h.symm⟩, fun h => h.2.2.2.symm⟩
  | cons m members ih =>
      obtain ⟨name, v⟩ := m
      cases name with
      | none =>
          rw [givenByName]
          refine ⟨nofun, fun h => ?_⟩
          obtain ⟨name, hname, -⟩ := h.1 _ List.mem_cons_self
          cases hname
      | some name =>
          have hfirst : (∃ n, some name = some n ∧ Suits fields (n, v)) ↔ Suits fields (name, v) := by simp
          rw [givenByName, List.forall_mem_cons, hfirst]
          cases hfind : fields.find? (·.name == name) with
          | none =>
              have hunnamed : named fields (name, v) = false := by
                rw [named, hfind]
                rfl
              rw [taken_cons_of_not_named hunnamed]
              dsimp only
              by_cases hcomplete : v.complete = true
              · have hsuits : Suits fields (name, v) := .passed hfind hcomplete
                rw [if_pos hcomplete, ih]
                simp only [hsuits, true_and]
              · rw [if_neg hcomplete]
                refine ⟨nofun, fun h => ?_⟩
                cases h.1.1 with
                | taken f known _ => exact nomatch hfind.symm.trans known
                | passed _ complete => exact absurd complete hcomplete
          | some f =>
              have hnamed : named fields (name, v) = true := by
                rw [named, hfind]
                rfl
              rw [taken_cons_of_named hnamed, List.map_cons, List.nodup_cons, List.forall_mem_cons, List.reverse_cons,
                List.append_assoc]
              dsimp only
              cases hgiven : given.lookup name with
              | some w => exact ⟨nofun, fun h => nomatch h.2.2.1.1⟩
              | none =>
                  cases hfit : f.fits v with
                  | error e =>
                      refine ⟨nofun, fun h => ?_⟩
                      cases h.1.1 with
                      | taken f' known fit =>
                          cases hfind.symm.trans known
                          exact nomatch hfit.symm.trans fit
                      | passed unknown _ => exact nomatch hfind.symm.trans unknown
                  | ok u =>
                      have hsuits : Suits fields (name, v) := .taken f hfind hfit
                      have hnew : (∀ m ∈ taken fields members, List.lookup m.1 ((name, v) :: given) = none) ↔
                          name ∉ (taken fields members).map Prod.fst ∧
                            ∀ m ∈ taken fields members, given.lookup m.1 = none := by
                        simp only [lookup_cons_eq_none, forall_and, List.mem_map, not_exists, not_and]
                      show givenByName fields ((name, v) :: given) members = _ ↔ _
                      rw [ih, hnew]
                      simp only [hsuits, true_and, and_assoc, and_left_comm]
                      rfl

/-- A record given by name is read if its members suit and no field is given twice, from the values they give. -/
theorem readRecord_object {α : Type} {fields : List Field} {build : (String → Option Json) → Read α}
    {members : List (Option String × Json)} {a : α} :
    readRecord fields build (object members) = .ok a ↔
      (∀ m ∈ members, ∃ name, m.1 = some name ∧ Suits fields (name, m.2)) ∧
        ((taken fields members).map Prod.fst).Nodup ∧ build (fun name => (taken fields members).lookup name) = .ok a := by
  have hlookup : ((taken fields members).map Prod.fst).Nodup →
      (fun name => ((taken fields members).reverse ++ []).lookup name) = fun name => (taken fields members).lookup name := by
    intro hdistinct
    funext name
    rw [List.append_nil]
    exact (lookup_perm (List.reverse_perm _).symm hdistinct name).symm
  rw [readRecord, bind_eq_ok]
  constructor
  · rintro ⟨given, hgiven, hbuild⟩
    obtain ⟨hsuits, hdistinct, -, rfl⟩ := givenByName_eq_ok.1 hgiven
    exact ⟨hsuits, hdistinct, hlookup hdistinct ▸ hbuild⟩
  · rintro ⟨hsuits, hdistinct, hbuild⟩
    exact ⟨_, givenByName_eq_ok.2 ⟨hsuits, hdistinct, fun _ _ => rfl, rfl⟩, hlookup hdistinct ▸ hbuild⟩

/-- Values give themselves to the fields in order if they fit and no field beyond them is needed. -/
theorem givenInOrder_eq_ok {fields : List Field} {values : List Json} {out : List (String × Json)} :
    givenInOrder fields values = .ok out ↔
      values.length ≤ fields.length ∧ (∀ p ∈ fields.zip values, p.1.fits p.2 = .ok ()) ∧
        (∀ f ∈ fields.drop values.length, f.omissible = true) ∧ out = (fields.map Field.name).zip values := by
  induction fields generalizing values out with
  | nil =>
      cases values with
      | nil =>
          rw [givenInOrder, Except.ok.injEq]
          exact ⟨fun h => ⟨Nat.le_refl _, nofun, nofun, h.symm⟩, fun h => h.2.2.2.symm⟩
      | cons v values => exact ⟨nofun, fun h => absurd h.1 (Nat.not_succ_le_zero _)⟩
  | cons f fields ih =>
      cases values with
      | nil =>
          rw [givenInOrder]
          by_cases homissible : f.omissible = true
          · rw [if_pos homissible, ih]
            simp [homissible]
          · rw [if_neg homissible]
            exact ⟨nofun, fun h => absurd (h.2.2.1 f List.mem_cons_self) homissible⟩
      | cons v values =>
          rw [givenInOrder]
          simp only [bind_eq_ok, pure_eq_ok, ih, List.zip_cons_cons, List.forall_mem_cons, List.length_cons,
            List.drop_succ_cons, List.map_cons, Nat.succ_le_succ_iff]
          constructor
          · rintro ⟨_, hfit, given, ⟨hlength, hfits, homissible, rfl⟩, rfl⟩
            exact ⟨hlength, ⟨hfit, hfits⟩, homissible, rfl⟩
          · rintro ⟨hlength, ⟨hfit, hfits⟩, homissible, rfl⟩
            exact ⟨(), hfit, _, ⟨hlength, hfits, homissible, rfl⟩, rfl⟩

/-- A record given in order is read if its values fit, from as many fields as there are values. -/
theorem readRecord_array {α : Type} {fields : List Field} {build : (String → Option Json) → Read α}
    {values : List Json} {a : α} :
    readRecord fields build (array values) = .ok a ↔
      values.length ≤ fields.length ∧ (∀ p ∈ fields.zip values, p.1.fits p.2 = .ok ()) ∧
        (∀ f ∈ fields.drop values.length, f.omissible = true) ∧
        build (fun name => ((fields.map Field.name).zip values).lookup name) = .ok a := by
  rw [readRecord, bind_eq_ok]
  constructor
  · rintro ⟨given, hgiven, hbuild⟩
    obtain ⟨hlength, hfits, homissible, rfl⟩ := givenInOrder_eq_ok.1 hgiven
    exact ⟨hlength, hfits, homissible, hbuild⟩
  · rintro ⟨hlength, hfits, homissible, hbuild⟩
    exact ⟨_, givenInOrder_eq_ok.2 ⟨hlength, hfits, homissible, rfl⟩, hbuild⟩

/-- A record whose members have distinct names is read from those of them that name fields. -/
theorem readRecord_members {α : Type} {fields : List Field} {members : List (String × Json)}
    (build : (String → Option Json) → Read α) (hsuits : ∀ m ∈ members, Suits fields m)
    (hdistinct : (members.map Prod.fst).Nodup) :
    readRecord fields build (record members) = build fun name => (members.filter (named fields)).lookup name := by
  have htaken := taken_record fields members
  have hkept : ((members.filter (named fields)).map Prod.fst).Nodup :=
    hdistinct.sublist (List.filter_sublist.map _)
  have hgiven : givenByName fields [] (members.map fun m => (some m.1, m.2)) =
      .ok ((members.filter (named fields)).reverse ++ []) := by
    refine givenByName_eq_ok.2 ⟨?_, by rwa [htaken], fun _ _ => rfl, by rw [htaken]⟩
    intro m hm
    obtain ⟨m, hmem, rfl⟩ := List.mem_map.1 hm
    exact ⟨m.1, rfl, hsuits m hmem⟩
  rw [record, readRecord, hgiven, List.append_nil]
  show build _ = _
  congr 1
  funext name
  exact (lookup_perm (List.reverse_perm _).symm hkept name).symm

/-- A record that gives all fields in their order is read from exactly the values it gives. -/
theorem readRecord_record {α : Type} {fields : List Field} {members : List (String × Json)}
    (build : (String → Option Json) → Read α) (hgives : Gives fields members)
    (hdistinct : (fields.map Field.name).Nodup) :
    readRecord fields build (record members) = build fun name => members.lookup name := by
  have hnames : (members.map Prod.fst).Nodup := hgives.names ▸ hdistinct
  have hfound := hgives.find hdistinct
  have hsuits : ∀ m ∈ members, Suits fields m := by
    intro m hm
    obtain ⟨f, hfind, hfit⟩ := hfound m hm
    exact Suits.taken f hfind hfit
  have hall : (members.filter (named fields)) = members := by
    rw [List.filter_eq_self]
    intro m hm
    obtain ⟨f, hfind, -⟩ := hfound m hm
    rw [named, hfind]
    rfl
  rw [readRecord_members build hsuits hnames, hall]

end Json

end AccessControl
