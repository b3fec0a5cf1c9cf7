import AccessControl.Proofs.Json.Records
import Mathlib.Data.List.Duplicate
import Mathlib.Logic.Relation

/-!
The layout of a value: what can be changed about its objects without any reader noticing. A shape says where a reader
expects records and maps; under it, two values may be laid out differently (`Relaid`), and a record may give one of its
fields twice (`Repeats`). A reader follows a shape if it reads alike what is laid out differently and rejects such
records (`Follows`).
-/

namespace AccessControl

namespace Json

/-- What a reader expects of a value: a map, a record, or anything else. In a map, some values are readable under some
names. In a record, `null` under some names means the same as no member. -/
inductive Shape
  | plain
  | map (readable : String → Json → Prop) (entry : Shape)
  | record (nullable : List String) (fields : List (String × Shape))

namespace Shape

/-- What is expected of the members of this name. -/
def member : Shape → Option String → Shape
  | map _ entry, _ => entry
  | record _ fields, some name => (fields.lookup name).getD plain
  | _, _ => plain

/-- What is expected of the item at this place. -/
def item : Shape → Nat → Shape
  | record _ fields, i => (fields.map Prod.snd).getD i plain
  | _, _ => plain

end Shape

/-- One change of layout: the members of an object are reordered, a record gets a member that is none of its fields or
one that is `null` and means nothing, a map loses a member that a later one replaces; or this happens further inside. -/
inductive Relaid : Shape → Json → Json → Prop
  | permuted {shape : Shape} {members members' : List (Option String × Json)} (perm : members.Perm members')
      (distinct : (members.filterMap Prod.fst).Nodup) : Relaid shape (object members) (object members')
  | extended {nullable : List String} {fields : List (String × Shape)} {front back : List (Option String × Json)}
      {name : String} {v : Json} (unknown : name ∉ fields.map Prod.fst) (wellFormed : v.WellFormed) :
      Relaid (.record nullable fields) (object (front ++ back)) (object (front ++ (some name, v) :: back))
  | nulled {nullable : List String} {fields : List (String × Shape)} {front back : List (Option String × Json)}
      {name : String} (meant : name ∈ nullable) (absent : some name ∉ (front ++ back).map Prod.fst) :
      Relaid (.record nullable fields) (object (front ++ back)) (object (front ++ (some name, null) :: back))
  | superseded {readable : String → Json → Prop} {entry : Shape} {front back : List (Option String × Json)}
      {name : String} {v : Json} (fit : readable name v) (later : some name ∈ back.map Prod.fst) :
      Relaid (.map readable entry) (object (front ++ (some name, v) :: back)) (object (front ++ back))
  | member {shape : Shape} {front back : List (Option String × Json)} {name : Option String} {v w : Json}
      (h : Relaid (shape.member name) v w) :
      Relaid shape (object (front ++ (name, v) :: back)) (object (front ++ (name, w) :: back))
  | item {shape : Shape} {front back : List Json} {v w : Json} (h : Relaid (shape.item front.length) v w) :
      Relaid shape (array (front ++ v :: back)) (array (front ++ w :: back))

/-- Somewhere in the value a record gives one of its fields twice. -/
inductive Repeats : Shape → Json → Prop
  | here {nullable : List String} {fields : List (String × Shape)} {members : List (Option String × Json)}
      {name : String} (known : name ∈ fields.map Prod.fst) (twice : (members.map Prod.fst).Duplicate (some name)) :
      Repeats (.record nullable fields) (object members)
  | member {shape : Shape} {members : List (Option String × Json)} {name : Option String} {v : Json}
      (mem : (name, v) ∈ members) (h : Repeats (shape.member name) v) : Repeats shape (object members)
  | item {shape : Shape} {front back : List Json} {v : Json} (h : Repeats (shape.item front.length) v) :
      Repeats shape (array (front ++ v :: back))

/-- Both come to the same value or both to an error. -/
def Alike {α : Type} (x y : Read α) : Prop := ∀ a, x = .ok a ↔ y = .ok a

structure Follows {α : Type} (shape : Shape) (f : Json → Read α) : Prop where
  alike : ∀ {v w : Json}, Relaid shape v w → Alike (f v) (f w)
  rejects : ∀ {v : Json} {a : α}, Repeats shape v → f v ≠ .ok a

namespace Alike

variable {α β : Type} {x y z : Read α}

theorem refl (x : Read α) : Alike x x := fun _ => Iff.rfl

theorem symm (h : Alike x y) : Alike y x := fun a => (h a).symm

theorem trans (h : Alike x y) (h' : Alike y z) : Alike x z := fun a => (h a).trans (h' a)

theorem bind {f g : α → Read β} (h : Alike x y) (hf : ∀ a, Alike (f a) (g a)) : Alike (x >>= f) (y >>= g) := by
  intro b
  simp only [bind_eq_ok]
  exact exists_congr fun a => and_congr (h a) (hf a b)

theorem map (h : Alike x y) (f : α → β) : Alike (x.map f) (y.map f) := h.bind fun a => refl (.ok (f a))

theorem mapM {g : β → Read α} {b c : β} (h : Alike (g b) (g c)) (front back : List β) :
    Alike ((front ++ b :: back).mapM g) ((front ++ c :: back).mapM g) := by
  rw [List.mapM_append, List.mapM_append, List.mapM_cons, List.mapM_cons]
  refine (refl _).bind fun as => bind ?_ fun bs => refl _
  exact h.bind fun a => refl _

theorem of_errors (hx : ∀ a, x ≠ .ok a) (hy : ∀ a, y ≠ .ok a) : Alike x y :=
  fun a => ⟨fun h => absurd h (hx a), fun h => absurd h (hy a)⟩

/-- Any number of changes, in both directions, goes unnoticed if none of them is noticed. -/
theorem of_eqvGen {f : Json → Read α} {r : Json → Json → Prop} (h : ∀ v w, r v w → Alike (f v) (f w)) {v w : Json}
    (hv : Relation.EqvGen r v w) : Alike (f v) (f w) := by
  induction hv with
  | rel v w hvw => exact h v w hvw
  | refl v => exact refl _
  | symm v w _ ih => exact ih.symm
  | trans v w u _ _ ih ih' => exact ih.trans ih'

end Alike

/-! ### Where nothing is expected -/

/-- Whether a value holds others. -/
def nests : Json → Bool
  | array _ | object _ => true
  | _ => false

theorem readOptional_of_nests {α : Type} {f : Json → Read α} {v : Json} (hv : v.nests = true) :
    readOptional f v = (f v).map some := by
  apply readOptional_of_ne_null
  rintro rfl
  cases hv

theorem Relaid.nests {shape : Shape} {v w : Json} (h : Relaid shape v w) : v.nests = true ∧ w.nests = true := by
  cases h <;> exact ⟨rfl, rfl⟩

theorem Repeats.nests {shape : Shape} {v : Json} (h : Repeats shape v) : v.nests = true := by
  cases h <;> rfl

theorem not_repeats_plain {v : Json} : ¬ Repeats .plain v := by
  intro h
  generalize hshape : Shape.plain = shape at h
  induction h with
  | here _ _ => cases hshape
  | member _ _ ih => exact ih (by subst hshape; rfl)
  | item _ ih => exact ih (by subst hshape; rfl)

theorem completeItems_iff {items : List Json} : completeItems items = true ↔ ∀ v ∈ items, v.complete = true := by
  induction items with
  | nil => simp [completeItems]
  | cons v items ih => rw [completeItems, Bool.and_eq_true, ih, List.forall_mem_cons]

theorem completeMembers_iff {members : List (Option String × Json)} :
    completeMembers members = true ↔ ∀ m ∈ members, m.2.complete = true := by
  induction members with
  | nil => simp [completeMembers]
  | cons m members ih =>
      obtain ⟨name, v⟩ := m
      rw [completeMembers, Bool.and_eq_true, ih, List.forall_mem_cons]

theorem Relaid.complete_iff {v w : Json} (h : Relaid .plain v w) : v.complete = true ↔ w.complete = true := by
  generalize hshape : Shape.plain = shape at h
  induction h with
  | extended _ _ => cases hshape
  | nulled _ _ => cases hshape
  | superseded _ _ => cases hshape
  | permuted perm _ =>
      rw [complete, complete, completeMembers_iff, completeMembers_iff]
      exact ⟨fun h m hm => h m (perm.mem_iff.2 hm), fun h m hm => h m (perm.mem_iff.1 hm)⟩
  | member _ ih =>
      have hinner := ih (by subst hshape; rfl)
      rw [complete, complete, completeMembers_iff, completeMembers_iff]
      simp only [List.forall_mem_append, List.forall_mem_cons, hinner]
  | item _ ih =>
      have hinner := ih (by subst hshape; rfl)
      rw [complete, complete, completeItems_iff, completeItems_iff]
      simp only [List.forall_mem_append, List.forall_mem_cons, hinner]

namespace Follows

variable {α β : Type} {shape : Shape} {f : Json → Read α}

theorem eqvGen (h : Follows shape f) {v w : Json} (hv : Relation.EqvGen (Relaid shape) v w) : Alike (f v) (f w) :=
  .of_eqvGen (fun _ _ hvw => h.alike hvw) hv

theorem of_scalar (h : ∀ {v a}, f v = .ok a → v.nests = false) : Follows shape f where
  alike hv := by
    refine .of_errors (fun a ha => ?_) fun a ha => ?_
    · exact absurd (hv.nests.1.symm.trans (h ha)) (by decide)
    · exact absurd (hv.nests.2.symm.trans (h ha)) (by decide)
  rejects hv ha := absurd (hv.nests.symm.trans (h ha)) (by decide)

theorem text : Follows shape readText := of_scalar fun {v a} h => by
  cases v with
  | array _ | object _ => cases h
  | _ => rfl

theorem bool : Follows shape readBool := of_scalar fun {v a} h => by
  cases v with
  | array _ | object _ => cases h
  | _ => rfl

theorem int : Follows shape readInt := of_scalar fun {v a} h => by
  cases v with
  | array _ | object _ => cases h
  | _ => rfl

theorem map (h : Follows shape f) (g : α → β) : Follows shape fun v => (f v).map g where
  alike hv := (h.alike hv).map g
  rejects hv hb := by
    obtain ⟨a, ha, -⟩ := map_eq_ok.1 hb
    exact h.rejects hv ha

theorem optional (h : Follows shape f) : Follows shape (readOptional f) where
  alike hv := by
    rw [readOptional_of_nests hv.nests.1, readOptional_of_nests hv.nests.2]
    exact (h.map some).alike hv
  rejects hv := by
    rw [readOptional_of_nests hv.nests]
    exact (h.map some).rejects hv

theorem default (h : Follows shape f) (a : α) : Follows shape (readOr a f) := h.optional.map _

/-- A list of values of which nothing is expected. -/
theorem list (h : Follows .plain f) : Follows .plain (readList f) where
  rejects hv := absurd hv not_repeats_plain
  alike hv := by
    cases hv with
    | permuted _ _ => exact .of_errors nofun nofun
    | member _ => exact .of_errors nofun nofun
    | item hinner => exact (h.alike hinner).mapM _ _

theorem eq_singleton_of_readName {ofName? : String → Option α} {members : List (Option String × Json)} {a : α}
    (h : readName ofName? (object members) = .ok a) : ∃ t, members = [(some t, null)] := by
  unfold readName at h
  split at h
  · rename_i heq
    cases heq
  · rename_i t heq
    cases heq
    exact ⟨t, rfl⟩
  · cases h

/-- Only an object of one member is read as a name, and there is nothing in it to change. -/
theorem name (ofName? : String → Option α) : Follows .plain (readName ofName?) where
  rejects hv := absurd hv not_repeats_plain
  alike hv := by
    cases hv with
    | item _ => exact .of_errors nofun nofun
    | permuted perm _ =>
        intro a
        constructor
        · intro h
          obtain ⟨t, rfl⟩ := eq_singleton_of_readName h
          rwa [← List.singleton_perm.1 perm]
        · intro h
          obtain ⟨t, rfl⟩ := eq_singleton_of_readName h
          rwa [List.perm_singleton.1 perm]
    | @member _ front back name v w hinner =>
        have hother : ∀ {u : Json} {a : α}, u.nests = true →
            readName ofName? (object (front ++ (name, u) :: back)) ≠ .ok a := by
          intro u a hu h
          obtain ⟨t, heq⟩ := eq_singleton_of_readName h
          have hmem : (name, u) ∈ [(some t, null)] := heq ▸ List.mem_append_right _ List.mem_cons_self
          cases List.mem_singleton.1 hmem
          cases hu
        exact .of_errors (fun a => hother hinner.nests.1) fun a => hother hinner.nests.2

end Follows

/-! ### Maps -/

section Maps

variable {κ α : Type} {key : String → Read κ} {f : Json → Read α}

theorem readMember_eq_ok {m : Option String × Json} {e : κ × α} :
    readMember key f m = .ok e ↔ ∃ name, m.1 = some name ∧ key name = .ok e.1 ∧ f m.2 = .ok e.2 := by
  obtain ⟨name, v⟩ := m
  obtain ⟨k, a⟩ := e
  cases name with
  | none => exact ⟨nofun, nofun⟩
  | some name => simp [readMember]

theorem Alike.readMember {v w : Json} (h : Alike (f v) (f w)) (name : Option String) :
    Alike (readMember key f (name, v)) (readMember key f (name, w)) := by
  cases name with
  | none => exact .of_errors nofun nofun
  | some name => exact (Alike.refl _).bind fun k => h.bind fun a => .refl _

variable (hkey : ∀ {name name' : String} {k : κ}, key name = .ok k → key name' = .ok k → name = name')

include hkey in
/-- The keys that are read are those of the members, as long as different names are different keys. -/
theorem mem_keys_of_readMembers {members : List (Option String × Json)} {entries : List (κ × α)}
    (h : members.mapM (readMember key f) = .ok entries) {name : String} {k : κ} (hk : key name = .ok k) :
    k ∈ entries.map Prod.fst ↔ some name ∈ members.map Prod.fst := by
  have hread : ∀ m e, readMember key f m = .ok e → (e.1 = k ↔ m.1 = some name) := by
    intro m e he
    obtain ⟨name', hname, hk', -⟩ := readMember_eq_ok.1 he
    rw [hname, Option.some.injEq]
    constructor
    · rintro rfl
      exact hkey hk' hk
    · rintro rfl
      exact Except.ok.inj (hk'.symm.trans hk)
  rw [List.mem_map, List.mem_map]
  exact exists_mem_of_mapM hread h

variable [Ord κ] [Std.LawfulEqOrd κ]

include hkey in
theorem distinctKeys_of_readMembers {members : List (Option String × Json)} {entries : List (κ × α)}
    (h : members.mapM (readMember key f) = .ok entries) (hdistinct : (members.filterMap Prod.fst).Nodup) :
    Table.DistinctKeys entries := by
  rw [Table.distinctKeys_iff_nodup]
  induction members generalizing entries with
  | nil =>
      cases h
      exact List.nodup_nil
  | cons m members ih =>
      simp only [List.mapM_cons, bind_eq_ok, pure_eq_ok] at h
      obtain ⟨e, he, rest, hrest, rfl⟩ := h
      obtain ⟨name, hname, hk, -⟩ := readMember_eq_ok.1 he
      rw [List.filterMap_cons_some hname, List.nodup_cons, List.mem_filterMap] at hdistinct
      rw [List.map_cons, List.nodup_cons, mem_keys_of_readMembers hkey hrest hk, List.mem_map]
      exact ⟨hdistinct.1, ih hrest hdistinct.2⟩

variable [Std.TransOrd κ]

theorem readTable_eq_ok {members : List (Option String × Json)} {t : Table κ α} :
    readTable key f (object members) = .ok t ↔
      ∃ entries, members.mapM (readMember key f) = .ok entries ∧ .ofList entries = t := by
  show ((members.mapM (readMember key f)) >>= fun entries => .ok (Table.ofList entries)) = .ok t ↔ _
  simp only [bind_eq_ok, Except.ok.injEq]

/-- A map that is read has no value in it that is not. -/
theorem exists_read_of_mem {members : List (Option String × Json)} {name : Option String} {v : Json} {t : Table κ α}
    (h : readTable key f (object members) = .ok t) (hmem : (name, v) ∈ members) : ∃ a, f v = .ok a := by
  obtain ⟨front, back, rfl⟩ := List.append_of_mem hmem
  simp only [readTable_eq_ok, List.mapM_append, List.mapM_cons, bind_eq_ok] at h
  obtain ⟨_, ⟨_, _, _, ⟨e, he, _⟩, _⟩, _⟩ := h
  obtain ⟨_, _, _, hread⟩ := readMember_eq_ok.1 he
  exact ⟨e.2, hread⟩

include hkey in
theorem Follows.table {entry : Shape} {readable : String → Json → Prop} (h : Follows entry f)
    (hreadable : ∀ {name v}, readable name v → ∃ k a, key name = .ok k ∧ f v = .ok a) :
    Follows (.map readable entry) (readTable key f) where
  alike hv := by
    cases hv with
    | item _ => exact .of_errors nofun nofun
    | permuted perm distinct =>
        intro t
        rw [readTable_eq_ok, readTable_eq_ok]
        constructor
        · rintro ⟨entries, hread, rfl⟩
          obtain ⟨entries', hread', hperm⟩ := mapM_perm perm.symm hread
          exact ⟨entries', hread', (Table.ofList_eq_of_perm hperm.symm (distinctKeys_of_readMembers hkey hread distinct)).symm⟩
        · rintro ⟨entries, hread, rfl⟩
          obtain ⟨entries', hread', hperm⟩ := mapM_perm perm hread
          exact ⟨entries', hread', Table.ofList_eq_of_perm hperm (distinctKeys_of_readMembers hkey hread' distinct)⟩
    | @superseded _ _ front back name v fit later =>
        obtain ⟨k, a, hk, ha⟩ := hreadable fit
        have hmember : readMember key f (some name, v) = .ok (k, a) := readMember_eq_ok.2 ⟨name, rfl, hk, ha⟩
        intro t
        simp only [readTable_eq_ok, List.mapM_append, List.mapM_cons, hmember, bind_eq_ok, pure_eq_ok, ok_bind]
        constructor
        · rintro ⟨_, ⟨entries, hfront, _, ⟨entries', hback, rfl⟩, rfl⟩, rfl⟩
          have hlater : k ∈ entries'.map Prod.fst := (mem_keys_of_readMembers hkey hback hk).2 later
          exact ⟨_, ⟨entries, hfront, entries', hback, rfl⟩, (Table.ofList_superseded a hlater).symm⟩
        · rintro ⟨_, ⟨entries, hfront, entries', hback, rfl⟩, rfl⟩
          have hlater : k ∈ entries'.map Prod.fst := (mem_keys_of_readMembers hkey hback hk).2 later
          exact ⟨_, ⟨entries, hfront, _, ⟨entries', hback, rfl⟩, rfl⟩, Table.ofList_superseded a hlater⟩
    | member hinner => exact (((h.alike hinner).readMember _).mapM _ _).map _
  rejects hv ha := by
    cases hv with
    | item _ => cases ha
    | member mem hinner =>
        obtain ⟨a, hread⟩ := exists_read_of_mem ha mem
        exact h.rejects hinner hread

end Maps

end Json

end AccessControl
