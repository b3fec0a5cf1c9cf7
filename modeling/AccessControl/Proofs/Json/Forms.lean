import AccessControl.Proofs.Json.Columns

/-!
The two forms of a record. Values in order and the same values under the names of the first fields are the same record,
and no record has more values than fields; so it is also for the records further inside of a value (`Reformed`,
`Overlong`). A reader takes the records that a shape expects in both forms if it does not tell them apart
(`TakesForms`), and a record is read in this way if all its fields are (`takesForms_record`).
-/

namespace AccessControl

namespace Json

/-- One change of form: a record that gives values to its first fields in order gives them by name, or this happens
further inside. -/
inductive Reformed : Shape → Json → Json → Prop
  | form {nullable : List String} {fields : List (String × Shape)} {values : List Json}
      (fit : values.length ≤ fields.length) :
      Reformed (.record nullable fields) (array values) (record ((fields.map Prod.fst).zip values))
  | member {shape : Shape} {front back : List (Option String × Json)} {name : Option String} {v w : Json}
      (h : Reformed (shape.member name) v w) :
      Reformed shape (object (front ++ (name, v) :: back)) (object (front ++ (name, w) :: back))
  | item {shape : Shape} {front back : List Json} {v w : Json} (h : Reformed (shape.item front.length) v w) :
      Reformed shape (array (front ++ v :: back)) (array (front ++ w :: back))

/-- Somewhere in the value a record gives more values in order than it has fields. -/
inductive Overlong : Shape → Json → Prop
  | here {nullable : List String} {fields : List (String × Shape)} {values : List Json}
      (long : fields.length < values.length) : Overlong (.record nullable fields) (array values)
  | member {shape : Shape} {members : List (Option String × Json)} {name : Option String} {v : Json}
      (mem : (name, v) ∈ members) (h : Overlong (shape.member name) v) : Overlong shape (object members)
  | item {shape : Shape} {front back : List Json} {v : Json} (h : Overlong (shape.item front.length) v) :
      Overlong shape (array (front ++ v :: back))

theorem Reformed.nests {shape : Shape} {v w : Json} (h : Reformed shape v w) : v.nests = true ∧ w.nests = true := by
  cases h <;> exact ⟨rfl, rfl⟩

theorem Overlong.nests {shape : Shape} {v : Json} (h : Overlong shape v) : v.nests = true := by
  cases h <;> rfl

/-! ### Where no record is expected -/

namespace Shape

/-- No value in it is expected to be a record. -/
inductive Formless : Shape → Prop
  | plain : Formless plain
  | map {readable : String → Json → Prop} {entry : Shape} (h : Formless entry) : Formless (map readable entry)

namespace Formless

variable {shape : Shape} {v w : Json}

theorem member (h : Formless shape) (name : Option String) : Formless (shape.member name) := by
  cases h with
  | plain => exact .plain
  | map hentry => exact hentry

theorem item (h : Formless shape) (i : Nat) : Formless (shape.item i) := by
  cases h with
  | plain => exact .plain
  | map _ => exact .plain

theorem not_reformed (h : Formless shape) : ¬ Reformed shape v w := by
  intro hv
  -- down to the record itself, where the shape would have to be that of a record
  induction hv with
  | form _ => cases h
  | member _ ih => exact ih (h.member _)
  | item _ ih => exact ih (h.item _)

theorem not_overlong (h : Formless shape) : ¬ Overlong shape v := by
  intro hv
  induction hv with
  | here _ => cases h
  | member _ _ ih => exact ih (h.member _)
  | item _ ih => exact ih (h.item _)

end Formless

end Shape

structure TakesForms {α : Type} (shape : Shape) (f : Json → Read α) : Prop where
  alike : ∀ {v w : Json}, Reformed shape v w → Alike (f v) (f w)
  rejects : ∀ {v : Json} {a : α}, Overlong shape v → f v ≠ .ok a

namespace TakesForms

variable {α : Type} {shape : Shape} {f : Json → Read α}

theorem default (h : TakesForms shape f) (a : α) : TakesForms shape (readOr a f) where
  alike hv := by
    rw [readOr, readOr, readOptional_of_nests hv.nests.1, readOptional_of_nests hv.nests.2]
    exact ((h.alike hv).map some).map _
  rejects hv hread := by
    rw [readOr, readOptional_of_nests hv.nests] at hread
    obtain ⟨_, hsome, -⟩ := map_eq_ok.1 hread
    obtain ⟨b, hb, -⟩ := map_eq_ok.1 hsome
    exact h.rejects hv hb

theorem table {κ : Type} [Ord κ] [Std.TransOrd κ] [Std.LawfulEqOrd κ] {key : String → Read κ}
    {readable : String → Json → Prop} (h : TakesForms shape f) : TakesForms (.map readable shape) (readTable key f) where
  alike hv := by
    cases hv with
    | member hinner => exact (((h.alike hinner).readMember _).mapM _ _).map _
    | item hinner => exact absurd hinner Shape.Formless.plain.not_reformed
  rejects hv hread := by
    cases hv with
    | member mem hinner =>
        obtain ⟨a, ha⟩ := exists_read_of_mem hread mem
        exact h.rejects hinner ha
    | item hinner => exact Shape.Formless.plain.not_overlong hinner

end TakesForms

/-! ### Records -/

section Records

variable {nullable : List String} {α : Type} {columns : List (Column nullable α)} {f : Json → Read α}

/-- A column whose values are read alike in both forms. -/
structure Column.Indifferent (c : Column nullable α) : Prop where
  alike : ∀ {v w : Json} {a : α}, Reformed c.shape v w → (c.reads (some v) a ↔ c.reads (some w) a)
  rejects : ∀ {v : Json} {a : α}, Overlong c.shape v → ¬ c.reads (some v) a

theorem Column.indifferent_of_formless {c : Column nullable α} (h : c.shape.Formless) : c.Indifferent :=
  ⟨fun hv => absurd hv h.not_reformed, fun hv => absurd hv h.not_overlong⟩

theorem Column.indifferent_optional {β : Type} {g : Json → Read β} {name : String} {shape : Shape} {default : β}
    {part : α → β} {h : Follows shape g} {hnull : name ∈ nullable → g null = .ok default} (hforms : TakesForms shape g) :
    (Column.optional name shape default part h hnull).Indifferent :=
  ⟨fun hv => hforms.alike hv _, hforms.rejects⟩

variable (hdistinct : (namesOf columns).Nodup)

include hdistinct in
/-- Both forms give the same values to the same fields. -/
theorem agree_form {values : List Json} (hfit : values.length ≤ columns.length) :
    Agree columns (array values) (record ((namesOf columns).zip values)) := by
  have hnamed : ∀ m ∈ (namesOf columns).zip values, named (fieldsOf columns) m = true := by
    rintro ⟨name, v⟩ hm
    obtain ⟨f, hf, rfl⟩ := List.mem_map.1 (List.of_mem_zip hm).1
    obtain ⟨c, hc, rfl⟩ := List.mem_map.1 hf
    exact named_column hc v
  have htaken : taken (fieldsOf columns) (((namesOf columns).zip values).map fun m => (some m.1, m.2)) =
      (namesOf columns).zip values := by
    rw [taken_record, List.filter_eq_self]
    exact hnamed
  refine ⟨iff_of_true ?_ ⟨fun m hm => ?_, ?_⟩, fun _ c _ a => ?_⟩
  · rwa [Proper, List.length_map]
  · obtain ⟨m, hmem, rfl⟩ := List.mem_map.1 hm
    exact ⟨m.1, rfl, fun hunnamed => absurd (hunnamed.symm.trans (hnamed m hmem)) Bool.false_ne_true⟩
  · rw [htaken, map_fst_zip]
    exact hdistinct.sublist (List.take_sublist _ _)
  · rw [record, givenBy, givenBy, htaken]

variable (hcolumns : ∀ c ∈ columns, c.Indifferent)

include hdistinct hcolumns in
theorem Reformed.agree {v w : Json} (h : Reformed (.record nullable (columns.map Column.entry)) v w) :
    Agree columns v w := by
  cases h with
  | form fit =>
      rw [names_entries]
      rw [List.length_map] at fit
      exact agree_form hdistinct fit
  | @member _ front back name v w hinner =>
      obtain ⟨c, hc, rfl, hshape⟩ | ⟨hshape, -⟩ := member_entries_cases hdistinct name
      · exact agree_column hdistinct hc fun a => (hcolumns c hc).alike (hshape ▸ hinner)
      · exact absurd (hshape ▸ hinner) Shape.Formless.plain.not_reformed
  | item hinner =>
      refine agree_item hdistinct fun c hc a => (hcolumns c (List.mem_of_getElem? hc)).alike ?_
      rwa [item_entries hc] at hinner

include hdistinct hcolumns in
theorem takesForms_record (hf : ReadsBy columns f) : TakesForms (.record nullable (columns.map Column.entry)) f where
  alike hv := alike_of_agree hf (hv.agree hdistinct hcolumns)
  rejects hv ha := by
    cases hv with
    | here long =>
        have hfit := ((hf _ _).1 ha).1
        rw [Proper, List.length_map] at hfit
        rw [List.length_map] at long
        exact absurd hfit (Nat.not_le_of_lt long)
    | @member _ _ name _ mem hinner =>
        obtain ⟨c, hc, rfl, hshape⟩ | ⟨hshape, -⟩ := member_entries_cases hdistinct name
        · exact (hcolumns c hc).rejects (hshape ▸ hinner) (reads_of_member hf ha hc mem)
        · exact Shape.Formless.plain.not_overlong (hshape ▸ hinner)
    | item hinner =>
        obtain ⟨c, hc, hread⟩ := reads_of_item hdistinct hf ha
        exact (hcolumns c (List.mem_of_getElem? hc)).rejects (item_entries hc ▸ hinner) hread

end Records

end Json

end AccessControl
