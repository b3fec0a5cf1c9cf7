import AccessControl.Proofs.Json.Layout

/-!
Records read field by field. A column of a record is one of its fields with the part of the result that is read from it;
what readers of the single fields do not notice, the reader of the record does not notice either (`follows_record`).
-/

namespace AccessControl

namespace Json

/-- A field of a record, the shape of its values, and which values, or no value, are read as the part of the result that
stands for the field. -/
structure Column (nullable : List String) (α : Type) where
  field : Field
  shape : Shape
  reads : Option Json → α → Prop
  fits : ∀ {v : Json} {a : α}, reads (some v) a → field.fits v = .ok ()
  omissible : ∀ {a : α}, reads none a → field.omissible = true
  relaid : ∀ {v w : Json} {a : α}, Relaid shape v w → (reads (some v) a ↔ reads (some w) a)
  nulled : field.name ∈ nullable → ∀ {a : α}, reads none a ↔ reads (some null) a
  rejects : ∀ {v : Json} {a : α}, Repeats shape v → ¬ reads (some v) a

namespace Column

variable {nullable : List String} {α β : Type} {f : Json → Read β}

/-- A field that must be given. -/
def required (name : String) (shape : Shape) (part : α → β) (h : Follows shape f)
    (hnull : name ∈ nullable → ∀ b, f null ≠ .ok b) : Column nullable α where
  field := Json.field name f false
  shape := shape
  reads v a := Json.required f v = .ok (part a)
  fits := fits_field
  omissible := nofun
  relaid hv := h.alike hv _
  nulled hname := ⟨nofun, fun hread => absurd hread (hnull hname _)⟩
  rejects hv := h.rejects hv

/-- A field that has a default. -/
def optional (name : String) (shape : Shape) (default : β) (part : α → β) (h : Follows shape f)
    (hnull : name ∈ nullable → f null = .ok default) : Column nullable α where
  field := Json.field name f true
  shape := shape
  reads v a := Json.withDefault default f v = .ok (part a)
  fits := fits_field
  omissible _ := rfl
  relaid hv := h.alike hv _
  nulled hname {a} := by
    show Except.ok default = .ok (part a) ↔ f null = .ok (part a)
    rw [hnull hname]
  rejects hv := h.rejects hv

def entry (c : Column nullable α) : String × Shape := (c.field.name, c.shape)

end Column

abbrev fieldsOf {nullable : List String} {α : Type} (columns : List (Column nullable α)) : List Field :=
  columns.map Column.field

abbrev namesOf {nullable : List String} {α : Type} (columns : List (Column nullable α)) : List String :=
  (fieldsOf columns).map Field.name

/-! ### What a record gives -/

/-- The values that a record gives under the names of fields. -/
def givenBy (fields : List Field) : Json → List (String × Json)
  | array values => (fields.map Field.name).zip values
  | object members => taken fields members
  | _ => []

/-- A member that a record may have, whatever its value if it is a field. -/
def Passable (fields : List Field) (m : Option String × Json) : Prop :=
  ∃ name, m.1 = some name ∧ (named fields (name, m.2) = false → m.2.complete = true)

/-- Whether a record would be read if only all its values fit. -/
def Proper (fields : List Field) : Json → Prop
  | array values => values.length ≤ fields.length
  | object members => (∀ m ∈ members, Passable fields m) ∧ ((taken fields members).map Prod.fst).Nodup
  | _ => False

theorem map_fst_zip {β γ : Type} (l : List β) (m : List γ) : (l.zip m).map Prod.fst = l.take m.length := by
  induction l generalizing m with
  | nil => simp
  | cons b l ih =>
      cases m with
      | nil => rfl
      | cons c m => rw [List.zip_cons_cons, List.map_cons, ih, List.length_cons, List.take_succ_cons]

section Records

variable {nullable : List String} {α : Type} {columns : List (Column nullable α)}

theorem named_iff {m : String × Json} : named (fieldsOf columns) m = true ↔ ∃ c ∈ columns, c.field.name = m.1 := by
  rw [named, List.find?_isSome]
  simp only [List.mem_map, exists_exists_and_eq_and, beq_iff_eq]

/-- The fields behind the last value are given none. -/
theorem lookup_zip_of_mem_drop (hdistinct : (namesOf columns).Nodup) {values : List Json}
    {c : Column nullable α} (hc : c ∈ columns.drop values.length) :
    ((namesOf columns).zip values).lookup c.field.name = none := by
  rw [List.lookup_eq_none_iff]
  intro p hp
  have hfront : p.1 ∈ (namesOf columns).take values.length :=
    map_fst_zip _ values ▸ List.mem_map_of_mem hp
  have hback : c.field.name ∈ (namesOf columns).drop values.length := by
    rw [← List.map_drop, ← List.map_drop]
    exact List.mem_map_of_mem (List.mem_map_of_mem hc)
  rw [← List.take_append_drop values.length (namesOf columns)] at hdistinct
  rw [bne_iff_ne]
  rintro heq
  exact List.disjoint_of_nodup_append hdistinct hfront (heq ▸ hback)

/-- A reader that reads records column by column. -/
def ReadsBy (columns : List (Column nullable α)) (f : Json → Read α) : Prop :=
  ∀ v a, f v = .ok a ↔ Proper (fieldsOf columns) v ∧
    ∀ c ∈ columns, c.reads ((givenBy (fieldsOf columns) v).lookup c.field.name) a

variable {f : Json → Read α} (hdistinct : (namesOf columns).Nodup)

include hdistinct in
theorem readsBy_readRecord {build : (String → Option Json) → Read α}
    (hbuild : ∀ {given a}, build given = .ok a ↔ ∀ c ∈ columns, c.reads (given c.field.name) a) :
    ReadsBy columns (readRecord (fieldsOf columns) build) := by
  intro v a
  cases v with
  | array values =>
      rw [readRecord_array, hbuild]
      have hkept : (((namesOf columns).zip values).map Prod.fst).Nodup := by
        rw [map_fst_zip]
        exact hdistinct.sublist (List.take_sublist _ _)
      refine and_congr_right fun hlength => ⟨fun h => h.2.2, fun h => ⟨?_, ?_, h⟩⟩
      · rw [List.zip_map_left, List.forall_mem_map]
        rintro ⟨c, v⟩ hc
        apply c.fits (a := a)
        show c.reads (some v) a
        have hgiven : (c.field.name, v) ∈ (namesOf columns).zip values := by
          rw [namesOf, List.map_map, List.zip_map_left]
          exact List.mem_map.2 ⟨(c, v), hc, rfl⟩
        rw [← (lookup_eq_some_iff hkept).2 hgiven]
        exact h c (List.of_mem_zip hc).1
      · rw [← List.map_drop, List.forall_mem_map]
        intro c hc
        apply c.omissible (a := a)
        rw [← lookup_zip_of_mem_drop hdistinct hc]
        exact h c (List.mem_of_mem_drop hc)
  | object members =>
      rw [readRecord_object, hbuild, Proper, and_assoc]
      constructor
      · rintro ⟨hsuits, hnodup, hreads⟩
        refine ⟨fun m hm => ?_, hnodup, hreads⟩
        obtain ⟨name, hname, hsuit⟩ := hsuits m hm
        refine ⟨name, hname, fun hunnamed => ?_⟩
        cases hsuit with
        | passed _ complete => exact complete
        | taken f known _ =>
            rw [named, known] at hunnamed
            cases hunnamed
      · rintro ⟨hmembers, hnodup, hreads⟩
        refine ⟨fun m hm => ?_, hnodup, hreads⟩
        obtain ⟨name, hname, hcomplete⟩ := hmembers m hm
        refine ⟨name, hname, ?_⟩
        cases hfind : (fieldsOf columns).find? (·.name == name) with
        | none => exact .passed hfind (hcomplete (by rw [named, hfind]; rfl))
        | some f =>
            refine .taken f hfind ?_
            obtain ⟨c, hc, rfl⟩ := List.mem_map.1 (List.mem_of_find?_eq_some hfind)
            obtain rfl : c.field.name = name := by simpa using List.find?_some hfind
            have htaken : (c.field.name, m.2) ∈ taken (fieldsOf columns) members :=
              mem_taken.2 ⟨hname ▸ hm, by rw [named, hfind]; rfl⟩
            apply c.fits
            rw [← (lookup_eq_some_iff hnodup).2 htaken]
            exact hreads c hc
  | _ =>
      refine ⟨fun h => ?_, fun h => h.1.elim⟩
      cases h

/-! ### Changes of layout -/

/-- Two records that no reader of the columns tells apart. -/
def Agree (columns : List (Column nullable α)) (v w : Json) : Prop :=
  (Proper (fieldsOf columns) v ↔ Proper (fieldsOf columns) w) ∧
    (Proper (fieldsOf columns) w → ∀ c ∈ columns, ∀ a,
      c.reads ((givenBy (fieldsOf columns) v).lookup c.field.name) a ↔
        c.reads ((givenBy (fieldsOf columns) w).lookup c.field.name) a)

theorem agree_permuted {members members' : List (Option String × Json)} (hperm : members.Perm members') :
    Agree columns (object members) (object members') := by
  have htaken : (taken (fieldsOf columns) members).Perm (taken (fieldsOf columns) members') :=
    (hperm.filterMap _).filter _
  refine ⟨and_congr ?_ (htaken.map _).nodup_iff, fun hproper c _ a => ?_⟩
  · exact ⟨fun h m hm => h m (hperm.mem_iff.2 hm), fun h m hm => h m (hperm.mem_iff.1 hm)⟩
  · have hlookup := lookup_perm htaken.symm hproper.2 c.field.name
    rw [givenBy, givenBy, hlookup]

section Middle

variable {front back : List (Option String × Json)} {name : String} {v w : Json}

theorem taken_middle_of_named {fields : List Field} (h : named fields (name, v) = true) :
    taken fields (front ++ (some name, v) :: back) = taken fields front ++ (name, v) :: taken fields back := by
  rw [taken, List.filterMap_append, List.filter_append]
  exact congrArg _ (taken_cons_of_named h)

theorem taken_middle_of_not_named {fields : List Field} (h : named fields (name, v) = false) :
    taken fields (front ++ (some name, v) :: back) = taken fields (front ++ back) := by
  rw [taken, List.filterMap_append, List.filter_append, taken, List.filterMap_append, List.filter_append]
  exact congrArg _ (taken_cons_of_not_named h)

theorem lookup_middle {front back : List (String × Json)} {key : String} (h : key ≠ name) :
    (front ++ (name, v) :: back).lookup key = (front ++ back).lookup key := by
  rw [List.lookup_append, List.lookup_append, List.lookup_cons, beq_false_of_ne h]

/-- A member that is passed over makes no difference. -/
theorem agree_passed (hunnamed : named (fieldsOf columns) (name, v) = false) (hcomplete : v.complete = true) :
    Agree columns (object (front ++ back)) (object (front ++ (some name, v) :: back)) := by
  have hpassable : Passable (fieldsOf columns) (some name, v) := ⟨name, rfl, fun _ => hcomplete⟩
  refine ⟨?_, fun _ c _ a => ?_⟩
  · rw [Proper, Proper, taken_middle_of_not_named hunnamed]
    simp only [List.forall_mem_append, List.forall_mem_cons, hpassable, true_and]
  · rw [givenBy, givenBy, taken_middle_of_not_named hunnamed]

theorem named_column {c : Column nullable α} (hc : c ∈ columns) (v : Json) :
    named (fieldsOf columns) (c.field.name, v) = true := named_iff.2 ⟨c, hc, rfl⟩

/-- A member that is `null` makes no difference to a field that is not given and takes this for the same. -/
theorem agree_nulled (hnamed : named (fieldsOf columns) (name, null) = true) (hmeant : name ∈ nullable)
    (habsent : some name ∉ (front ++ back).map Prod.fst) :
    Agree columns (object (front ++ back)) (object (front ++ (some name, null) :: back)) := by
  have hpassable : Passable (fieldsOf columns) (some name, null) := ⟨name, rfl, fun _ => rfl⟩
  have hnew : name ∉ (taken (fieldsOf columns) (front ++ back)).map Prod.fst := by
    intro hmem
    obtain ⟨⟨key, v⟩, hv, rfl⟩ := List.mem_map.1 hmem
    exact habsent (List.mem_map_of_mem (mem_taken.1 hv).1)
  have htaken : taken (fieldsOf columns) (front ++ back) =
      taken (fieldsOf columns) front ++ taken (fieldsOf columns) back := by
    rw [taken, List.filterMap_append, List.filter_append]
    rfl
  refine ⟨?_, fun hproper c _ a => ?_⟩
  · rw [Proper, Proper, taken_middle_of_named hnamed]
    rw [htaken, List.map_append] at hnew ⊢
    rw [List.map_append, List.map_cons, List.nodup_middle, List.nodup_cons]
    simp only [List.forall_mem_append, List.forall_mem_cons, hpassable, hnew, not_false_eq_true, true_and]
  · have hnodup := hproper.2
    rw [givenBy, givenBy]
    rw [taken_middle_of_named hnamed] at hnodup ⊢
    by_cases hname : c.field.name = name
    · subst hname
      have hnone : (taken (fieldsOf columns) (front ++ back)).lookup c.field.name = none := by
        rw [List.lookup_eq_none_iff]
        intro m hm
        rw [bne_iff_ne]
        exact fun heq => hnew (heq ▸ List.mem_map_of_mem hm)
      rw [hnone, (lookup_eq_some_iff hnodup).2 (List.mem_append_right _ List.mem_cons_self)]
      exact c.nulled hmeant
    · rw [lookup_middle hname, htaken]

/-- What no column notices about a value is not noticed about the record either. -/
theorem reads_middle {front back : List (String × Json)} {c : Column nullable α} {a : α}
    (hnodup : ((front ++ (name, w) :: back).map Prod.fst).Nodup)
    (h : c.field.name = name → (c.reads (some v) a ↔ c.reads (some w) a)) :
    c.reads ((front ++ (name, v) :: back).lookup c.field.name) a ↔
      c.reads ((front ++ (name, w) :: back).lookup c.field.name) a := by
  by_cases hname : c.field.name = name
  · have hnodup' : ((front ++ (name, v) :: back).map Prod.fst).Nodup := by
      rw [List.map_append, List.map_cons] at hnodup ⊢
      exact hnodup
    rw [hname, (lookup_eq_some_iff hnodup).2 (List.mem_append_right _ List.mem_cons_self),
      (lookup_eq_some_iff hnodup').2 (List.mem_append_right _ List.mem_cons_self)]
    exact h hname
  · rw [lookup_middle hname, lookup_middle hname]

theorem agree_member (hnamed : named (fieldsOf columns) (name, v) = true)
    (h : ∀ c ∈ columns, c.field.name = name → ∀ a, c.reads (some v) a ↔ c.reads (some w) a) :
    Agree columns (object (front ++ (some name, v) :: back)) (object (front ++ (some name, w) :: back)) := by
  have hpassable : ∀ u, Passable (fieldsOf columns) (some name, u) :=
    fun u => ⟨name, rfl, fun hunnamed => nomatch hunnamed.symm.trans hnamed⟩
  refine ⟨?_, fun hproper c hc a => ?_⟩
  · rw [Proper, Proper, taken_middle_of_named hnamed, taken_middle_of_named (v := w) hnamed]
    simp only [List.forall_mem_append, List.forall_mem_cons, hpassable, List.map_append, List.map_cons]
  · have hnodup := hproper.2
    rw [givenBy, givenBy, taken_middle_of_named hnamed, taken_middle_of_named (v := w) hnamed]
    rw [taken_middle_of_named (v := w) hnamed] at hnodup
    exact reads_middle hnodup fun hname => h c hc hname a

theorem agree_passed_member (hunnamed : named (fieldsOf columns) (name, v) = false)
    (h : v.complete = true ↔ w.complete = true) :
    Agree columns (object (front ++ (some name, v) :: back)) (object (front ++ (some name, w) :: back)) := by
  have hpassable : Passable (fieldsOf columns) (some name, v) ↔ Passable (fieldsOf columns) (some name, w) :=
    exists_congr fun _ => and_congr_right fun _ => imp_congr Iff.rfl h
  refine ⟨?_, fun _ c _ a => ?_⟩
  · rw [Proper, Proper, taken_middle_of_not_named hunnamed, taken_middle_of_not_named (v := w) hunnamed]
    simp only [List.forall_mem_append, List.forall_mem_cons, hpassable]
  · rw [givenBy, givenBy, taken_middle_of_not_named hunnamed, taken_middle_of_not_named (v := w) hunnamed]

end Middle

theorem agree_improper {v w : Json} (hv : ¬ Proper (fieldsOf columns) v)
    (hw : ¬ Proper (fieldsOf columns) w) : Agree columns v w :=
  ⟨iff_of_false hv hw, fun hproper => absurd hproper hw⟩

include hdistinct in
theorem eq_of_name {c c' : Column nullable α} (hc : c ∈ columns) (hc' : c' ∈ columns)
    (h : c.field.name = c'.field.name) : c = c' := by
  rw [namesOf, List.map_map] at hdistinct
  exact List.inj_on_of_nodup_map hdistinct hc hc' h

include hdistinct in
/-- What the one column of a member's name does not notice about its value, the record does not notice. -/
theorem agree_column {front back : List (Option String × Json)} {v w : Json} {c : Column nullable α} (hc : c ∈ columns)
    (h : ∀ a, c.reads (some v) a ↔ c.reads (some w) a) :
    Agree columns (object (front ++ (some c.field.name, v) :: back))
      (object (front ++ (some c.field.name, w) :: back)) := by
  refine agree_member (named_column hc v) fun c' hc' hname a => ?_
  obtain rfl := eq_of_name hdistinct hc' hc hname
  exact h a

/-- The value at a place stands under the name of the field at this place. -/
theorem zip_middle {front back : List Json} (hplace : front.length < columns.length) (v : Json) :
    (namesOf columns).zip (front ++ v :: back) =
      ((namesOf columns).take front.length).zip front ++
        (columns[front.length].field.name, v) ::
          ((namesOf columns).drop (front.length + 1)).zip back := by
  have hlength : front.length < (namesOf columns).length := by
    rwa [List.length_map, List.length_map]
  calc
    _ = ((namesOf columns).take front.length ++
          (namesOf columns).drop front.length).zip (front ++ v :: back) := by
      rw [List.take_append_drop]
    _ = ((namesOf columns).take front.length).zip front ++
          ((namesOf columns).drop front.length).zip (v :: back) :=
      List.zip_append (List.length_take_of_le (Nat.le_of_lt hlength))
    _ = _ := by rw [List.drop_eq_getElem_cons hlength, List.zip_cons_cons, List.getElem_map, List.getElem_map]

include hdistinct in
theorem agree_item {front back : List Json} {v w : Json}
    (h : ∀ c, columns[front.length]? = some c → ∀ a, c.reads (some v) a ↔ c.reads (some w) a) :
    Agree columns (array (front ++ v :: back)) (array (front ++ w :: back)) := by
  refine ⟨?_, fun hproper c hc a => ?_⟩
  · simp only [Proper, List.length_append, List.length_cons]
  · rw [Proper, List.length_append, List.length_cons, List.length_map] at hproper
    have hplace : front.length < columns.length := by omega
    rw [givenBy, givenBy, zip_middle hplace, zip_middle hplace]
    refine reads_middle ?_ fun hname => ?_
    · rw [← zip_middle hplace, map_fst_zip]
      exact hdistinct.sublist (List.take_sublist _ _)
    · have hself : c = columns[front.length] := eq_of_name hdistinct hc (List.getElem_mem _) hname
      exact h c (by rw [hself, List.getElem?_eq_getElem]) a

theorem names_entries : (columns.map Column.entry).map Prod.fst = namesOf columns := by
  rw [List.map_map, namesOf, List.map_map]
  rfl

include hdistinct in
theorem member_entries {c : Column nullable α} (hc : c ∈ columns) :
    Shape.member (.record nullable (columns.map Column.entry)) (some c.field.name) = c.shape := by
  have hnames : ((columns.map Column.entry).map Prod.fst).Nodup := by
    rwa [names_entries]
  have hentry : (columns.map Column.entry).lookup c.field.name = some c.shape :=
    (lookup_eq_some_iff hnames).2 (List.mem_map_of_mem hc)
  rw [Shape.member, hentry, Option.getD_some]

theorem item_entries {i : Nat} {c : Column nullable α} (hc : columns[i]? = some c) :
    Shape.item (.record nullable (columns.map Column.entry)) i = c.shape := by
  rw [Shape.item, List.map_map, List.getD_eq_getElem?_getD, List.getElem?_map, hc]
  rfl

theorem named_eq_false {name : String} {v : Json} (h : name ∉ (columns.map Column.entry).map Prod.fst) :
    named (fieldsOf columns) (name, v) = false := by
  rw [Bool.eq_false_iff, ne_eq, named_iff]
  rintro ⟨c, hc, rfl⟩
  exact h (List.mem_map_of_mem (List.mem_map_of_mem hc))

theorem member_entries_of_not_named {name : String} (h : ∀ c ∈ columns, c.field.name ≠ name) :
    Shape.member (.record nullable (columns.map Column.entry)) (some name) = .plain := by
  have hnone : (columns.map Column.entry).lookup name = none := by
    rw [List.lookup_eq_none_iff, List.forall_mem_map]
    intro c hc
    rw [bne_iff_ne]
    exact (h c hc).symm
  rw [Shape.member, hnone, Option.getD_none]

include hdistinct in
/-- A member has the shape of the field of its name, and else nothing is expected of it. -/
theorem member_entries_cases (name : Option String) :
    (∃ c ∈ columns, name = some c.field.name ∧
        Shape.member (.record nullable (columns.map Column.entry)) name = c.shape) ∨
      Shape.member (.record nullable (columns.map Column.entry)) name = .plain ∧
        ∀ c ∈ columns, name ≠ some c.field.name := by
  cases name with
  | none => exact .inr ⟨rfl, nofun⟩
  | some name =>
      by_cases hname : ∃ c ∈ columns, c.field.name = name
      · obtain ⟨c, hc, rfl⟩ := hname
        exact .inl ⟨c, hc, rfl, member_entries hdistinct hc⟩
      · have hother : ∀ c ∈ columns, c.field.name ≠ name := fun c hc heq => hname ⟨c, hc, heq⟩
        exact .inr ⟨member_entries_of_not_named hother, fun c hc heq => hother c hc (Option.some.inj heq).symm⟩

include hdistinct in
theorem Relaid.agree {v w : Json} (h : Relaid (.record nullable (columns.map Column.entry)) v w) : Agree columns v w := by
  cases h with
  | permuted perm _ => exact agree_permuted perm
  | extended unknown wellFormed => exact agree_passed (named_eq_false unknown) wellFormed.complete
  | @nulled _ _ front back name meant absent =>
      cases hnamed : named (fieldsOf columns) (name, null) with
      | true => exact agree_nulled hnamed meant absent
      | false => exact agree_passed hnamed rfl
  | @member _ front back name v w hinner =>
      obtain ⟨c, hc, rfl, hshape⟩ | ⟨hshape, hother⟩ := member_entries_cases hdistinct name
      · exact agree_column hdistinct hc fun a => c.relaid (hshape ▸ hinner)
      · cases name with
        | none =>
            have himproper : ∀ u, ¬ Proper (fieldsOf columns) (object (front ++ (none, u) :: back)) := by
              intro u hproper
              obtain ⟨name, hname, -⟩ := hproper.1 _ (List.mem_append_right _ List.mem_cons_self)
              cases hname
            exact agree_improper (himproper v) (himproper w)
        | some name =>
            have hunnamed : named (fieldsOf columns) (name, v) = false := by
              rw [Bool.eq_false_iff, ne_eq, named_iff]
              rintro ⟨c, hc, hname⟩
              exact hother c hc (congrArg some hname.symm)
            rw [hshape] at hinner
            exact agree_passed_member hunnamed hinner.complete_iff
  | item hinner =>
      refine agree_item hdistinct fun c hc a => c.relaid ?_
      rw [item_entries hc] at hinner
      exact hinner

theorem reads_of_member (hf : ReadsBy columns f) {members : List (Option String × Json)} {c : Column nullable α}
    {v : Json} {a : α} (h : f (object members) = .ok a) (hc : c ∈ columns) (hmem : (some c.field.name, v) ∈ members) :
    c.reads (some v) a := by
  obtain ⟨hproper, hreads⟩ := (hf _ _).1 h
  have hread := hreads c hc
  rwa [givenBy, (lookup_eq_some_iff hproper.2).2 (mem_taken.2 ⟨hmem, named_column hc v⟩)] at hread

include hdistinct in
theorem reads_of_item (hf : ReadsBy columns f) {front back : List Json} {v : Json} {a : α}
    (h : f (array (front ++ v :: back)) = .ok a) : ∃ c, columns[front.length]? = some c ∧ c.reads (some v) a := by
  obtain ⟨hproper, hreads⟩ := (hf _ _).1 h
  rw [Proper, List.length_append, List.length_cons, List.length_map] at hproper
  have hplace : front.length < columns.length := by omega
  have hnodup : (((namesOf columns).zip (front ++ v :: back)).map Prod.fst).Nodup := by
    rw [map_fst_zip]
    exact hdistinct.sublist (List.take_sublist _ _)
  have hgiven : (columns[front.length].field.name, v) ∈ (namesOf columns).zip (front ++ v :: back) := by
    rw [zip_middle hplace]
    exact List.mem_append_right _ List.mem_cons_self
  refine ⟨columns[front.length], List.getElem?_eq_getElem hplace, ?_⟩
  have hread := hreads columns[front.length] (List.getElem_mem _)
  rwa [givenBy, (lookup_eq_some_iff hnodup).2 hgiven] at hread

theorem alike_of_agree (hf : ReadsBy columns f) {v w : Json} (h : Agree columns v w) : Alike (f v) (f w) := by
  intro a
  obtain ⟨hproper, hreads⟩ := h
  rw [hf, hf, hproper]
  exact and_congr_right fun hw => forall₂_congr fun c hc => hreads hw c hc a

include hdistinct in
theorem follows_record (hf : ReadsBy columns f) : Follows (.record nullable (columns.map Column.entry)) f where
  alike hv := alike_of_agree hf (hv.agree hdistinct)
  rejects hv ha := by
    cases hv with
    | @here _ _ members name known twice =>
        have hnamed : named (fieldsOf columns) (name, null) = true := by
          obtain ⟨_, hmem, rfl⟩ := List.mem_map.1 known
          obtain ⟨c, hc, rfl⟩ := List.mem_map.1 hmem
          exact named_column hc null
        have hnodup := ((hf _ _).1 ha).1.2
        rw [map_fst_taken] at hnodup
        have htwice := ((List.duplicate_iff_sublist.1 twice).filterMap id).filter
          fun name => named (fieldsOf columns) (name, null)
        have hpair : [name, name].Nodup := hnodup.sublist (by simpa [hnamed] using htwice)
        simp at hpair
    | @member _ _ name _ mem hinner =>
        obtain ⟨c, hc, rfl, hshape⟩ | ⟨hshape, -⟩ := member_entries_cases hdistinct name
        · exact c.rejects (hshape ▸ hinner) (reads_of_member hf ha hc mem)
        · exact not_repeats_plain (hshape ▸ hinner)
    | item hinner =>
        obtain ⟨c, hc, hread⟩ := reads_of_item hdistinct hf ha
        exact c.rejects (item_entries hc ▸ hinner) hread

end Records

end Json

end AccessControl
