import AccessControl.Proofs.Document.Layout
import AccessControl.Proofs.Document.RoundTrip
import AccessControl.Proofs.Json.Forms

/-!
The two forms of stored records. A document, an account and a role are read alike from values in order and from the same
values by name, also where they stand inside of each other, and are not read from more values than they have fields
(`forms_read_alike`).
-/

namespace AccessControl

open Json

theorem Role.takesForms : TakesForms Role.layout Role.readJson := by
  have hcolumns : ∀ c ∈ Role.columns, c.Indifferent := by
    simp only [Role.columns, List.forall_mem_cons]
    exact ⟨Column.indifferent_of_formless .plain, Column.indifferent_of_formless .plain,
      Column.indifferent_of_formless .plain, Column.indifferent_of_formless (.map .plain), List.forall_mem_nil _⟩
  exact takesForms_record (by decide) hcolumns Role.readsBy

theorem Account.takesForms : TakesForms Account.layout Account.readJson := by
  have hplain : ∀ c ∈ Account.columns, c.shape = .plain := by
    simp only [Account.columns, List.forall_mem_cons]
    exact ⟨rfl, rfl, rfl, rfl, rfl, rfl, rfl, rfl, rfl, List.forall_mem_nil _⟩
  have hcolumns : ∀ c ∈ Account.columns, c.Indifferent :=
    fun c hc => Column.indifferent_of_formless (hplain c hc ▸ .plain)
  exact takesForms_record (by decide) hcolumns Account.readsBy

theorem Document.takesForms : TakesForms Document.layout Document.readJson := by
  have hcolumns : ∀ c ∈ Document.columns, c.Indifferent := by
    simp only [Document.columns, List.forall_mem_cons]
    exact ⟨Column.indifferent_optional (Account.takesForms.table.default _),
      Column.indifferent_optional (Role.takesForms.table.default _), Column.indifferent_of_formless .plain,
      List.forall_mem_nil _⟩
  exact takesForms_record (by decide) hcolumns Document.readsBy

namespace Stored

/-- The names of the fields, in their order. -/
def fieldNames : Stored → List String
  | document => ["users", "roles", "version"]
  | account =>
    ["username", "roles", "password", "name", "email", "lastUpdate", "enabled", "pwdExpirationDate", "pwdUpdateRequired"]
  | role => ["name", "description", "system", "scopes_permissions"]

theorem takesForms (kind : Stored) : TakesForms kind.layout kind.read := by
  cases kind with
  | document => exact Document.takesForms
  | account => exact Account.takesForms
  | role => exact Role.takesForms

def toJson : (kind : Stored) → kind.Value → Json
  | document => Document.toJson
  | account => Account.toJson
  | role => Role.toJson

theorem read_toJson (kind : Stored) (a : kind.Value) : kind.read (kind.toJson a) = .ok a := by
  cases kind with
  | document =>
      show Document.readJson (Document.jsonOf _ _ _) = .ok a
      rw [Document.readJson_jsonOf, Table.ofList_entries, Table.ofList_entries]
      rfl
  | account => exact Account.readJson_toJson a
  | role => exact Role.readJson_toJson a

/-- What is written has all its fields, in their order. -/
theorem exists_toJson_eq (kind : Stored) (a : kind.Value) :
    ∃ values, values.length = kind.fieldNames.length ∧ kind.toJson a = record (kind.fieldNames.zip values) := by
  cases kind with
  | document => exact ⟨[_, _, _], rfl, rfl⟩
  | account => exact ⟨[_, _, _, _, _, _, _, _, _], rfl, rfl⟩
  | role => exact ⟨[_, _, _, _], rfl, rfl⟩

/-- One change of layout or of form. -/
def Rewritten (kind : Stored) (v w : Json) : Prop := Relaid kind.layout v w ∨ Reformed kind.layout v w

theorem alike_of_rewritten {kind : Stored} {v w : Json} (h : Relation.EqvGen kind.Rewritten v w) :
    Alike (kind.read v) (kind.read w) := by
  refine .of_eqvGen (fun v w hvw => ?_) h
  rcases hvw with hrelaid | hreformed
  · exact kind.follows.alike hrelaid
  · exact kind.takesForms.alike hreformed

variable (kind : Stored) {values : List Json}

theorem reformed (h : values.length ≤ kind.fieldNames.length) :
    Reformed kind.layout (array values) (record (kind.fieldNames.zip values)) := by
  cases kind with
  | document => exact .form h
  | account => exact .form h
  | role => exact .form h

theorem overlong (h : kind.fieldNames.length < values.length) : Overlong kind.layout (array values) := by
  cases kind with
  | document => exact .here h
  | account => exact .here h
  | role => exact .here h

end Stored

/-- A stored record is read alike in both of its forms: from values in order, and from the same values under the names
of the first fields; so whatever was written by name is read back from its values alone. It is the same for texts in
which records further inside are in either form, whatever else there is to their layout. Where a record gives more
values in order than it has fields, nothing is read. -/
theorem forms_read_alike :
    (∀ (kind : Stored) values, values.length ≤ kind.fieldNames.length →
        Alike (kind.read (array values)) (kind.read (record (kind.fieldNames.zip values)))) ∧
      (∀ (kind : Stored) a, ∃ values, values.length = kind.fieldNames.length ∧
        kind.toJson a = record (kind.fieldNames.zip values) ∧ kind.read (array values) = .ok a) ∧
      (∀ (kind : Stored) values a, kind.fieldNames.length < values.length → kind.read (array values) ≠ .ok a) ∧
      (∀ (kind : Stored) v w, Relation.EqvGen kind.Rewritten v w → Alike (kind.read v) (kind.read w) ∧
        ∀ s s', Spelt v s → Spelt w s' → Alike (readWholeText kind.read s) (readWholeText kind.read s')) ∧
      (∀ (kind : Stored) v a, Overlong kind.layout v → kind.read v ≠ .ok a ∧
        ∀ s, Spelt v s → readWholeText kind.read s ≠ .ok a) ∧
      (∀ v w b b', Relation.EqvGen Stored.document.Rewritten v w → Spelt v (Glyph.ofBytes b) →
        Spelt w (Glyph.ofBytes b') → Document.ofBytes b = Document.ofBytes b') ∧
      ∀ v b, Overlong Document.layout v → Spelt v (Glyph.ofBytes b) →
        Document.ofBytes b = .error .unreadableDocument := by
  have halike : ∀ (kind : Stored) v w, Relation.EqvGen kind.Rewritten v w → ∀ s s', Spelt v s → Spelt w s' →
      Alike (readWholeText kind.read s) (readWholeText kind.read s') := by
    intro kind v w h s s' hs hs'
    rw [hs.readWholeText, hs'.readWholeText]
    exact Stored.alike_of_rewritten h
  have hrejects : ∀ (kind : Stored) v a, Overlong kind.layout v → ∀ s, Spelt v s → readWholeText kind.read s ≠ .ok a := by
    intro kind v a h s hs
    rw [hs.readWholeText]
    exact kind.takesForms.rejects h
  refine ⟨fun kind values h => ?_, fun kind a => ?_, fun kind values a h => ?_, fun kind v w h => ⟨?_, halike kind v w h⟩,
    fun kind v a h => ⟨?_, hrejects kind v a h⟩, fun v w b b' h hs hs' => ?_, fun v b h hs => ?_⟩
  · exact kind.takesForms.alike (kind.reformed h)
  · obtain ⟨values, hlength, hwritten⟩ := kind.exists_toJson_eq a
    refine ⟨values, hlength, hwritten, (kind.takesForms.alike (kind.reformed (Nat.le_of_eq hlength)) a).2 ?_⟩
    rw [← hwritten, kind.read_toJson]
  · exact kind.takesForms.rejects (kind.overlong h)
  · exact Stored.alike_of_rewritten h
  · exact kind.takesForms.rejects h
  · exact Document.ofBytes_eq_of_alike (halike .document v w h _ _ hs hs')
  · exact Document.ofBytes_eq_error fun d => hrejects .document v d h _ hs

/-! ### An account in both forms -/

def annInOrder : Json := array [text "ann", null, text "h"]

def annByName : Json := record [("username", text "ann"), ("roles", null), ("password", text "h")]

def usersByName (ann : Json) : Option String × Json := (some "users", object [(some "ann", ann)])

/-- A document in order with one account that is in order too, and with `null` for the roles. -/
def documentInOrder : Json := array [object [(some "ann", annInOrder)], null, versionMember.2]

/-- A document by name with an account of ten values. -/
def documentOverlong : Json := object [usersByName (array (List.replicate 10 null)), versionMember]

theorem rewritten_ann : Relation.EqvGen Stored.document.Rewritten documentInOrder annDocument := by
  have hdocument : Reformed Document.layout documentInOrder
      (object [usersByName annInOrder, (some "roles", null), versionMember]) :=
    Stored.document.reformed (Nat.le_refl 3)
  have haccount : Reformed Account.layout annInOrder annByName := Stored.account.reformed (show 3 ≤ 9 by decide)
  have hinside : Reformed Document.layout (object [usersByName annInOrder, (some "roles", null), versionMember])
      (object [usersByName annByName, (some "roles", null), versionMember]) :=
    @Reformed.member _ [] [(some "roles", null), versionMember] _ _ _ (@Reformed.member _ [] [] _ _ _ haccount)
  have hroles : Relaid Document.layout (object [usersByName annByName, versionMember])
      (object [usersByName annByName, (some "roles", null), versionMember]) :=
    @Relaid.nulled _ _ [usersByName annByName] [versionMember] _ (by decide) (by decide)
  have hnulled : Relaid Account.layout annJson annByName :=
    @Relaid.nulled _ _ [(some "username", text "ann")] [(some "password", text "h")] _ (by decide) (by decide)
  have hann : Relaid Document.layout annDocument (object [usersByName annByName, versionMember]) :=
    @Relaid.member _ [] [versionMember] _ _ _ (@Relaid.member _ [] [] _ _ _ hnulled)
  -- first both forms, then backwards over the two members that are `null`
  exact (Relation.EqvGen.rel _ _ (.inr hdocument)).trans _ _ _ <| (Relation.EqvGen.rel _ _ (.inr hinside)).trans _ _ _ <|
    (Relation.EqvGen.rel _ _ (.inl hroles)).symm.trans _ _ _ (Relation.EqvGen.rel _ _ (.inl hann)).symm

theorem overlong_ann : Overlong Document.layout documentOverlong := by
  have haccount : Overlong Account.layout (array (List.replicate 10 null)) :=
    Stored.account.overlong (show 9 < 10 by decide)
  exact .member List.mem_cons_self (.member List.mem_cons_self haccount)

theorem writable_inOrder : documentInOrder.Writable ∧ documentOverlong.Writable := by
  simp [documentInOrder, documentOverlong, annInOrder, usersByName, versionMember, text, Writable, WritableItems,
    WritableMembers, Numeral.Writable, Except.isOk, Except.toBool]

/-- The account is read from its three values, and from the document in both forms; ten values are not read. -/
theorem forms_read_alike_ann :
    (∃ a, Account.readJson annInOrder = .ok a ∧ Account.readJson annByName = .ok a ∧ a.passwordHash = "h") ∧
      (∃ d, Document.ofBytes documentInOrder.render.toUTF8 = .ok d ∧ Document.ofBytes annDocument.render.toUTF8 = .ok d ∧
        d.users.entries.map (fun e => (e.1, e.2.username)) = [("ann", "ann")]) ∧
      (∀ a, Account.readJson (array (List.replicate 10 null)) ≠ .ok a) ∧
      Document.ofBytes documentOverlong.render.toUTF8 = .error .unreadableDocument := by
  obtain ⟨hforms, -, hlong, -, -, hbytes, hoverlong⟩ := forms_read_alike
  obtain ⟨hinOrder, hwritable⟩ := writable_inOrder
  have haccount : Alike (Account.readJson annInOrder) (Account.readJson annByName) :=
    hforms .account [text "ann", null, text "h"] (show 3 ≤ 9 by decide)
  have hsame := hbytes documentInOrder annDocument _ _ rewritten_ann (spelt_render hinOrder) (spelt_render writable_ann.1)
  have hann : ∃ a, Account.readJson annByName = .ok a ∧ a.passwordHash = "h" := ⟨_, rfl, rfl⟩
  have hread : ∃ d, Document.readJson annDocument = .ok d ∧
      d.users.entries.map (fun e => (e.1, e.2.username)) = [("ann", "ann")] := ⟨_, rfl, rfl⟩
  obtain ⟨a, ha, hhash⟩ := hann
  obtain ⟨d, hd, husers⟩ := hread
  have hok : Document.ofBytes annDocument.render.toUTF8 = .ok d :=
    Document.ofBytes_eq_ok.2 ((readWholeText_render Document.readJson writable_ann.1).trans hd)
  exact ⟨⟨a, (haccount a).2 ha, ha, hhash⟩, ⟨d, hsame.trans hok, hok, husers⟩,
    fun a => hlong .account _ a (show 9 < 10 by decide), hoverlong _ _ overlong_ann (spelt_render hwritable)⟩

end AccessControl
