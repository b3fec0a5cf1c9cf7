import AccessControl.Document
import AccessControl.Proofs.Json.Columns
import AccessControl.Proofs.Json.RoundTrip

/-!
The layout of stored records. Documents, accounts and roles are read alike from all texts that differ in white space,
in the order of members, in members that mean nothing, or in entries of a map that later ones replace; a record that
gives one of its fields twice is rejected (`layout_is_not_read`).
-/

namespace AccessControl

open Json

/-- The names under which `null` stands for no member. -/
def nullable : List String :=
  ["users", "roles", "scopes_permissions", "description", "name", "email", "pwdExpirationDate"]

def Grants.layout : Shape :=
  .map (fun name v => ∃ s ps, Scope.readKey name = .ok s ∧ PermissionSet.readJson v = .ok ps) .plain

def Role.layout : Shape :=
  .record nullable [("name", .plain), ("description", .plain), ("system", .plain), ("scopes_permissions", Grants.layout)]

def Account.layout : Shape :=
  .record nullable
    [("username", .plain), ("roles", .plain), ("password", .plain), ("name", .plain), ("email", .plain),
     ("lastUpdate", .plain), ("enabled", .plain), ("pwdExpirationDate", .plain), ("pwdUpdateRequired", .plain)]

def Document.layout : Shape :=
  .record nullable
    [("users", .map (fun _ v => ∃ a, Account.readJson v = .ok a) Account.layout),
     ("roles", .map (fun _ v => ∃ r, Role.readJson v = .ok r) Role.layout), ("version", .plain)]

/-! ### Grants and roles -/

theorem PermissionSet.follows : Follows .plain PermissionSet.readJson := (Follows.name _).list.map _

theorem Scope.readKey_eq_ok {name : String} {s : Scope} : Scope.readKey name = .ok s ↔ name = s.name := by
  rw [← Scope.ofName?_eq_some, readKey]
  split
  · rename_i heq
    rw [heq, Except.ok.injEq, Option.some.injEq]
  · rename_i heq
    rw [heq]
    exact ⟨nofun, nofun⟩

theorem Grants.follows : Follows Grants.layout Grants.readJson := by
  refine PermissionSet.follows.table (fun h h' => ?_) fun h => ?_
  · rw [Scope.readKey_eq_ok.1 h, Scope.readKey_eq_ok.1 h']
  · obtain ⟨s, ps, hs, hps⟩ := h
    exact ⟨s, ps, hs, hps⟩

def Role.columns : List (Column nullable Role) :=
  [.required "name" .plain Role.name Follows.text fun _ _ => nofun,
   .optional "description" .plain none Role.description Follows.text.optional fun _ => rfl,
   .optional "system" .plain false Role.system Follows.bool fun h => absurd h (by decide),
   .optional "scopes_permissions" Grants.layout Table.empty Role.grants (Grants.follows.default _) fun _ => rfl]

theorem Role.readsBy : ReadsBy Role.columns Role.readJson := by
  show ReadsBy Role.columns (readRecord (fieldsOf Role.columns) _)
  refine readsBy_readRecord (by decide) fun {given r} => ?_
  simp only [Role.columns, List.forall_mem_cons, bind_eq_ok]
  constructor
  · rintro ⟨name, hname, description, hdescription, system, hsystem, grants, hgrants, heq⟩
    cases heq
    exact ⟨hname, hdescription, hsystem, hgrants, List.forall_mem_nil _⟩
  · rintro ⟨hname, hdescription, hsystem, hgrants, -⟩
    exact ⟨_, hname, _, hdescription, _, hsystem, _, hgrants, rfl⟩

theorem Role.follows : Follows Role.layout Role.readJson := follows_record (by decide) Role.readsBy

/-! ### Accounts and documents -/

def Account.columns : List (Column nullable Account) :=
  [.required "username" .plain Account.username Follows.text fun _ _ => nofun,
   .optional "roles" .plain [] Account.roles (Follows.text.list.default _) fun _ => rfl,
   .required "password" .plain Account.passwordHash Follows.text fun _ _ => nofun,
   .optional "name" .plain none Account.name Follows.text.optional fun _ => rfl,
   .optional "email" .plain none Account.email Follows.text.optional fun _ => rfl,
   .optional "lastUpdate" .plain 0 Account.lastUpdate Follows.int fun h => absurd h (by decide),
   .optional "enabled" .plain false Account.enabled Follows.bool fun h => absurd h (by decide),
   .optional "pwdExpirationDate" .plain none Account.pwdExpirationDate Follows.int.optional fun _ => rfl,
   .optional "pwdUpdateRequired" .plain false Account.pwdUpdateRequired Follows.bool fun h => absurd h (by decide)]

theorem Account.readsBy : ReadsBy Account.columns Account.readJson := by
  show ReadsBy Account.columns (readRecord (fieldsOf Account.columns) _)
  refine readsBy_readRecord (by decide) fun {given a} => ?_
  simp only [Account.columns, List.forall_mem_cons, bind_eq_ok]
  constructor
  · rintro ⟨username, husername, roles, hroles, password, hpassword, name, hname, email, hemail, update, hupdate, enabled,
      henabled, expiration, hexpiration, required, hrequired, heq⟩
    cases heq
    exact ⟨husername, hroles, hpassword, hname, hemail, hupdate, henabled, hexpiration, hrequired, List.forall_mem_nil _⟩
  · rintro ⟨husername, hroles, hpassword, hname, hemail, hupdate, henabled, hexpiration, hrequired, -⟩
    exact ⟨_, husername, _, hroles, _, hpassword, _, hname, _, hemail, _, hupdate, _, henabled, _, hexpiration, _, hrequired,
      rfl⟩

theorem Account.follows : Follows Account.layout Account.readJson := follows_record (by decide) Account.readsBy

theorem readTable_follows {α : Type} {f : Json → Read α} {entry : Shape} (h : Follows entry f) :
    Follows (.map (fun _ v => ∃ a, f v = .ok a) entry) (readTable .ok f) := by
  refine h.table (fun hk hk' => ?_) fun {name v} hv => ?_
  · rw [Except.ok.inj hk, Except.ok.inj hk']
  · obtain ⟨a, ha⟩ := hv
    exact ⟨name, a, rfl, ha⟩

def Document.columns : List (Column nullable Document) :=
  [.optional "users" _ Table.empty Document.users ((readTable_follows Account.follows).default _) fun _ => rfl,
   .optional "roles" _ Table.empty Document.roles ((readTable_follows Role.follows).default _) fun _ => rfl,
   .optional "version" .plain 0 Document.version Follows.int fun h => absurd h (by decide)]

theorem Document.readsBy : ReadsBy Document.columns Document.readJson := by
  show ReadsBy Document.columns (readRecord (fieldsOf Document.columns) _)
  refine readsBy_readRecord (by decide) fun {given d} => ?_
  simp only [Document.columns, List.forall_mem_cons, bind_eq_ok]
  constructor
  · rintro ⟨users, husers, roles, hroles, version, hversion, heq⟩
    cases heq
    exact ⟨husers, hroles, hversion, List.forall_mem_nil _⟩
  · rintro ⟨husers, hroles, hversion, -⟩
    exact ⟨_, husers, _, hroles, _, hversion, rfl⟩

theorem Document.follows : Follows Document.layout Document.readJson := follows_record (by decide) Document.readsBy

/-! ### Texts -/

/-- The kinds of records that are read from texts. -/
inductive Stored
  | document
  | account
  | role

namespace Stored

def Value : Stored → Type
  | document => Document
  | account => Account
  | role => Role

def layout : Stored → Shape
  | document => Document.layout
  | account => Account.layout
  | role => Role.layout

def read : (kind : Stored) → Json → Read kind.Value
  | document => Document.readJson
  | account => Account.readJson
  | role => Role.readJson

theorem follows (kind : Stored) : Follows kind.layout kind.read := by
  cases kind with
  | document => exact Document.follows
  | account => exact Account.follows
  | role => exact Role.follows

end Stored

namespace Document

variable {v w : Json} {b b' : ByteArray}

theorem ofBytes_eq_ok {d : Document} : ofBytes b = .ok d ↔ readWholeText readJson (Glyph.ofBytes b) = .ok d := by
  rw [ofBytes]
  split
  · rename_i heq
    rw [heq, Except.ok.injEq, Except.ok.injEq]
  · rename_i heq
    rw [heq]
    exact ⟨nofun, nofun⟩

theorem ofBytes_eq_error (h : ∀ d, readWholeText readJson (Glyph.ofBytes b) ≠ .ok d) :
    ofBytes b = .error .unreadableDocument := by
  rw [ofBytes]
  split
  · rename_i d heq
    exact absurd heq (h d)
  · rfl

theorem ofBytes_eq_of_alike
    (h : Alike (readWholeText readJson (Glyph.ofBytes b)) (readWholeText readJson (Glyph.ofBytes b'))) :
    ofBytes b = ofBytes b' := by
  cases hread : readWholeText readJson (Glyph.ofBytes b) with
  | ok d => rw [ofBytes_eq_ok.2 hread, ofBytes_eq_ok.2 ((h d).1 hread)]
  | error e =>
      have hnone : ∀ d, readWholeText readJson (Glyph.ofBytes b) ≠ .ok d :=
        fun d hd => nomatch hread.symm.trans hd
      rw [ofBytes_eq_error hnone, ofBytes_eq_error fun d hd => hnone d ((h d).2 hd)]

end Document

/-- What is read of a stored record does not depend on its layout. Texts of the same tokens are read the same, texts of
values that are laid out differently are read alike, and a text of a record that gives one of its fields twice is not
read. Only texts of values are read at all. So it is for the bytes of a document. -/
theorem layout_is_not_read :
    (∀ (kind : Stored) v tokens s s', Written v tokens → TextOf tokens s → TextOf tokens s' →
        readWholeText kind.read s = readWholeText kind.read s') ∧
      (∀ (kind : Stored) v w s s', Relation.EqvGen (Relaid kind.layout) v w → Spelt v s → Spelt w s' →
        Alike (readWholeText kind.read s) (readWholeText kind.read s')) ∧
      (∀ (kind : Stored) v s a, Repeats kind.layout v → Spelt v s → readWholeText kind.read s ≠ .ok a) ∧
      (∀ (kind : Stored) s a, readWholeText kind.read s = .ok a → ∃ v, Spelt v s) ∧
      (∀ v w b b', Relation.EqvGen (Relaid Document.layout) v w → Spelt v (Glyph.ofBytes b) → Spelt w (Glyph.ofBytes b') →
        Document.ofBytes b = Document.ofBytes b') ∧
      ∀ v b, Repeats Document.layout v → Spelt v (Glyph.ofBytes b) →
        Document.ofBytes b = .error .unreadableDocument := by
  have halike : ∀ (kind : Stored) v w s s', Relation.EqvGen (Relaid kind.layout) v w → Spelt v s → Spelt w s' →
      Alike (readWholeText kind.read s) (readWholeText kind.read s') := by
    intro kind v w s s' h hs hs'
    rw [hs.readWholeText, hs'.readWholeText]
    exact kind.follows.eqvGen h
  have hrejects : ∀ (kind : Stored) v s a, Repeats kind.layout v → Spelt v s → readWholeText kind.read s ≠ .ok a := by
    intro kind v s a h hs
    rw [hs.readWholeText]
    exact kind.follows.rejects h
  refine ⟨fun kind v tokens s s' hv hs hs' => ?_, halike, hrejects, fun kind s a h => ?_, fun v w b b' h hs hs' => ?_,
    fun v b h hs => ?_⟩
  · have hspelt : Spelt v s := ⟨tokens, hv, hs⟩
    have hspelt' : Spelt v s' := ⟨tokens, hv, hs'⟩
    rw [hspelt.readWholeText, hspelt'.readWholeText]
  · obtain ⟨v, hs, -⟩ := readWholeText_eq_ok.1 h
    exact ⟨v, hs⟩
  · exact Document.ofBytes_eq_of_alike (halike .document v w _ _ h hs hs')
  · exact Document.ofBytes_eq_error fun d => hrejects .document v _ d h hs

/-! ### A document in two layouts -/

def annJson : Json := record [("username", text "ann"), ("password", text "h")]

def bobJson : Json := record [("password", text "x"), ("username", text "bob")]

def usersMember (entries : List Json) : Option String × Json :=
  (some "users", object (entries.map fun v => (some "ann", v)))

def versionMember : Option String × Json := (some "version", .number ⟨false, 2, none, none⟩)

def remarkMember : Option String × Json := (some "remark", array [object []])

def annDocument : Json := object [usersMember [annJson], versionMember]

/-- The same in another order, with a remark, a `null` and an entry that a later one replaces. -/
def annRelaid : Json := object [versionMember, remarkMember, (some "roles", null), usersMember [bobJson, annJson]]

def annTwice : Json := object [versionMember, usersMember [annJson], versionMember]

theorem relaid_ann : Relation.EqvGen (Relaid Document.layout) annDocument annRelaid := by
  have hreordered : Relaid Document.layout annDocument (object [versionMember, usersMember [annJson]]) :=
    .permuted (List.Perm.swap _ _ _) (by decide)
  have hremarked : Relaid Document.layout (object [versionMember, usersMember [annJson]])
      (object [versionMember, remarkMember, usersMember [annJson]]) :=
    @Relaid.extended _ _ [versionMember] [usersMember [annJson]] _ _ (by decide) ⟨_, .array (.last (.object .none))⟩
  have hnulled : Relaid Document.layout (object [versionMember, remarkMember, usersMember [annJson]])
      (object [versionMember, remarkMember, (some "roles", null), usersMember [annJson]]) :=
    @Relaid.nulled _ _ [versionMember, remarkMember] [usersMember [annJson]] _ (by decide) (by decide)
  have hentry : Relaid (Document.layout.member (some "users")) (usersMember [bobJson, annJson]).2
      (usersMember [annJson]).2 :=
    @Relaid.superseded _ _ [] _ _ _ ⟨_, rfl⟩ List.mem_cons_self
  have hreplaced : Relaid Document.layout annRelaid
      (object [versionMember, remarkMember, (some "roles", null), usersMember [annJson]]) :=
    @Relaid.member _ [versionMember, remarkMember, (some "roles", null)] [] _ _ _ hentry
  exact (Relation.EqvGen.rel _ _ hreordered).trans _ _ _ <| (Relation.EqvGen.rel _ _ hremarked).trans _ _ _ <|
    (Relation.EqvGen.rel _ _ hnulled).trans _ _ _ (.symm _ _ (.rel _ _ hreplaced))

theorem writable_ann : annDocument.Writable ∧ annRelaid.Writable ∧ annTwice.Writable := by
  simp [annDocument, annRelaid, annTwice, usersMember, versionMember, remarkMember, annJson, bobJson, record, text, Writable,
    WritableItems, WritableMembers, Numeral.Writable, Except.isOk, Except.toBool]

/-- The document is read from both layouts, as the one account that stands last, and not with two versions. -/
theorem layout_is_not_read_ann :
    (∃ d, Document.ofBytes annDocument.render.toUTF8 = .ok d ∧ Document.ofBytes annRelaid.render.toUTF8 = .ok d ∧
        d.users.entries.map (fun e => (e.1, e.2.username)) = [("ann", "ann")]) ∧
      Document.ofBytes annTwice.render.toUTF8 = .error .unreadableDocument := by
  obtain ⟨-, -, -, -, hbytes, hrepeated⟩ := layout_is_not_read
  obtain ⟨hann, hrelaid, htwice⟩ := writable_ann
  have hsame := hbytes annDocument annRelaid _ _ relaid_ann (spelt_render hann) (spelt_render hrelaid)
  have hread : ∃ d, Document.readJson annDocument = .ok d ∧
      d.users.entries.map (fun e => (e.1, e.2.username)) = [("ann", "ann")] := ⟨_, rfl, rfl⟩
  obtain ⟨d, hd, husers⟩ := hread
  have hok : Document.ofBytes annDocument.render.toUTF8 = .ok d :=
    Document.ofBytes_eq_ok.2 ((readWholeText_render Document.readJson hann).trans hd)
  refine ⟨⟨d, hok, hsame ▸ hok, husers⟩, hrepeated annTwice _ ?_ (spelt_render htwice)⟩
  exact .here (List.mem_cons_of_mem _ (List.mem_cons_of_mem _ List.mem_cons_self))
    (List.duplicate_iff_two_le_count.2 (by decide))

end AccessControl
