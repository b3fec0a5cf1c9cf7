import AccessControl.Proofs.Json.Records
import AccessControl.Repository

/-!
The stored form of a document holds all of it: whatever the order in which accounts and roles were written,
the bytes are read back to the same document (`Document.ofBytes_of_written`), and a repository opened on what
another one exports shows the same accounts and roles.
-/

namespace AccessControl

open Json

/-! ### Grants and roles -/

theorem PermissionSet.readJson_toJson (ps : PermissionSet) : PermissionSet.readJson ps.toJson = .ok ps := by
  have hread : ∀ p : Permission, Permission.readJson (text p.name) = .ok p :=
    fun p => readName_text (Permission.ofName?_name p)
  have hlist : readList Permission.readJson (array (ps.toList.map fun p => text p.name)) = .ok ps.toList :=
    readList_array hread ps.toList
  rw [readJson, toJson, texts, List.map_map]
  show (readList Permission.readJson (array (ps.toList.map fun p => text p.name))).map _ = _
  rw [hlist]
  show Except.ok (ofList ps.toList) = _
  rw [ofList_toList]

theorem Grants.readJson_toJson (g : Grants) : Grants.readJson (Grants.toJson g) = .ok g := by
  have hkey : ∀ s : Scope, Scope.readKey s.name = .ok s := by
    intro s
    rw [Scope.readKey, Scope.ofName?_name]
  rw [readJson, toJson, readTable_record hkey PermissionSet.readJson_toJson, Table.ofList_entries]

def Role.members (r : Role) : List (String × Json) :=
  [("name", text r.name), ("description", optional text r.description), ("system", bool r.system),
    ("scopes_permissions", Grants.toJson r.grants)]

theorem readOptional_text (o : Option String) : readOptional readText (optional text o) = .ok o :=
  readOptional_optional (f := readText) (g := text) (fun _ => rfl) (fun _ h => by cases h) o

theorem Role.readJson_toJson (r : Role) : Role.readJson r.toJson = .ok r := by
  have hdescription := readOptional_text r.description
  have hgrants : readOr Table.empty Grants.readJson (Grants.toJson r.grants) = .ok r.grants :=
    readOr_of_ne_null (fun h => by cases h) (Grants.readJson_toJson r.grants)
  have hgives : Gives Role.fields r.members :=
    .cons ⟨rfl, fits_field (a := r.name) rfl⟩ <| .cons ⟨rfl, fits_field hdescription⟩ <|
      .cons ⟨rfl, fits_field (a := r.system) rfl⟩ <| .cons ⟨rfl, fits_field hgrants⟩ .nil
  show readRecord Role.fields _ (record r.members) = _
  rw [readRecord_record _ hgives (by decide)]
  simp only [Role.members, List.lookup_cons, String.reduceBEq, required, withDefault, hdescription, hgrants]
  rfl

/-! ### Accounts -/

def Account.members (a : Account) : List (String × Json) :=
  [("username", text a.username), ("roles", texts a.roles), ("password", text a.passwordHash),
    ("name", optional text a.name), ("email", optional text a.email), ("lastUpdate", int a.lastUpdate),
    ("enabled", bool a.enabled), ("pwdExpirationDate", optional int a.pwdExpirationDate),
    ("pwdUpdateRequired", bool a.pwdUpdateRequired)]

theorem Account.readJson_toJson (a : Account) : Account.readJson a.toJson = .ok a := by
  have hroles : readOr [] (readList readText) (texts a.roles) = .ok a.roles :=
    readOr_of_ne_null (fun h => by cases h) (readList_texts a.roles)
  have hname := readOptional_text a.name
  have hemail := readOptional_text a.email
  have hupdate := readInt_int a.lastUpdate
  have hexpiration : readOptional readInt (optional int a.pwdExpirationDate) = .ok a.pwdExpirationDate :=
    readOptional_optional readInt_int (fun _ h => by cases h) a.pwdExpirationDate
  have hgives : Gives Account.fields a.members :=
    .cons ⟨rfl, fits_field (a := a.username) rfl⟩ <| .cons ⟨rfl, fits_field hroles⟩ <|
      .cons ⟨rfl, fits_field (a := a.passwordHash) rfl⟩ <| .cons ⟨rfl, fits_field hname⟩ <|
      .cons ⟨rfl, fits_field hemail⟩ <| .cons ⟨rfl, fits_field hupdate⟩ <|
      .cons ⟨rfl, fits_field (a := a.enabled) rfl⟩ <| .cons ⟨rfl, fits_field hexpiration⟩ <|
      .cons ⟨rfl, fits_field (a := a.pwdUpdateRequired) rfl⟩ .nil
  show readRecord Account.fields _ (record a.members) = _
  rw [readRecord_record _ hgives (by decide)]
  simp only [Account.members, List.lookup_cons, String.reduceBEq, required, withDefault, hroles, hname, hemail, hupdate,
    hexpiration]
  rfl

/-! ### Documents -/

theorem Grants.writable_toJson (g : Grants) : (Grants.toJson g).Writable := by
  refine writable_record fun m hm => ?_
  obtain ⟨e, -, rfl⟩ := List.mem_map.1 hm
  exact writable_texts _

theorem Role.writable_toJson (r : Role) : r.toJson.Writable := by
  refine writable_record fun m hm => ?_
  simp only [List.mem_cons, List.not_mem_nil, or_false] at hm
  rcases hm with rfl | rfl | rfl | rfl
  · exact writable_text _
  · exact writable_optional writable_text _
  · exact writable_bool _
  · exact Grants.writable_toJson _

theorem Account.writable_toJson (a : Account) : a.toJson.Writable := by
  refine writable_record fun m hm => ?_
  simp only [List.mem_cons, List.not_mem_nil, or_false] at hm
  rcases hm with rfl | rfl | rfl | rfl | rfl | rfl | rfl | rfl | rfl
  · exact writable_text _
  · exact writable_texts _
  · exact writable_text _
  · exact writable_optional writable_text _
  · exact writable_optional writable_text _
  · exact writable_int _
  · exact writable_bool _
  · exact writable_optional writable_int _
  · exact writable_bool _

theorem Json.writable_ofEntries {α : Type} {f : α → Json} (h : ∀ a, (f a).Writable) (entries : List (String × α)) :
    (ofEntries f entries).Writable := by
  refine writable_record fun m hm => ?_
  obtain ⟨e, -, rfl⟩ := List.mem_map.1 hm
  exact h e.2

namespace Document

theorem writable_jsonOf (users : List (String × Account)) (roles : List (String × Role)) (version : Int64) :
    (jsonOf users roles version).Writable := by
  refine writable_record fun m hm => ?_
  simp only [List.mem_cons, List.not_mem_nil, or_false] at hm
  rcases hm with rfl | rfl | rfl
  · exact writable_ofEntries Account.writable_toJson users
  · exact writable_ofEntries Role.writable_toJson roles
  · exact writable_int version

theorem readJson_jsonOf (users : List (String × Account)) (roles : List (String × Role)) (version : Int64) :
    readJson (jsonOf users roles version) = .ok ⟨.ofList users, .ofList roles, version⟩ := by
  have husers : readUsers (ofEntries Account.toJson users) = .ok (.ofList users) :=
    readOr_of_ne_null (fun h => by cases h) (readTable_record (fun _ => rfl) Account.readJson_toJson users)
  have hroles : readRoles (ofEntries Role.toJson roles) = .ok (.ofList roles) :=
    readOr_of_ne_null (fun h => by cases h) (readTable_record (fun _ => rfl) Role.readJson_toJson roles)
  have hversion := readInt_int version
  have hgives : Gives fields [("users", ofEntries Account.toJson users), ("roles", ofEntries Role.toJson roles),
      ("version", int version)] :=
    .cons ⟨rfl, fits_field husers⟩ <| .cons ⟨rfl, fits_field hroles⟩ <| .cons ⟨rfl, fits_field hversion⟩ .nil
  rw [readJson, jsonOf, readRecord_record _ hgives (by decide)]
  simp only [List.lookup_cons, String.reduceBEq, withDefault, husers, hroles, hversion]
  rfl

/-- Whatever entries are written in whatever order, the bytes are read as the tables of these entries. -/
theorem ofBytes_jsonOf (users : List (String × Account)) (roles : List (String × Role)) (version : Int64) :
    ofBytes (jsonOf users roles version).render.toUTF8 = .ok ⟨.ofList users, .ofList roles, version⟩ := by
  rw [ofBytes, readWholeText_render readJson (writable_jsonOf users roles version), readJson_jsonOf]

/-- Bytes in which a document can be written: every field in its place, the entries of both maps in any order. -/
def Written (d : Document) (bytes : ByteArray) : Prop :=
  ∃ users roles, users.Perm d.users.entries ∧ roles.Perm d.roles.entries ∧
    bytes = (jsonOf users roles d.version).render.toUTF8

theorem written_toBytes (d : Document) : d.Written d.toBytes :=
  ⟨d.users.entries, d.roles.entries, List.Perm.refl _, List.Perm.refl _, rfl⟩

theorem ofBytes_of_written {d : Document} {bytes : ByteArray} (h : d.Written bytes) : ofBytes bytes = .ok d := by
  obtain ⟨users, roles, husers, hroles, rfl⟩ := h
  rw [ofBytes_jsonOf, Table.ofList_perm husers, Table.ofList_perm hroles]

theorem ofBytes_toBytes (d : Document) : ofBytes d.toBytes = .ok d := ofBytes_of_written d.written_toBytes

end Document

/-! ### Stores and repositories -/

/-- A store that took a directory describes this directory. -/
theorem Store.directoryOf_stored (d : Directory) :
    Store.directoryOf (some (Document.ofDirectory d).toBytes) = .ok d := by
  rw [directoryOf, Document.ofBytes_toBytes]
  rfl

theorem Store.load_eq_ok {s : Store} {d : Directory} :
    s.load = .ok d ↔ s.getFault = none ∧ Store.directoryOf s.content = .ok d := by
  rw [load, get]
  cases s.getFault with
  | some e => exact ⟨(nomatch ·), fun h => nomatch h.1⟩
  | none => exact ⟨fun h => ⟨rfl, h⟩, And.right⟩

theorem Repository.load_of_written {r : Repository} {s : Store} {bytes : ByteArray} (h : r.exported.Written bytes)
    (hcontent : s.content = some bytes) (hget : s.getFault = none) : Repository.load s = .ok ⟨s, r.cache⟩ := by
  have hdirectory : Store.directoryOf s.content = .ok r.cache := by
    rw [hcontent, Store.directoryOf, Document.ofBytes_of_written h]
    rfl
  have hload : s.load = .ok r.cache := Store.load_eq_ok.2 ⟨hget, hdirectory⟩
  rw [Repository.load, hload]
  rfl

namespace Document

/-- Every document can be written, and is read back unchanged from all bytes it can be written in. So a
repository that is opened on the exported document of another has its accounts and roles. -/
theorem written_reads_back (d : Document) :
    d.Written d.toBytes ∧
      ∀ bytes, d.Written bytes →
        ofBytes bytes = .ok d ∧
        ∀ (r : Repository) (s : Store), r.exported = d → s.content = some bytes → s.getFault = none →
          ∃ r', Repository.load s = .ok r' ∧ r'.cache.users = r.cache.users ∧ r'.cache.roles = r.cache.roles := by
  refine ⟨d.written_toBytes, fun bytes hwritten => ⟨ofBytes_of_written hwritten, ?_⟩⟩
  rintro r s rfl hcontent hget
  exact ⟨⟨s, r.cache⟩, Repository.load_of_written hwritten hcontent hget, rfl, rfl⟩

/-- Names with quotes, backslashes and control characters, entries under names that are not their own, the least
integer, and a scope without permissions. -/
def contorted : Directory where
  users := .ofList
    [("\"\\\n", ⟨"ann", ["\x01"], "", some "", none, Int64.minValue, true, some 0, false⟩),
     ("\u2028", ⟨"\"\\\n", [], "h", none, some "\t", Int64.maxValue, false, none, true⟩)]
  roles := .ofList
    [("r", ⟨"", some "\x1f", true, .ofList [(.pool, .none), (.hosts, .ofList [.read])]⟩),
     ("", ⟨"r", none, false, .empty⟩)]

/-- The bytes of `contorted` with the entries of both maps from the last to the first. -/
def contortedBytes : ByteArray :=
  (jsonOf contorted.users.entries.reverse contorted.roles.entries.reverse currentVersion).render.toUTF8

theorem contorted_reads_back :
    contorted.users.entries.reverse ≠ contorted.users.entries ∧ (ofDirectory contorted).Written contortedBytes ∧
      ofBytes contortedBytes = .ok (ofDirectory contorted) ∧
      ∃ r, Repository.load { Store.empty with content := some contortedBytes } = .ok r ∧
        r.cache.users = contorted.users ∧ r.cache.roles = contorted.roles := by
  have hwritten : (ofDirectory contorted).Written contortedBytes :=
    ⟨_, _, List.reverse_perm _, List.reverse_perm _, rfl⟩
  obtain ⟨hread, hload⟩ := (written_reads_back (ofDirectory contorted)).2 contortedBytes hwritten
  exact ⟨by decide, hwritten, hread, hload ⟨.empty, contorted⟩ _ rfl rfl rfl⟩

end Document

end AccessControl
