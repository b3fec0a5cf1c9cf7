import AccessControl.Http.Payload
import AccessControl.Proofs.Document.RoundTrip
import AccessControl.Proofs.Grants

/-!
What is shown of accounts and roles can be read as what callers ask for. An account is shown with fields that nobody
can ask for, and without the password that could be asked for: the former are passed over, the latter is not asked for
(`AccountInput.readReplacement_shown`). Of a role everything is shown, and everything is asked for
(`RoleInput.readJson_shown`).
-/

namespace AccessControl

open Json

/-! ### Roles -/

theorem Grants.readGrants_shown (g : Grants) : RoleInput.readGrants (Grants.shown g) = .ok (Grants.transport g) := by
  have hkey : ∀ scope : String, (Except.ok (id scope) : Read String) = .ok scope := fun _ => rfl
  have hread := readTable_record hkey readList_texts (Grants.transport g).entries
  rw [Table.ofList_entries] at hread
  exact hread

theorem Grants.writable_shown (g : Grants) : (Grants.shown g).Writable := writable_ofEntries writable_texts _

theorem Role.writable_shown (r : Role) : r.shown.Writable := by
  refine writable_record fun m hm => ?_
  simp only [List.mem_cons, List.not_mem_nil, or_false] at hm
  rcases hm with rfl | rfl | rfl | rfl
  · exact writable_text _
  · exact writable_optional writable_text _
  · exact writable_bool _
  · exact Grants.writable_shown _

/-- What asks for a role as it is. -/
def RoleInput.ofRole (r : Role) : RoleInput := ⟨r.name, r.description, r.system, Grants.transport r.grants⟩

theorem RoleInput.readJson_shown (r : Role) : RoleInput.readJson r.shown = .ok (ofRole r) := by
  have hdescription := readOptional_text r.description
  have hgrants := Grants.readGrants_shown r.grants
  have hgives : Gives RoleInput.fields [("name", text r.name), ("description", optional text r.description),
      ("system", bool r.system), ("scopes_permissions", Grants.shown r.grants)] :=
    .cons ⟨rfl, fits_field (a := r.name) rfl⟩ <| .cons ⟨rfl, fits_field hdescription⟩ <|
      .cons ⟨rfl, fits_field (a := r.system) rfl⟩ <| .cons ⟨rfl, fits_field hgrants⟩ .nil
  rw [readJson, Role.shown, readRecord_record _ hgives (by decide)]
  simp only [List.lookup_cons, String.reduceBEq, withDefault, hdescription, hgrants]
  rfl

/-! ### Accounts -/

theorem Account.writable_shown (a : Account) : a.shown.Writable := by
  refine writable_record fun m hm => ?_
  simp only [List.mem_cons, List.not_mem_nil, or_false] at hm
  rcases hm with rfl | rfl | rfl | rfl | rfl | rfl | rfl | rfl
  · exact writable_text _
  · exact writable_texts _
  · exact writable_optional writable_text _
  · exact writable_optional writable_text _
  · exact writable_int _
  · exact writable_bool _
  · exact writable_optional writable_int _
  · exact writable_bool _

/-- What asks for an account as it is, under a name, and for no new password. -/
def AccountInput.ofAccount (username : String) (a : Account) : AccountInput where
  username
  password := none
  name := a.name
  email := a.email
  enabled := a.enabled
  roles := a.roles
  pwdExpirationDate := a.pwdExpirationDate
  pwdUpdateRequired := a.pwdUpdateRequired

/-- What is both shown and asked for of an account. -/
def Account.details (a : Account) : List (String × Json) :=
  [("roles", texts a.roles), ("name", optional text a.name), ("email", optional text a.email),
    ("enabled", bool a.enabled), ("pwd_expiration_date", optional int a.pwdExpirationDate),
    ("pwd_update_required", bool a.pwdUpdateRequired)]

theorem AccountInput.readReplacement_shown (username : String) (a : Account) :
    readReplacement username a.shown = .ok (ofAccount username a) := by
  have hname := readOptional_text a.name
  have hemail := readOptional_text a.email
  have hroles := readList_texts a.roles
  have hexpiration : readOptional readInt (optional int a.pwdExpirationDate) = .ok a.pwdExpirationDate :=
    readOptional_optional readInt_int (fun _ h => by cases h) a.pwdExpirationDate
  have hsuits : ∀ m ∈ [("username", text a.username), ("roles", texts a.roles), ("name", optional text a.name),
      ("email", optional text a.email), ("last_update", int a.lastUpdate), ("enabled", bool a.enabled),
      ("pwd_expiration_date", optional int a.pwdExpirationDate), ("pwd_update_required", bool a.pwdUpdateRequired)],
      Suits (field "password" (readOptional readText) true :: detailFields) m := by
    simp only [List.forall_mem_cons]
    refine ⟨.passed rfl rfl, .taken _ rfl (fits_field hroles), .taken _ rfl (fits_field hname),
      .taken _ rfl (fits_field hemail), .passed rfl rfl, .taken _ rfl (fits_field (a := a.enabled) rfl),
      .taken _ rfl (fits_field hexpiration), .taken _ rfl (fits_field (a := a.pwdUpdateRequired) rfl), ?_⟩
    exact fun _ h => absurd h List.not_mem_nil
  rw [readReplacement, Account.shown, readRecord_members _ hsuits (by simp)]
  show (do
    let password ← withDefault none (readOptional readText) (a.details.lookup "password")
    readDetails username password fun name => a.details.lookup name) = _
  simp only [readDetails, Account.details, List.lookup_cons, List.lookup_nil, String.reduceBEq, withDefault, hname,
    hemail, hroles, hexpiration]
  rfl

end AccessControl
