import AccessControl.Password.Argon2id
import AccessControl.Proofs.Gate.Identity

/-!
Why credentials are refused. An unknown account, a disabled account and a wrong password are refused with one and
the same error (`badCredentials`). A hasher that cannot check the stored hash answers with an error of its own, which
is passed on; so failures are alike exactly where the hasher can check the hash (`failures_alike_iff_checkable`).
-/

namespace AccessControl

namespace Directory

/-- The ways in which a username and a password can fail with one error. -/
inductive Rejected (d : Directory) (h : Hasher) (username password : String) : Prop
  | unknown (absent : d.users.get? username = none)
  | disabled (a : Account) (held : d.users.get? username = some a) (off : a.enabled = false)
  | wrong (a : Account) (held : d.users.get? username = some a) (on : a.enabled = true)
      (differs : h.verify password a.passwordHash = .ok false)

/-- The hasher fails with `e` when it is asked to check a password against the hash of the enabled account under a
username. -/
def Uncheckable (d : Directory) (h : Hasher) (username password : String) (e : AccessError) : Prop :=
  ∃ a, d.users.get? username = some a ∧ a.enabled = true ∧ h.verify password a.passwordHash = .error e

variable {d : Directory} {h : Hasher} {username password : String}

theorem verifyCredentials_of_rejected (hrejected : d.Rejected h username password) :
    d.verifyCredentials h username password = .error .badCredentials := by
  cases hrejected with
  | unknown absent =>
      rw [verifyCredentials, absent]
      rfl
  | disabled a held off =>
      rw [verifyCredentials, held]
      show (demand a.enabled .badCredentials >>= _) = _
      rw [off]
      rfl
  | wrong a held on differs =>
      rw [verifyCredentials, held]
      show (demand a.enabled .badCredentials >>= fun _ => h.verify password a.passwordHash >>= _) = _
      rw [on, differs]
      rfl

theorem verifyCredentials_of_uncheckable {e : AccessError} (huncheckable : d.Uncheckable h username password e) :
    d.verifyCredentials h username password = .error e := by
  obtain ⟨a, held, on, hverify⟩ := huncheckable
  rw [verifyCredentials, held]
  show (demand a.enabled .badCredentials >>= fun _ => h.verify password a.passwordHash >>= _) = _
  rw [on, hverify]
  rfl

/-- What checking credentials comes to: success, the common refusal, or the hasher's own error. -/
theorem verifyCredentials_cases (d : Directory) (h : Hasher) (username password : String) :
    (∃ a, d.verifyCredentials h username password = .ok a) ∨ d.Rejected h username password ∨
      ∃ e, d.Uncheckable h username password e := by
  cases hget : d.users.get? username with
  | none => exact Or.inr (Or.inl (.unknown hget))
  | some a =>
      cases henabled : a.enabled with
      | false => exact Or.inr (Or.inl (.disabled a hget henabled))
      | true =>
          cases hverify : h.verify password a.passwordHash with
          | error e => exact Or.inr (Or.inr ⟨e, a, hget, henabled, hverify⟩)
          | ok verified =>
              cases verified with
              | false => exact Or.inr (Or.inl (.wrong a hget henabled hverify))
              | true => exact Or.inl ⟨a, verifyCredentials_eq_ok.2 ⟨hget, henabled, hverify⟩⟩

theorem verifyCredentials_eq_error {e : AccessError} :
    d.verifyCredentials h username password = .error e ↔
      d.Rejected h username password ∧ e = .badCredentials ∨ d.Uncheckable h username password e := by
  constructor
  · intro hrefused
    rcases verifyCredentials_cases d h username password with ⟨a, hok⟩ | hrejected | ⟨e', huncheckable⟩
    · rw [hok] at hrefused
      cases hrefused
    · rw [verifyCredentials_of_rejected hrejected] at hrefused
      cases hrefused
      exact Or.inl ⟨hrejected, rfl⟩
    · rw [verifyCredentials_of_uncheckable huncheckable] at hrefused
      cases hrefused
      exact Or.inr huncheckable
  · rintro (⟨hrejected, rfl⟩ | huncheckable)
    · exact verifyCredentials_of_rejected hrejected
    · exact verifyCredentials_of_uncheckable huncheckable

end Directory

namespace Session

theorem login_of_refused {σ : Type} {service : TokenService σ} {h : Hasher} {d : Directory} {username password : String}
    {s : σ} {e : AccessError} (hrefused : d.verifyCredentials h username password = .error e) :
    login service h d username password s = (.error e, s) := by
  rw [login, hrefused]

/-- Failures of credentials are the common refusal or an error of the hasher, and a login passes either on as it is.
So they look the same exactly if the hasher has no error of another kind in checking the stored hash. -/
theorem failures_alike_iff_checkable (d : Directory) (h : Hasher) (username password : String) :
    (∀ e, d.verifyCredentials h username password = .error e ↔
      d.Rejected h username password ∧ e = .badCredentials ∨ d.Uncheckable h username password e) ∧
    ((∀ e, d.verifyCredentials h username password = .error e → e = .badCredentials) ↔
      ∀ e, d.Uncheckable h username password e → e = .badCredentials) ∧
    AccessError.badCredentials.kind = .unauthenticated ∧
    ∀ {σ : Type} (service : TokenService σ) (s : σ) e, d.verifyCredentials h username password = .error e →
      login service h d username password s = (.error e, s) := by
  refine ⟨fun e => Directory.verifyCredentials_eq_error, ⟨fun halike e huncheckable => ?_, ?_⟩, rfl,
    fun service s e => login_of_refused⟩
  · exact halike e (Directory.verifyCredentials_of_uncheckable huncheckable)
  · intro hcheckable e hrefused
    rcases Directory.verifyCredentials_eq_error.1 hrefused with ⟨-, rfl⟩ | huncheckable
    · rfl
    · exact hcheckable e huncheckable

/-- An account whose stored hash names a salt that is too short to be checked. -/
def unsalted : Account :=
  ⟨"eve", [], "$argon2id$v=19$m=8,t=1,p=1$c2FsdA$AAAAAAAAAAAAAAAAAAAAAA", none, none, 0, true, none, false⟩

/-- The directory that holds this account alone. -/
def unsaltedOnly : Directory := ⟨.ofList [("eve", unsalted)], .empty⟩

/-- A login for this account fails with another error than one for an account that is not there. -/
theorem unsalted_login_tells :
    let h := PasswordHash.hasher ⟨8, 1, 1⟩ []
    unsaltedOnly.verifyCredentials h "eve" "pw" = .error .uncheckablePassword ∧
      AccessError.uncheckablePassword.kind = .internal ∧
      unsaltedOnly.verifyCredentials h "adam" "pw" = .error .badCredentials ∧
      (login Gate.onceOnly h unsaltedOnly "eve" "pw" ([], .fresh)).1 ≠
        (login Gate.onceOnly h unsaltedOnly "adam" "pw" ([], .fresh)).1 := by
  intro h
  have heve : unsaltedOnly.verifyCredentials h "eve" "pw" = .error .uncheckablePassword := by rfl
  have hadam : unsaltedOnly.verifyCredentials h "adam" "pw" = .error .badCredentials := by rfl
  refine ⟨heve, rfl, hadam, ?_⟩
  rw [login_of_refused heve, login_of_refused hadam]
  exact nofun

end Session

end AccessControl
