import AccessControl.Proofs.Gate.Bearer
import AccessControl.Proofs.Gate.Identity
import AccessControl.Proofs.Token.Registry
import AccessControl.Proofs.Token.Signed

/-!
Tokens that an authority issues. Its own service verifies them from the time of issue until they expire
(`verify_issued`), and a token tells for whom and until when it was issued (`issued_eq_of_token`).
-/

namespace AccessControl

theorem toInt_timeAfter (now span : Int64) :
    (timeAfter now span).toInt = max Int64.minValue.toInt (min (now.toInt + span.toInt) Int64.maxValue.toInt) := by
  simp only [timeAfter, Int64.toInt_minValue, Int64.toInt_maxValue]
  split
  · rw [Int64.toInt_minValue]
    omega
  · split
    · rw [Int64.toInt_maxValue]
      omega
    · rw [Int64.toInt_ofInt_of_le (by omega) (by omega)]
      omega

/-- A time that lies ahead is held at the greatest time that there is. -/
theorem toInt_timeAfter_of_pos {now span : Int64} (hpos : 0 < span) :
    (timeAfter now span).toInt = min (now.toInt + span.toInt) Int64.maxValue.toInt := by
  have hspan : 0 < span.toInt := Int64.lt_iff_toInt_lt.1 hpos
  have hnow : Int64.minValue.toInt ≤ now.toInt := Int64.minValue_le_toInt now
  have hrange : Int64.minValue.toInt ≤ Int64.maxValue.toInt := by decide
  rw [toInt_timeAfter]
  omega

theorem lt_timeAfter {now span : Int64} (hroom : now < Int64.maxValue) (hpos : 0 < span) :
    now < timeAfter now span := by
  have hzero : (0 : Int64).toInt = 0 := rfl
  rw [Int64.lt_iff_toInt_lt] at *
  rw [toInt_timeAfter]
  omega

namespace TokenAuthority

/-- The token that is issued for a subject. -/
def issued (a : TokenAuthority) (now : Int64) (id subject : String) : IssuedToken :=
  ⟨a.signer.signClaims (a.signer.claimsFor now a.lifespan id subject), timeAfter now a.lifespan⟩

theorem issueAt_eq (a : TokenAuthority) (signedAt enteredAt : Int64) (id subject : String) (r : Registry) :
    a.issueAt signedAt enteredAt id subject r =
      (a.issued signedAt id subject,
        r.add enteredAt (a.digest (a.issued signedAt id subject).token)
          ⟨subject, (a.issued signedAt id subject).expiresAt⟩) := rfl

/-- An issued token expires when its lifespan is over, or at the greatest time that there is. -/
theorem expiresAt_issued (a : TokenAuthority) (now : Int64) (id subject : String) :
    (a.issued now id subject).expiresAt.toInt = min (now.toInt + a.lifespan.toInt) Int64.maxValue.toInt :=
  toInt_timeAfter_of_pos a.lifespan_pos

theorem service_verify (a : TokenAuthority) (now : Int64) (id token : String) :
    (a.service now id).verify token =
      Verifier.verify a.signer.scheme a.signer.publicKey a.signer.issuer now token := rfl

theorem service_introspect (a : TokenAuthority) (now : Int64) (id token : String) (r : Registry) :
    (a.service now id).introspect token r = r.introspect now (a.digest token) := rfl

section

variable {a : TokenAuthority} {issuedAt now : Int64} {id subject : String}

theorem verify_issued (ha : a.signer.AcceptsOwn) (hcounted : 0 ≤ issuedAt) (hlater : issuedAt ≤ now)
    (hheld : now ≤ (a.issued issuedAt id subject).expiresAt) (id' : String) :
    (a.service now id').verify (a.issued issuedAt id subject).token =
      .ok ⟨subject, (a.issued issuedAt id subject).expiresAt⟩ := by
  have hexpires : 0 ≤ (a.issued issuedAt id subject).expiresAt :=
    Int64.le_trans hcounted (Int64.le_trans hlater hheld)
  have hvalid : Verifier.validate a.signer.issuer now (a.signer.claimsFor issuedAt a.lifespan id subject) = .ok () :=
    Verifier.validate_eq_ok.2 ⟨hexpires, hcounted, hheld, hlater, rfl⟩
  have hverify := Signer.verify_signClaims ha a.signer.issuer now (a.signer.claimsFor issuedAt a.lifespan id subject)
  rw [hvalid] at hverify
  rw [service_verify, issued, hverify]
  rfl

theorem issued_eq_of_token {issuedAt' : Int64} {id' subject' : String}
    (h : (a.issued issuedAt id subject).token = (a.issued issuedAt' id' subject').token) :
    subject = subject' ∧ (a.issued issuedAt id subject).expiresAt = (a.issued issuedAt' id' subject').expiresAt := by
  have hclaims := a.signer.signClaims_injective h
  exact ⟨congrArg Claims.subject hclaims, congrArg Claims.expiresAt hclaims⟩

theorem bare_issued (a : TokenAuthority) (now : Int64) (id subject : String) :
    Text.Bare (a.issued now id subject).token.toList :=
  Text.bare_of_no_blank fun _ hc => Signer.isBlank_of_mem_signClaims hc

theorem printable_issued (a : TokenAuthority) (now : Int64) (id subject : String) {c : Char}
    (h : c ∈ (a.issued now id subject).token.toList) : ' ' ≤ c ∧ c ≤ '~' := Signer.printable_of_mem_signClaims h

theorem issued_ne_nil (a : TokenAuthority) (now : Int64) (id subject : String) :
    (a.issued now id subject).token.toList ≠ [] := a.signer.signClaims_ne_nil _

end

/-! ### Logging in -/

/-- The token of a login was issued at this time for its username. -/
def Issues (a : TokenAuthority) (now : Int64) (l : Login) : Prop :=
  ∃ id, a.issued now id l.username = ⟨l.token, l.expiresAt⟩

section

variable {a : TokenAuthority} {l : Login} {issuedAt now : Int64}

theorem Issues.verify (h : a.Issues issuedAt l) (ha : a.signer.AcceptsOwn) (hcounted : 0 ≤ issuedAt)
    (hlater : issuedAt ≤ now) (hheld : now ≤ l.expiresAt) (id : String) :
    (a.service now id).verify l.token = .ok ⟨l.username, l.expiresAt⟩ := by
  obtain ⟨id', hissued⟩ := h
  have hheld' : now ≤ (a.issued issuedAt id' l.username).expiresAt := by rwa [hissued]
  have hverify := verify_issued ha hcounted hlater hheld' id
  rwa [hissued] at hverify

/-- A token that was issued is read back from a bearer header. -/
theorem Issues.extractBearer (h : a.Issues issuedAt l) {scheme : String}
    (hscheme : asciiLower scheme.toList = "bearer".toList) :
    extractBearer (some (scheme ++ " " ++ l.token)) = .ok l.token := by
  obtain ⟨id, hissued⟩ := h
  have hne := a.issued_ne_nil issuedAt id l.username
  have hbare := a.bare_issued issuedAt id l.username
  rw [hissued] at hne hbare
  exact extractBearer_append hscheme hne hbare

/-- Logins with one token agree on whom it is for and until when. -/
theorem Issues.eq_of_token {l' : Login} {issuedAt' : Int64} (h : a.Issues issuedAt l) (h' : a.Issues issuedAt' l')
    (htoken : l.token = l'.token) : l.username = l'.username ∧ l.expiresAt = l'.expiresAt := by
  obtain ⟨id, hissued⟩ := h
  obtain ⟨id', hissued'⟩ := h'
  have htokens : (a.issued issuedAt id l.username).token = (a.issued issuedAt' id' l'.username).token := by
    rw [hissued, hissued', htoken]
  have heq := issued_eq_of_token htokens
  rwa [hissued, hissued'] at heq

theorem login_of_verified {h : Hasher} {d : Directory} {username password id : String} {account : Account}
    (hverified : d.verifyCredentials h username password = .ok account) (now : Int64) (r : Registry) :
    Session.login (a.service now id) h d username password r =
      (.ok (Session.loginFor d account (a.issued now id account.username)),
        r.add now (a.digest (a.issued now id account.username).token)
          ⟨account.username, (a.issued now id account.username).expiresAt⟩) := by
  rw [Session.login, hverified]
  rfl

end

end TokenAuthority

end AccessControl
