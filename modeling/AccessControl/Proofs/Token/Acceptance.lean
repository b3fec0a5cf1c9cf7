import AccessControl.Proofs.Token.Authority

/-!
Which signed claims are accepted. Whatever the subject, the issuer and the id of the claims say, the verifier of the
signer's key accepts them exactly if they are `Acceptable`, and then vouches for their subject and their expiry
(`signed_claims_verify`).
-/

namespace AccessControl

/-- Claims that may be accepted at a time by one who expects an issuer: they name this issuer, they hold from a time on
that is not before 1970 and has come, and they have not expired. They are still held at the moment of their expiry. -/
structure Claims.Acceptable (claims : Claims) (issuer : String) (now : Int64) : Prop where
  issuer : claims.issuer = issuer
  counted : 0 ≤ claims.notBefore
  begun : claims.notBefore ≤ now
  held : now ≤ claims.expiresAt

theorem Verifier.validate_eq_ok_iff {issuer : String} {now : Int64} {claims : Claims} :
    validate issuer now claims = .ok () ↔ claims.Acceptable issuer now := by
  rw [validate_eq_ok]
  constructor
  · rintro ⟨-, hcounted, hheld, hbegun, hissuer⟩
    exact ⟨hissuer, hcounted, hbegun, hheld⟩
  · rintro ⟨hissuer, hcounted, hbegun, hheld⟩
    have hexpires : 0 ≤ claims.expiresAt := Int64.le_trans hcounted (Int64.le_trans hbegun hheld)
    exact ⟨hexpires, hcounted, hheld, hbegun, hissuer⟩

theorem le_timeAfter {now span : Int64} (hpos : 0 < span) : now ≤ timeAfter now span := by
  have hspan : 0 < span.toInt := Int64.lt_iff_toInt_lt.1 hpos
  have hnow : now.toInt ≤ Int64.maxValue.toInt := Int64.toInt_le now
  rw [Int64.le_iff_toInt_le, toInt_timeAfter_of_pos hpos]
  omega

namespace Signer

variable {s : Signer} {issuer : String} {now : Int64}

theorem verify_signClaims_eq_ok (hs : s.AcceptsOwn) {claims : Claims} {v : VerifiedClaims} :
    Verifier.verify s.scheme s.publicKey issuer now (s.signClaims claims) = .ok v ↔
      claims.Acceptable issuer now ∧ v = ⟨claims.subject, claims.expiresAt⟩ := by
  rw [verify_signClaims hs, ← Verifier.validate_eq_ok_iff]
  cases Verifier.validate issuer now claims with
  | ok u => simp [eq_comm]
  | error fault => simp

/-- The claims for a subject name the signer itself, so only their times decide. -/
theorem acceptable_claimsFor {signedAt lifespan : Int64} {id subject : String} :
    (s.claimsFor signedAt lifespan id subject).Acceptable s.issuer now ↔
      0 ≤ signedAt ∧ signedAt ≤ now ∧ now ≤ timeAfter signedAt lifespan := by
  constructor
  · rintro ⟨-, hcounted, hbegun, hheld⟩
    exact ⟨hcounted, hbegun, hheld⟩
  · rintro ⟨hcounted, hbegun, hheld⟩
    exact ⟨rfl, hcounted, hbegun, hheld⟩

/-- If the scheme accepts what it signs, signed claims verify exactly if they are acceptable, and then for their subject
and their expiry. So a token that is signed for a subject, not before 1970, verifies from that time up to its expiry. -/
theorem signed_claims_verify (hs : s.AcceptsOwn) :
    (∀ issuer now claims v,
      Verifier.verify s.scheme s.publicKey issuer now (s.signClaims claims) = .ok v ↔
        claims.Acceptable issuer now ∧ v = ⟨claims.subject, claims.expiresAt⟩) ∧
      ∀ signedAt lifespan id subject, 0 < lifespan →
        let claims := s.claimsFor signedAt lifespan id subject
        signedAt ≤ claims.expiresAt ∧
          claims.expiresAt.toInt = min (signedAt.toInt + lifespan.toInt) Int64.maxValue.toInt ∧
          ∀ now,
            Verifier.verify s.scheme s.publicKey s.issuer now (s.signClaims claims) = .ok ⟨subject, claims.expiresAt⟩ ↔
              0 ≤ signedAt ∧ signedAt ≤ now ∧ now ≤ claims.expiresAt := by
  refine ⟨fun issuer now claims v => verify_signClaims_eq_ok hs, ?_⟩
  intro signedAt lifespan id subject hpos claims
  refine ⟨le_timeAfter hpos, toInt_timeAfter_of_pos hpos, fun now => ?_⟩
  have hsubject : claims.subject = subject := rfl
  rw [verify_signClaims_eq_ok hs, hsubject, and_iff_left rfl]
  exact acceptable_claimsFor

/-- A signer of a scheme whose signatures repeat the message and the key. -/
def repeating : Signer :=
  ⟨⟨id, fun seed message => message ++ seed, fun key message s => s == message ++ key⟩, [7], "issuer"⟩

/-- Claims from the first time to the last, with a subject that has to be escaped and an issue time before 1970. -/
def timeless : Claims := ⟨"a\"nn\\\n", "issuer", Int64.minValue, 0, Int64.maxValue, "\x01"⟩

/-- At the last time of all they are accepted still, but not by one who expects another issuer, nor once they are changed
to expire a second earlier. A token that is signed two seconds before that time is held at it. -/
theorem signed_claims_verify_timeless :
    let verify := Verifier.verify repeating.scheme repeating.publicKey
    repeating.AcceptsOwn ∧
      verify "issuer" Int64.maxValue (repeating.signClaims timeless) = .ok ⟨"a\"nn\\\n", Int64.maxValue⟩ ∧
      (∀ v, verify "other" Int64.maxValue (repeating.signClaims timeless) ≠ .ok v) ∧
      (∀ v, verify "issuer" Int64.maxValue
        (repeating.signClaims { timeless with expiresAt := Int64.maxValue - 1 }) ≠ .ok v) ∧
      verify "issuer" Int64.maxValue (repeating.signClaims (repeating.claimsFor (Int64.maxValue - 2) 300 "id" "ann")) =
        .ok ⟨"ann", Int64.maxValue⟩ := by
  intro verify
  have hown : repeating.AcceptsOwn := fun message => beq_self_eq_true _
  obtain ⟨hverify, hsign⟩ := signed_claims_verify hown
  refine ⟨hown, (hverify _ _ _ _).2 ⟨⟨rfl, by decide, by decide, by decide⟩, rfl⟩, fun v hv => ?_, fun v hv => ?_, ?_⟩
  · have hissuer := ((hverify _ _ _ _).1 hv).1.issuer
    exact absurd hissuer (by decide)
  · have hheld := ((hverify _ _ _ _).1 hv).1.held
    exact absurd hheld (by decide)
  · obtain ⟨-, -, hissued⟩ := hsign (Int64.maxValue - 2) 300 "id" "ann" (by decide)
    exact (hissued Int64.maxValue).2 (by decide)

end Signer

end AccessControl
