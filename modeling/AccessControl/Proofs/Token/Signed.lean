import AccessControl.Proofs.Attempt
import AccessControl.Proofs.Document.RoundTrip
import AccessControl.Proofs.Text.Base64
import AccessControl.Proofs.Text.Split
import AccessControl.Token.Signed

/-!
What a signer writes, the verifier of its key reads: the three parts of a token are found again at its dots, each
decodes to what was encoded, and the claims read back as they were. So whether a signed token is accepted is a matter
of its claims alone (`accept_signClaims`).
-/

namespace AccessControl

namespace Claims

open Json

def members (c : Claims) : List (String × Json) :=
  [("sub", text c.subject), ("iss", text c.issuer), ("iat", int c.issuedAt), ("nbf", int c.notBefore),
    ("exp", int c.expiresAt), ("jti", text c.id)]

theorem readJson_toJson (c : Claims) : readJson c.toJson = .ok c := by
  have hissued := readInt_int c.issuedAt
  have hnotBefore := readInt_int c.notBefore
  have hexpires := readInt_int c.expiresAt
  have hgives : Gives fields c.members :=
    .cons ⟨rfl, fits_field (a := c.subject) rfl⟩ <| .cons ⟨rfl, fits_field (a := c.issuer) rfl⟩ <|
      .cons ⟨rfl, fits_field hissued⟩ <| .cons ⟨rfl, fits_field hnotBefore⟩ <| .cons ⟨rfl, fits_field hexpires⟩ <|
      .cons ⟨rfl, fits_field (a := c.id) rfl⟩ .nil
  show readRecord fields _ (record c.members) = _
  rw [readRecord_record _ hgives (by decide)]
  simp only [members, List.lookup_cons, String.reduceBEq, required, hissued, hnotBefore, hexpires]
  rfl

theorem writable_toJson (c : Claims) : c.toJson.Writable := by
  refine writable_record fun m hm => ?_
  simp only [List.mem_cons, List.not_mem_nil, or_false] at hm
  rcases hm with rfl | rfl | rfl | rfl | rfl | rfl
  · exact writable_text _
  · exact writable_text _
  · exact writable_int _
  · exact writable_int _
  · exact writable_int _
  · exact writable_text _

end Claims

namespace TokenHeader

theorem writable_issued : issued.Writable := by
  refine Json.writable_record fun m hm => ?_
  simp only [List.mem_cons, List.not_mem_nil, or_false] at hm
  rcases hm with rfl | rfl
  · exact Json.writable_text _
  · exact Json.writable_text _

theorem readAlgorithm_issued : readAlgorithm issued = .ok .edDSA := by rfl

end TokenHeader

namespace Verifier

open Signer (part)

/-! ### The parts of a token -/

theorem dot_not_mem_encode (bytes : List UInt8) : '.' ∉ Base64.url.encode bytes :=
  fun h => Base64.Alphabet.ne_dot_of_mem_encode h rfl

theorem parts?_encoded (header : List Char) (claims signature : List UInt8) :
    parts? (header ++ '.' :: Base64.url.encode claims ++ '.' :: Base64.url.encode signature) =
      some (header, Base64.url.encode claims, Base64.url.encode signature) := by
  rw [parts?, Text.splitLast?_append (dot_not_mem_encode signature)]
  show (Text.splitLast? '.' (header ++ '.' :: Base64.url.encode claims)).bind _ = _
  rw [Text.splitLast?_append (dot_not_mem_encode claims)]
  rfl

theorem decoded_encode (bytes : List UInt8) : decoded (Base64.url.encode bytes) = .ok bytes := by
  rw [decoded, Base64.Alphabet.decode?_encode Base64.Alphabet.url_reads]

/-- A part is read as the value that it was written from. -/
theorem contents_print {α : Type} {f : Json → Json.Read α} {v : Json} {a : α} (hv : v.Writable) (h : f v = .ok a) :
    contents f (utf8 v.print) = .ok a := by
  have hbytes : (⟨(utf8 v.print).toArray⟩ : ByteArray) = v.render.toUTF8 := by
    rw [utf8, Array.toArray_toList]
    rfl
  rw [contents, hbytes, Json.readWholeText_render f hv, h]

theorem readClaims_toJson (c : Claims) : readClaims c.toJson = .ok c := by
  rw [readClaims, Claims.readJson_toJson]
  rfl

/-- The claims that a token carries, whoever signed them. -/
def claimsOf (token : List Char) : Except TokenFault Claims :=
  match parts? token with
  | none => .error .notThreeParts
  | some (_, claims, _) => do contents readClaims (← decoded claims)

/-! ### Valid claims -/

theorem check_true (fault : TokenFault) : check true fault = .ok () := rfl

@[simp] theorem check_eq_ok {condition : Bool} {fault : TokenFault} {u : Unit} :
    check condition fault = .ok u ↔ condition = true := by
  cases condition with
  | true => exact ⟨fun _ => rfl, fun _ => rfl⟩
  | false => exact ⟨(nomatch ·), (nomatch ·)⟩

theorem validate_eq_ok {issuer : String} {now : Int64} {claims : Claims} {u : Unit} :
    validate issuer now claims = .ok u ↔
      0 ≤ claims.expiresAt ∧ 0 ≤ claims.notBefore ∧ now ≤ claims.expiresAt ∧ claims.notBefore ≤ now ∧
        claims.issuer = issuer := by
  simp only [validate, bind_eq_ok, check_eq_ok, decide_eq_true_eq, exists_const]

end Verifier

/-! ### Signed claims -/

namespace Signer

open Verifier

/-- The scheme accepts what it signs, whatever the message. -/
def AcceptsOwn (s : Signer) : Prop :=
  ∀ message, s.scheme.verify (s.scheme.publicKey s.seed) message (s.scheme.sign s.seed message) = true

variable {s : Signer}

/-- The verifier of a signer's key finds nothing wrong with a token of the signer but, perhaps, its claims. -/
theorem accept_signClaims (hs : s.AcceptsOwn) (issuer : String) (now : Int64) (claims : Claims) :
    accept s.scheme (s.scheme.publicKey s.seed) issuer now (s.signClaims claims).toList =
      (validate issuer now claims).map fun _ => claims := by
  have hparts := parts?_encoded (part TokenHeader.issued) (utf8 claims.toJson.print)
  have hheader := contents_print TokenHeader.writable_issued TokenHeader.readAlgorithm_issued
  have hclaims := contents_print claims.writable_toJson (readClaims_toJson claims)
  have hsignature := hs (utf8 (part TokenHeader.issued ++ '.' :: part claims.toJson))
  unfold part at hparts hsignature
  rw [accept, signClaims, String.toList_ofList]
  unfold part
  simp only [hparts, decoded_encode, ok_bind, hheader, hsignature, hclaims, decide_true, check_true]
  cases validate issuer now claims with
  | ok u => rfl
  | error fault => rfl

theorem verify_signClaims (hs : s.AcceptsOwn) (issuer : String) (now : Int64) (claims : Claims) :
    verify s.scheme s.publicKey issuer now (s.signClaims claims) =
      match validate issuer now claims with
      | .ok () => .ok ⟨claims.subject, claims.expiresAt⟩
      | .error fault => .error (.tokenRejected fault) := by
  rw [verify, publicKey, String.toList_ofList, Base64.Alphabet.decode?_encode Base64.Alphabet.url_reads]
  simp only [accept_signClaims hs]
  cases validate issuer now claims with
  | ok u => rfl
  | error fault => rfl

theorem claimsOf_signClaims (s : Signer) (claims : Claims) : claimsOf (s.signClaims claims).toList = .ok claims := by
  rw [claimsOf, signClaims, String.toList_ofList]
  simp only [part, parts?_encoded, decoded_encode, ok_bind]
  exact contents_print claims.writable_toJson (readClaims_toJson claims)

/-- Claims can be told from the token that carries them. -/
theorem signClaims_injective (s : Signer) : Function.Injective s.signClaims := by
  intro claims claims' h
  have hcarried := claimsOf_signClaims s claims
  rw [h, claimsOf_signClaims] at hcarried
  exact (Except.ok.inj hcarried).symm

theorem mem_signClaims {claims : Claims} {c : Char} (h : c ∈ (s.signClaims claims).toList) :
    c = '.' ∨ ∃ bytes, c ∈ Base64.url.encode bytes := by
  rw [signClaims, String.toList_ofList] at h
  simp only [part, List.mem_append, List.mem_cons] at h
  rcases h with (h | rfl | h) | rfl | h
  · exact Or.inr ⟨_, h⟩
  · exact Or.inl rfl
  · exact Or.inr ⟨_, h⟩
  · exact Or.inl rfl
  · exact Or.inr ⟨_, h⟩

theorem isBlank_of_mem_signClaims {claims : Claims} {c : Char} (h : c ∈ (s.signClaims claims).toList) :
    isBlank c = false := by
  rcases mem_signClaims h with rfl | ⟨bytes, h⟩
  · decide
  · exact Base64.Alphabet.isBlank_of_mem_encode h

theorem printable_of_mem_signClaims {claims : Claims} {c : Char} (h : c ∈ (s.signClaims claims).toList) :
    ' ' ≤ c ∧ c ≤ '~' := by
  rcases mem_signClaims h with rfl | ⟨bytes, h⟩
  · decide
  · exact Base64.Alphabet.printable_of_mem_encode h

theorem signClaims_ne_nil (s : Signer) (claims : Claims) : (s.signClaims claims).toList ≠ [] := by
  rw [signClaims, String.toList_ofList]
  exact List.append_ne_nil_of_right_ne_nil _ (List.cons_ne_nil _ _)

end Signer

end AccessControl
