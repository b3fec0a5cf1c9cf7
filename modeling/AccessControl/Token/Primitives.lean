import AccessControl.Crypto.Ed25519
import AccessControl.Token.Registry

/-!
The signature scheme and the digest that tokens use.
-/

namespace AccessControl

def ed25519 : SignatureScheme := ⟨Ed25519.publicKey, Ed25519.sign, Ed25519.verify⟩

def tokenDigest (token : String) : String :=
  String.ofList (Hex.encode (Sha2.sha256.digest (utf8 token.toList)))

end AccessControl
