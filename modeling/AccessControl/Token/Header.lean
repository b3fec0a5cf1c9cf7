import AccessControl.Json.Plain
import AccessControl.Json.Printer
import AccessControl.Json.Record

/-!
The header of a signed token. It names the algorithm and may carry hints about keys, which must be well
formed but are not used.
-/

namespace AccessControl

inductive Algorithm
  | hs256
  | hs384
  | hs512
  | es256
  | es384
  | rs256
  | rs384
  | rs512
  | ps256
  | ps384
  | ps512
  | edDSA
  deriving DecidableEq

namespace Algorithm

def names : List (String × Algorithm) :=
  [("HS256", hs256), ("HS384", hs384), ("HS512", hs512), ("ES256", es256), ("ES384", es384), ("RS256", rs256),
   ("RS384", rs384), ("RS512", rs512), ("PS256", ps256), ("PS384", ps384), ("PS512", ps512), ("EdDSA", edDSA)]

def ofName? (name : String) : Option Algorithm := names.lookup name

end Algorithm

namespace TokenHeader

open Json

def issued : Json := .record [("typ", .text "JWT"), ("alg", .text "EdDSA")]

/-! ### Keys carried by a header -/

def nameIn (names : List String) : Json → Read Unit :=
  readName fun t => if names.contains t then some () else none

def keyAlgorithms : List String := Algorithm.names.map (·.1) ++ ["RSA1_5", "RSA-OAEP", "RSA-OAEP-256"]

/-- An algorithm's name may also be given an empty object in place of `null`. -/
def keyAlgorithm : Json → Read Unit
  | object [(some t, object [])] => nameIn keyAlgorithms (.text t)
  | v => nameIn keyAlgorithms v

def keyOperation : Json → Read Unit := fun v => (readText v).map fun _ => ()

/-- What any key may say of itself. -/
def keyFields : List Field :=
  [field "use" (readOptional readText) true, field "key_ops" (readOptional (readList keyOperation)) true,
   field "alg" (readOptional keyAlgorithm) true, field "kid" (readOptional readText) true,
   field "x5u" (readOptional readText) true, field "x5c" (readOptional (readList readText)) true,
   field "x5t" (readOptional readText) true, field "x5t#S256" (readOptional readText) true]

def curve : Json → Read Unit := nameIn ["P-256", "P-384", "P-521", "Ed25519"]

/-- The parameters of each type of key. All of them must be given. -/
def keyTypes : List (List Field) :=
  [[field "kty" (nameIn ["EC"]) false, field "crv" curve false, field "x" readText false, field "y" readText false],
   [field "kty" (nameIn ["RSA"]) false, field "n" readText false, field "e" readText false],
   [field "kty" (nameIn ["oct"]) false, field "k" readText false],
   [field "kty" (nameIn ["OKP"]) false, field "crv" curve false, field "x" readText false]]

/-- Whether an object gives every field of a type of key, each once. -/
def isKeyOf (fields : List Field) (v : Json) : Bool :=
  (readRecord fields (fun given => if fields.all fun f => (given f.name).isSome then .ok () else .error .mismatch)
    v).isOk

def readKey : Json → Read Unit
  | object members =>
    let v := object members
    if !v.isPlain 126 then .error .malformed
    else do
      readRecord keyFields (fun _ => .ok ()) v
      if keyTypes.any (isKeyOf · v) then .ok () else .error .mismatch
  | v => .error v.misfit

/-! ### The header -/

def fields : List Field :=
  [field "typ" (readOptional readText) false, field "alg" (readName Algorithm.ofName?) false,
   field "cty" (readOptional readText) false, field "jku" (readOptional readText) false,
   field "jwk" (readOptional readKey) false, field "kid" (readOptional readText) false,
   field "x5u" (readOptional readText) false, field "x5c" (readOptional (readList readText)) false,
   field "x5t" (readOptional readText) false, field "x5t#S256" (readOptional readText) false]

def readAlgorithm : Json → Read Algorithm :=
  readRecord fields fun given => required (readName Algorithm.ofName?) (given "alg")

end TokenHeader

end AccessControl
