import AccessControl.Http.Payload
import AccessControl.Http.Request

/-!
Responses. A refusal keeps its cause; what its body tells is a function of the cause, and internal causes are
not told.
-/

namespace AccessControl

inductive Content
  | nothing
  | value (v : Json)
  | refusal (e : AccessError)
  | rejection (r : Rejection)

structure Response where
  status : Nat
  content : Content

def ErrorKind.status : ErrorKind → Nat
  | invalidArgument => 400
  | notFound => 404
  | alreadyExists => 409
  | unauthenticated => 401
  | accessDenied => 403
  | internal => 500

namespace AccessError

def publicMessage (e : AccessError) : String :=
  if e.kind = .internal then "internal server error" else e.message

def shown (e : AccessError) : Json := .record [("message", .text e.publicMessage)]

end AccessError

namespace Response

def bare (status : Nat) : Response := ⟨status, .nothing⟩

def refusal (e : AccessError) : Response := ⟨e.kind.status, .refusal e⟩

def rejection (r : Rejection) : Response := ⟨r.status, .rejection r⟩

/-- The answer to a command. What was created is told apart by its status. -/
def ofAnswer (command : Command) (answer : Answer) : Response :=
  let status :=
    match command with
    | .createAccount _ | .createRole _ | .cloneRole _ _ => 201
    | _ => 200
  match answer with
  | .done => bare 204
  | .account a => ⟨status, .value a.shown⟩
  | .role r => ⟨status, .value r.shown⟩

/-- The response to a request that asks for the head alone. -/
def withoutBody (r : Response) : Response := bare r.status

end Response

end AccessControl
