import Rollout.Control.Request
import Rollout.Http.MediaType
import Rollout.Http.Message

/-!
# The control plane over HTTP

`serve` answers a request and says what becomes of the table. A request is refused for its path, its
method, the kind of its content, the size of its body, its grammar and its meaning, in this order;
only then it is carried out.
-/

namespace Rollout.Control

open Document Http

/-- The most bytes that a body may have. -/
def maxBody : Nat := 2 * 1024 * 1024

/-- An answer without a body. -/
def bare (status : Nat) : Response := ⟨status, [], []⟩

/-- An answer that is a text. -/
def plain (status : Nat) (text : String) : Response :=
  ⟨status, [(contentType, textType)], Rollout.Text.Utf8.bytes text⟩

/-- The status of a call that failed. -/
def statusOf : PoolError → Nat
  | .poolNotFound _ | .backendNotFound _ _ => 404
  | .poolExists _ | .backendExists _ _ => 409
  | _ => 500

/-- The status of a call that succeeded without a report. -/
def Endpoint.successStatus : Endpoint → Nat
  | poolHealth => 200
  | addPool => 201
  | addBackend | removeBackend => 204

/-- The answer to a call. -/
def respond (endpoint : Endpoint) : Except PoolError Answer → Response
  | .ok (.health h) =>
    ⟨200, [(contentType, jsonType)], Rollout.Text.Utf8.bytes (Json.compact h.value)⟩
  | .ok .done => bare endpoint.successStatus
  | .error e => plain (statusOf e) e.message

/-- The refusal of a body. -/
def refuse (e : DecodeError) : Response :=
  if e.fault.isGrammar then plain 400 ("Failed to parse the request body as JSON: " ++ e.located)
  else
    plain 422 ("Failed to deserialize the JSON body into the target type: " ++ e.located)

/-- Whether a request says that its body is JSON. -/
def claimsJson (r : Http.Request) : Bool :=
  ((r.header? contentType).bind MediaType.read?).any MediaType.isJson

/-- The call that a request makes, or the refusal of it. -/
def accept (r : Http.Request) : Except Response (Endpoint × Request) :=
  match Endpoint.ofPath? r.path with
  | none => .error (bare 404)
  | some endpoint =>
    if r.method ≠ "POST" then .error ⟨405, [("allow", "POST")], []⟩
    else if !claimsJson r then
      .error (plain 415 "Expected request with \x60Content-Type: application/json\x60")
    else if maxBody < r.body.length then
      .error (plain 413 "Failed to buffer the request body: length limit exceeded")
    else match Json.decodeBytes (Request.decode endpoint) r.body with
      | .error e => .error (refuse e)
      | .ok call => .ok (endpoint, call)

/-- Answers a request: the answer and the table afterwards. -/
def serve (t : Table) (r : Http.Request) : Response × Table :=
  match accept r with
  | .error response => (response, t)
  | .ok (endpoint, call) =>
    let (result, t) := call.perform t
    (respond endpoint result, t)

end Rollout.Control
