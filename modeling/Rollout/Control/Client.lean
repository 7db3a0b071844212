import Rollout.Control.Request
import Rollout.Http.Message
import Rollout.Text.Blank

/-!
# The client of the control plane

How a call goes to the control plane as a request, and what the client makes of what comes back.
-/

namespace Rollout.Control

open Document Http

/-- The request that makes a call. -/
def Request.http (r : Request) : Http.Request :=
  let body := Rollout.Text.Utf8.bytes (Json.compact r.value)
  { method := "POST"
    target := r.endpoint.path
    headers := [(contentType, jsonType), ("user-agent", "rollgrid/0.1"),
      ("content-length", Rollout.Text.Decimal.text body.length)]
    body }

/-- Whether a status means success. -/
def isSuccess (status : Nat) : Bool := 200 ≤ status && status < 300

/-- What the body of a successful answer says. -/
def Request.readAnswer (r : Request) (body : Bytes) : Except PoolError Answer :=
  match r with
  | poolHealth _ =>
    match Json.decodeBytes PoolHealth.record.decode body with
    | .ok h => .ok (.health h)
    | .error e => .error (.payload e.message)
  | _ => .ok .done

/-- The result of a call to the control plane at an address. -/
def Request.result (r : Request) (addr : String) : Delivery → Except PoolError Answer
  | .failed reason => .error (.connect addr reason)
  | .timedOut => .error (.timeout r.endpoint.path)
  | .answered status body =>
    if isSuccess status then r.readAnswer body
    else
      let text := Rollout.Text.trim (Rollout.Text.Utf8.lossy body)
      .error (.status r.endpoint.path status text)

end Rollout.Control
