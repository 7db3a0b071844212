import Rollout.Http.Message
import Rollout.Text.Blank

/-!
# Health probes

A probe asks a target for a path. The target is healthy when it answers, with any status, and what
it answers is text that equals one of the expected values up to blanks around it.
-/

namespace Rollout

/-- The result of a probe. -/
inductive ProbeResult where
  | healthy
  | unhealthy
  | failed
deriving DecidableEq, Repr

/-- The name of a result. -/
def ProbeResult.text : ProbeResult → String
  | healthy => "Healthy"
  | unhealthy => "Unhealthy"
  | failed => "Failed"

namespace Probe

/-- Whether a body is one of the expected values. -/
def accepts (values : List String) (body : Bytes) : Bool :=
  match Text.Utf8.text? body with
  | some s => values.contains (Text.trim s)
  | none => false

/-- The request of a probe. -/
def request (path : String) : Http.Request :=
  ⟨"GET", path, [("user-agent", "rollgrid-health/0.1")], []⟩

/-- What the fate of the request says about the target. -/
def verdict (values : List String) : Http.Delivery → ProbeResult
  | .answered _ body => if accepts values body then .healthy else .unhealthy
  | .failed _ | .timedOut => .failed

end Probe

end Rollout
