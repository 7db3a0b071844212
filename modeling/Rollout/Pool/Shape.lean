import Rollout.Config.Shape
import Rollout.Pool.Text

/-!
# Shapes of pools

The keys of the load balancer's messages; none of their members may be left out. With them,
`DocumentsKept` says of all documents of the program that edits keep what they say.
-/

namespace Rollout

open Document

/-- The shape of a report. -/
def PoolHealth.shape : Shape :=
  .object false [("status", .plain, none), ("backends", .list Backend.shape, none)]

/-- The shape of a check. -/
def StatusCheck.shape : Shape :=
  .object false [("url_path", .plain, none), ("healthy_values", .list .plain, none)]

/-- The shape of checks. -/
def HealthChecks.shape : Shape :=
  .object false [("checks", .list StatusCheck.shape, none), ("interval_secs", .plain, none)]

/-- Whether each value is decoded from the text of every edit of its document, where members that
are `admitted` may be inserted into an object that is taken in whole. -/
def DocumentsKept (admitted : Value → Prop) : Prop :=
  Json.Kept admitted Backend.record.decode (fun _ => Backend.shape) Backend.value ∧
  Json.Kept admitted PoolHealth.record.decode (fun _ => PoolHealth.shape) PoolHealth.value ∧
  Json.Kept admitted PoolStatus.decode (fun _ => .plain) PoolStatus.value ∧
  Json.Kept admitted PoolType.decode (fun _ => .plain) PoolType.value ∧
  Json.Kept admitted StatusCheck.record.decode (fun _ => StatusCheck.shape) StatusCheck.value ∧
  Json.Kept admitted HealthChecks.record.decode (fun _ => HealthChecks.shape) HealthChecks.value ∧
  Json.Kept admitted SshAccess.record.decode (fun _ => SshAccess.shape) (.object ·.members) ∧
  Json.Kept admitted Transport.decode Transport.shape Transport.value ∧
  Json.Kept admitted Config.record.decode Config.shape Config.value

end Rollout
