import Rollout.Config.Text
import Rollout.Document.Edit

/-!
# Shapes of configurations

The keys of the documents of backends, transports and configurations, with what stands for a member
that is left out.
-/

namespace Rollout

open Document

/-- The shape of a backend. -/
def Backend.shape : Shape := .object false [("ip", .plain, none), ("port", .plain, none)]

/-- The keys of an access. -/
def SshAccess.keys : Keys := [
  ("User", .plain, some (.optional none)),
  ("Port", .plain, some (.nat standardPort.toNat)),
  ("Identity", .plain, some (.optional none))]

/-- The shape of an access on its own. -/
def SshAccess.shape : Shape := .object false keys

/-- The shape of a transport. It is taken in whole, as its kind may stand behind the rest. -/
def Transport.shape : Transport → Shape
  | ssh _ => .object true ((tag, .plain, none) :: SshAccess.keys)
  | onMachine => .object true [(tag, .plain, none)]

/-- The shape of a configuration. -/
def Config.shape (c : Config) : Shape := .object false [
  ("Concurrency", .plain, none),
  ("CanaryNum", .plain, some (.nat 0)),
  ("MaxFailures", .plain, some (.nat 0)),
  ("Src", .plain, none),
  ("LB", .plain, none),
  ("Pattern", .plain, none),
  ("Backends", .list .plain, none),
  ("Dst", .plain, some (.optional none)),
  ("Args", .list .plain, some (.strings [])),
  ("HealthPath", .plain, some (.string standardHealthPath)),
  ("Transport", c.transport.shape, some (Transport.ssh .standard).value),
  ("PreconditionTimeoutSecs", .plain, some (.nat standardPreconditionTimeout.toNat)),
  ("ActionTimeoutSecs", .plain, some (.nat standardActionTimeout.toNat)),
  ("CanaryCooldownSecs", .plain, some (.nat standardCanaryCooldown.toNat)),
  ("RetryPasses", .plain, some (.nat standardRetryPasses.toNat)),
  ("RetryDelaySecs", .plain, some (.nat standardRetryDelay.toNat))]

end Rollout
