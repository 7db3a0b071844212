import Rollout.Text.Path
import Rollout.Time

/-!
# Configurations

The work that a rollout has to do.

* `Config` names the load balancer, the pool, the backends in the order of their upgrade, and the
  limits of the rollout.
* A destination and the arguments may hold the mark `{port}`, in whose place the port of each
  backend is put.
-/

namespace Rollout

/-- How a secure shell reaches a target. -/
structure SshAccess where
  user : Option String
  port : UInt16
  identity : Option String
deriving DecidableEq, Repr, Inhabited

/-- The port where a secure shell listens. -/
def SshAccess.standardPort : UInt16 := 22

/-- Access as the invoking user, on the standard port, with the standard keys. -/
def SshAccess.standard : SshAccess := ⟨none, standardPort, none⟩

/-- How commands reach the targets: over a secure shell, or as processes of this machine. -/
inductive Transport where
  | ssh (access : SshAccess)
  | onMachine
deriving DecidableEq, Repr, Inhabited

/-- A rollout's work and limits. -/
structure Config where
  /-- How many backends are upgraded at a time. -/
  concurrency : UInt64
  /-- How many backends are upgraded one by one before the others. -/
  canaryNum : UInt64
  /-- How many failures among the others do not stop the rollout. -/
  maxFailures : UInt32
  /-- The path of the binary. -/
  src : String
  /-- The address of the load balancer's control plane. -/
  lb : String
  /-- The name of the pool. -/
  pattern : String
  /-- The addresses of the backends, in rollout order. -/
  backends : List String
  /-- Where the binary goes on a target. -/
  dst : Option String
  /-- The arguments of the started binary. -/
  args : List String
  /-- The path of the health endpoint. -/
  healthPath : String
  transport : Transport
  preconditionTimeoutSecs : UInt64
  actionTimeoutSecs : UInt64
  canaryCooldownSecs : UInt64
  retryPasses : UInt32
  retryDelaySecs : UInt64
deriving DecidableEq, Repr, Inhabited

namespace Config

/-! ## What stands for a field that is left out -/

/-- The path of the health endpoint. -/
def standardHealthPath : String := "/healthz"

/-- The seconds that the load balancer gets to report the pool. -/
def standardPreconditionTimeout : UInt64 := 30

/-- The seconds that one upgrade gets. -/
def standardActionTimeout : UInt64 := 600

/-- The seconds between the canaries and the others. -/
def standardCanaryCooldown : UInt64 := 60

/-- How often failed upgrades are tried again. -/
def standardRetryPasses : UInt32 := 3

/-- The seconds before failed upgrades are tried again. -/
def standardRetryDelay : UInt64 := 300

/-! ## The mark for the port -/

/-- Puts `port` in the place of every mark, from left to right. -/
def fillPort (port : List Char) : List Char → List Char
  | '\x7b' :: 'p' :: 'o' :: 'r' :: 't' :: '\x7d' :: rest => port ++ fillPort port rest
  | c :: rest => c :: fillPort port rest
  | [] => []

/-- A text with the port of a backend in the place of every mark. -/
def withPort (s : String) (port : UInt16) : String :=
  String.ofList (fillPort (Text.Decimal.text port.toNat).toList s.toList)

/-! ## Targets -/

/-- The name of the binary. -/
def binaryName (c : Config) : String := (Text.Path.fileName? c.src).getD "service"

/-- Where the binary goes on the target that listens on `port`. -/
def destination (c : Config) (port : UInt16) : String :=
  match c.dst with
  | some dst => withPort dst port
  | none => "/usr/local/bin/" ++ c.binaryName

/-- The name of the process that runs the binary. -/
def processName (c : Config) (port : UInt16) : String :=
  (Text.Path.fileName? (c.destination port)).getD (c.destination port)

/-- The arguments of the binary that listens on `port`. -/
def startArgs (c : Config) (port : UInt16) : List String := c.args.map (withPort · port)

/-! ## Limits of time -/

/-- How long the load balancer may take to report the pool. -/
def preconditionTimeout (c : Config) : Duration := .ofSecs c.preconditionTimeoutSecs.toNat

/-- How long one upgrade may take. -/
def actionTimeout (c : Config) : Duration := .ofSecs c.actionTimeoutSecs.toNat

/-- How long the others wait after the canaries. -/
def canaryCooldown (c : Config) : Duration := .ofSecs c.canaryCooldownSecs.toNat

/-- How long failed upgrades wait before they are tried again. -/
def retryDelay (c : Config) : Duration := .ofSecs c.retryDelaySecs.toNat

end Config

end Rollout
