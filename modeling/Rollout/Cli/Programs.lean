import Rollout.Cli.Arguments
import Rollout.Config.File
import Rollout.Control.Client
import Rollout.Deploy.Basic
import Rollout.Net.Socket

/-!
# The programs

The rollout program and the control plane, as far as they come without a network: their arguments,
the configuration and the binary, and the report of a deployment whose load balancer cannot be
reached.
-/

namespace Rollout.Cli

/-- What a program leaves behind. -/
structure Exit where
  code : Nat
  stdout : String
  stderr : String
deriving DecidableEq, Repr

namespace Exit

/-- A program that did its work. -/
def success (stdout : String) : Exit := ⟨0, stdout, ""⟩

/-- A program that failed. -/
def failure (text : String) : Exit := ⟨1, "", "error: " ++ text ++ "\n"⟩

/-- A program that was called wrongly. -/
def misuse (e : ArgumentError) : Exit := ⟨2, "", "error: " ++ e.message ++ "\n"⟩

end Exit

/-- A text of lines. -/
def lines (texts : List String) : String := String.join (texts.map (· ++ "\n"))

/-! ## The rollout program -/

/-- The report that people read. -/
def standardFormat : String := "text"

/-- The arguments of the rollout program. -/
def rolloutCommand : Command where
  name := "rollgrid"
  version := some "rollgrid 0.1.0\n"
  help := lines [
    "rollgrid — roll a new binary out to every backend of a load balancer pool",
    "",
    "Usage: rollgrid [OPTIONS] <CONFIG>",
    "",
    "Arguments:",
    "  <CONFIG>  Rollout config file (JSON, or TOML with a .toml extension)",
    "",
    "Options:",
    "  -f, --format <FORMAT>  Report format: text or json [default: text]",
    "      --log-json         Write logs as JSON lines",
    "  -h, --help             Print help",
    "  -V, --version          Print version"]
  options := [⟨"format", some 'f', some "FORMAT", false, none, fun _ => none⟩,
    .flag "log-json" none]
  argument := some "CONFIG"

/-- How a call of the load balancer fails when it cannot be reached. -/
def unreachable (c : Config) : PoolError :=
  .connect c.lb (Socket.unreachableReason c.lb)

/-- Goes through a deployment whose load balancer cannot be reached. -/
def deployOffline (c : Config) : Deploy :=
  let m : Moment := ⟨0, []⟩
  match Deploy.ensured c .background m (.result (.error (unreachable c))) with
  | .creating => Deploy.created c .background m (.result (.error (unreachable c)))
  | d => d

/-- The report of a deployment in a format. -/
def reported (format : String) (c : Conclusion) : Exit :=
  let text := if format = "json" then Document.Json.pretty c.value ++ "\n" else c.report
  ⟨if c.isClean then 0 else 1, text, ""⟩

/-- What a deployment leaves behind. -/
def concluded (format : String) : Deploy → Exit
  | .ended (.ok c) => reported format c
  | .ended (.error e) => .failure e.message
  | .crashed text => .failure text
  | _ => .failure ""

/-- Loads the configuration and the binary. -/
def prepare (files : Files) (path : String) : Except String Config :=
  match Config.load files path with
  | .error e => .error (": ".intercalate e.chain)
  | .ok c =>
    match Config.sourceDigest files c with
    | .error e => .error ("cannot read binary " ++ c.src ++ ": " ++ e.message)
    | .ok _ => .ok c

/-- Runs the rollout program. -/
def runRollout (files : Files) (args : List String) : Exit :=
  match rolloutCommand.parse args with
  | .help => .success rolloutCommand.help
  | .version => .success (rolloutCommand.version.getD "")
  | .refused e => .misuse e
  | .work a =>
    match prepare files (a.argument.getD "") with
    | .error text => .failure text
    | .ok c => concluded ((a.values.lookup "format").getD standardFormat) (deployOffline c)

/-! ## The control plane -/

/-- What is wrong with a number that is read digit by digit: the first character that is no digit, or
the digit before it that makes the number too large. -/
def countFault : List Char → Nat → Option String
  | [], _ => none
  | c :: rest, before =>
    if !c.isDigit then some "invalid digit found in string"
    else
      let next := before * 10 + Text.Decimal.digit c
      if next < UInt64.size then countFault rest next
      else some "number too large to fit in target type"

/-- What is wrong with a number of seconds. A plus sign may stand in front of its digits. -/
def secondsFault (s : String) : Option String :=
  match s.toList with
  | [] => some "cannot parse integer from empty string"
  | '+' :: rest@(_ :: _) => countFault rest 0
  | cs => countFault cs 0

/-- What is wrong with the address of a backend. -/
def backendFault (s : String) : Option String :=
  match Backend.ofText s with
  | .ok _ => none
  | .error e => some e.message

/-- What is wrong with the address where the control plane is served. -/
def listenFault (s : String) : Option String :=
  if (Socket.literal? s.toList).isSome then none else some "invalid socket address syntax"

/-- The arguments of the control plane. -/
def controlPlaneCommand : Command where
  name := "rollgrid-lbd"
  version := none
  help := lines [
    "Local load balancer control plane for rollgrid",
    "",
    "Usage: rollgrid-lbd [OPTIONS]",
    "",
    "Options:",
    "      --listen <LISTEN>",
    "          Address to serve the control plane on [default: 127.0.0.1:8000]",
    "      --pattern <PATTERN>",
    "          Pool to create at startup",
    "      --backend <BACKENDS>",
    "          Backend to seed the startup pool with (repeatable)",
    "      --probe-timeout <PROBE_TIMEOUT>",
    "          Per-probe timeout in seconds [default: 2]",
    "  -h, --help",
    "          Print help"]
  options := [
    ⟨"listen", none, some "LISTEN", false, none, listenFault⟩,
    ⟨"pattern", none, some "PATTERN", false, none, fun _ => none⟩,
    ⟨"backend", none, some "BACKENDS", true, some "pattern", backendFault⟩,
    ⟨"probe-timeout", none, some "PROBE_TIMEOUT", false, none, secondsFault⟩]
  argument := none

/-- Runs the control plane up to the point where it would serve. -/
def runControlPlane (args : List String) : Exit :=
  match controlPlaneCommand.parse args with
  | .help => .success controlPlaneCommand.help
  | .version => .success ""
  | .refused e => .misuse e
  | .work _ => .failure IoError.unreachable.message

/-- Runs the program with a name. -/
def run (program : String) (files : Files) (args : List String) : Exit :=
  if program = controlPlaneCommand.name then runControlPlane args else runRollout files args

end Rollout.Cli
