import Rollout.Channel.Outcome
import Rollout.Channel.Shell
import Rollout.Config.Basic
import Rollout.Files.Programs
import Rollout.Net.Ip

/-!
# Targets over a secure shell

How the secure shell's client is called for each thing to do on a target, and what its end means.
The client's own exit code for a connection that failed is 255.
-/

namespace Rollout.Ssh

/-- The program. -/
def program : String := "ssh"

/-- The seconds that a connection may take. -/
def connectTimeoutSecs : Nat := 10

/-- The exit code of a failed connection. -/
def codeUnreachable : Int := 255

/-- The target as the client names it. -/
def target (access : SshAccess) (host : IpAddr) : String :=
  match access.user with
  | some user => user ++ "@" ++ host.text
  | none => host.text

/-- The arguments that run a command on a target. -/
def arguments (access : SshAccess) (host : IpAddr) (command : String) : List String :=
  ["-p", Text.Decimal.text access.port.toNat, "-o", "BatchMode=yes", "-o",
    "ConnectTimeout=" ++ Text.Decimal.text connectTimeoutSecs] ++
  (match access.identity with
    | some path => ["-i", path]
    | none => []) ++
  [target access host, command]

/-- The output of a command that succeeded. -/
def result (host : IpAddr) (command : String) (o : Outcome) : Except ExecError String :=
  if o.ending = .exit codeUnreachable then .error (.transport host.text o.complaint)
  else o.result command

/-- A call of the client: its arguments and its input. -/
structure Call where
  args : List String
  stdin : Bytes
deriving DecidableEq, Repr

/-- Whether the client can be called, where it is installed or not. -/
def Call.launch (c : Call) (installed : Bool) : Except ExecError Unit :=
  match Files.checkArguments c.args with
  | .error e => .error (.ofLaunch program e)
  | .ok () => if installed then .ok () else .error (.ofLaunch program .notFound)

/-- The call that runs a command. -/
def run (access : SshAccess) (host : IpAddr) (command : String) : Call :=
  ⟨arguments access host command, []⟩

/-- The call that starts a program in the background. -/
def start (access : SshAccess) (host : IpAddr) (program : String) (args : List String) : Call :=
  run access host (Shell.detached program args)

/-- The call that writes data to a file. -/
def copy (access : SshAccess) (host : IpAddr) (data : Bytes) (dst : String) (mode : Nat) : Call :=
  ⟨arguments access host (Shell.receive dst mode), data⟩

end Rollout.Ssh
