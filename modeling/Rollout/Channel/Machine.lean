import Rollout.Channel.Outcome
import Rollout.Channel.Shell
import Rollout.Files.Programs

/-!
# Targets on this machine

Starts and copies where the targets are processes of this machine. Commands go through its shell.
-/

namespace Rollout.Machine

/-- The output of a command, from the outcome of its shell. -/
def run (command : String) (o : Outcome) : Except ExecError String :=
  match Files.checkArguments [command] with
  | .ok () => o.result command
  | .error e => .error (.ofLaunch command e)

/-- Starts a program in the background. -/
def start (files : Files) (program : String) (args : List String) : Except ExecError Unit :=
  match files.launch program args with
  | .ok () => .ok ()
  | .error e => .error (.ofLaunch program e)

/-- Writes data to a file with a mode: the files afterwards, and the number of bytes. -/
def copy (files : Files) (data : Bytes) (dst : String) (mode : Nat) :
    Except ExecError (Files × Nat) :=
  match files.write dst data mode with
  | .ok files => .ok (files, data.length)
  | .error e => .error (.io e)

end Rollout.Machine
