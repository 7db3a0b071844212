import Rollout.Files.IoError
import Rollout.Text.Quoted

/-!
# Failures on a target

Why a command, a start or a copy on a target failed.
-/

namespace Rollout

/-- Why something failed on a target. -/
inductive ExecError where
  | commandNotFound (command : String)
  | nonZeroExit (command : String) (code : Int) (stderr : String)
  | signalled (command : String)
  | transport (host : String) (reason : String)
  | output (command : String) (found : String)
  | io (source : IoError)
deriving DecidableEq, Repr

namespace ExecError

/-- What failed, in words. -/
def message : ExecError → String
  | commandNotFound command => "command not found: " ++ command
  | nonZeroExit command code stderr =>
    Text.quoted command ++ " exited with " ++ Text.Decimal.intText code ++ ": " ++ stderr
  | signalled command => Text.quoted command ++ " was killed by a signal"
  | transport host reason => "can't reach " ++ host ++ ": " ++ reason
  | output command found =>
    "unexpected output from " ++ Text.quoted command ++ ": " ++ Text.quoted found
  | io source => "I/O error: " ++ source.message

/-- Whether the tool itself is missing. -/
def isCommandNotFound : ExecError → Bool
  | commandNotFound _ => true
  | _ => false

end ExecError

end Rollout
