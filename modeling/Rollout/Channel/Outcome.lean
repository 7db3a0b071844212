import Rollout.Channel.Error
import Rollout.Text.Blank
import Rollout.Text.Utf8

/-!
# Finished processes

How a process ended and what it wrote, and what that means for the command it ran.
-/

namespace Rollout

/-- How a process ended. -/
inductive Ending where
  | exit (code : Int)
  | killed
deriving DecidableEq, Repr

/-- The end of a process that ends itself with a code. Eight bits of it are handed on. -/
def Ending.ofCode (code : Int) : Ending := .exit (code % 256)

/-- A finished process. -/
structure Outcome where
  ending : Ending
  stdout : Bytes
  stderr : Bytes
deriving DecidableEq, Repr

namespace Outcome

/-- The exit code of a shell that knows no such command. -/
def codeNotFound : Int := 127

/-- What a process complained about. -/
def complaint (o : Outcome) : String := Text.trim (Text.Utf8.lossy o.stderr)

/-- The output of a command that succeeded. -/
def result (o : Outcome) (command : String) : Except ExecError String :=
  match o.ending with
  | .killed => .error (.signalled command)
  | .exit code =>
    if code = 0 then .ok (Text.Utf8.lossy o.stdout)
    else if code = codeNotFound then .error (.commandNotFound command)
    else .error (.nonZeroExit command code o.complaint)

end Outcome

/-- The failure to make a process at all. -/
def ExecError.ofLaunch (command : String) (e : IoError) : ExecError :=
  if e = .notFound then .commandNotFound command else .io e

end Rollout
