import Rollout.Text.Decimal

/-!
# Signals

The two signals that stop a running binary: one that asks it to end, and one that ends it.
-/

namespace Rollout

/-- A process number. -/
abbrev Pid := UInt32

/-- A signal that stops a process. -/
inductive Signal where
  | term
  | kill
deriving DecidableEq, Repr

namespace Signal

/-- The name of a signal. -/
def text : Signal → String
  | term => "TERM"
  | kill => "KILL"

/-- The number of a signal. -/
def number : Signal → Nat
  | term => 15
  | kill => 9

/-- The shell command that sends a signal. -/
def command (s : Signal) (pid : Pid) : String :=
  "kill -" ++ s.text ++ " " ++ Text.Decimal.text pid.toNat

end Signal

end Rollout
