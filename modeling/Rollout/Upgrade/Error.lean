import Rollout.Channel.Error
import Rollout.Channel.Signal
import Rollout.Context
import Rollout.Pool.Basic

/-!
# Why an upgrade stops

The errors of one endpoint's upgrade.
-/

namespace Rollout

/-- Why an upgrade stopped. -/
inductive UpgradeError where
  | openSource (path : String) (source : IoError)
  | context (reason : StopReason)
  | removeBackend (source : PoolError)
  | findPids (source : ExecError)
  | signal (signal : Signal) (pid : Pid) (source : ExecError)
  | stillRunning (pids : List Pid) (waited : Duration)
  | copy (dst : String) (source : ExecError)
  | start (source : ExecError)
  | unhealthy (endpoint : String) (window : Duration)
  | addBackend (source : PoolError)
deriving DecidableEq, Repr

namespace UpgradeError

/-- A list of process numbers. -/
def pidsText (pids : List Pid) : String :=
  "[" ++ ", ".intercalate (pids.map fun p => Text.Decimal.text p.toNat) ++ "]"

/-- What went wrong, in words. -/
def message : UpgradeError → String
  | openSource path source =>
    "cannot open binary to copy (" ++ path ++ "): " ++ source.message
  | context reason => reason.message
  | removeBackend source => "problem removing backend from pool: " ++ source.message
  | findPids source => "problem finding existing PIDs: " ++ source.message
  | signal s pid source =>
    "failed to send SIG" ++ s.text ++ " to PID " ++ Text.Decimal.text pid.toNat ++ ": " ++
      source.message
  | stillRunning pids waited =>
    "PIDs " ++ pidsText pids ++ " still running " ++ waited.text ++ " after SIGKILL"
  | copy dst source => "failed to copy binary to " ++ dst ++ ": " ++ source.message
  | start source => "failed to start binary after copy: " ++ source.message
  | unhealthy endpoint window =>
    endpoint ++ " did not become healthy within " ++ window.text
  | addBackend source => "problem adding backend to pool: " ++ source.message

end UpgradeError

end Rollout
