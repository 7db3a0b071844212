import Rollout.Upgrade.Basic

/-!
# Positions within a run

A run of an upgrade stands still only where it waits for something. Such a place is a `Position`.

* `Position.wait` is what the run waits for there, and `Position.resume` is what it does with the
  result: wait again, end the stage, or fail.
* A binary is stopped by a signal that asks and, where that is not enough, by one that does not.
  After each signal the run looks again and again until the binary is gone or its time is up.
* A started binary is probed again and again until it is healthy or its time is up. The last probe
  may begin after that time, when the pause before it does.
-/

namespace Rollout

/-- Why a run looks for processes: to see whether there are any, to see whether a process that a
signal did not reach is still there, or to see whether they ended. -/
inductive Lookup where
  | first
  | recheck (s : Signal) (pid : Pid) (source : ExecError) (rest : List Pid)
  | untilGone (s : Signal) (deadline : Instant)
deriving DecidableEq, Repr

/-- Where a run waits. -/
inductive Position where
  | removing
  | lookingUp (why : Lookup)
  | signalling (s : Signal) (pid : Pid) (rest : List Pid)
  | exitPause (s : Signal) (deadline until_ : Instant)
  | copying
  | starting
  | probing (deadline : Instant)
  | probePause (deadline until_ : Instant)
  | adding
deriving DecidableEq, Repr

/-- What a run does next: it waits, its stage is over, or it fails. -/
inductive Step where
  | stay (p : Position)
  | passed
  | failed (e : UpgradeError)
deriving DecidableEq, Repr

namespace Position

/-- The stage of a position. -/
def stage : Position → Stage
  | removing => .removeFromPool
  | lookingUp _ | signalling _ _ _ | exitPause _ _ _ => .killExisting
  | copying => .copyBinary
  | starting => .startBinary
  | probing _ | probePause _ _ => .waitHealthy
  | adding => .addToPool

/-- Where a stage begins; the last one has nothing to do. -/
def enter (j : Job) (now : Instant) : Stage → Option Position
  | .removeFromPool => some removing
  | .killExisting => some (lookingUp .first)
  | .copyBinary => some copying
  | .startBinary => some starting
  | .waitHealthy => some (probing (now.after j.timeouts.healthWindow))
  | .addToPool => some adding
  | .done => none

/-- What a run waits for. -/
def wait (j : Job) : Position → Wait
  | removing => .call (.removeBackend j.config.pattern j.backend)
  | lookingUp _ => .call (.find j.backend.ip (j.config.processName j.backend.port))
  | signalling s pid _ => .call (.signal j.backend.ip s pid)
  | exitPause _ _ until_ => .pause until_
  | copying => .call (.copy j.backend.ip j.source j.destination Job.binaryMode)
  | starting => .call (.start j.backend.ip j.destination (j.config.startArgs j.backend.port))
  | probing deadline => .limited (.probe j.endpoint) deadline
  | probePause _ until_ => .pause until_
  | adding => .call (.addBackend j.config.pattern j.backend)

/-- The processes that a lookup found. Only a missing tool is an error; any other failure means
that there are none. -/
def found : Except ExecError (List Pid) → Except UpgradeError (List Pid)
  | .ok pids => .ok pids
  | .error e => if e.isCommandNotFound then .error (.findPids e) else .ok []

/-- Sends a signal to each of some processes, and then waits for them to end. -/
def sendTo (j : Job) (now : Instant) (s : Signal) : List Pid → Step
  | [] => .stay (lookingUp (.untilGone s (now.after (j.exitWait s))))
  | pid :: rest => .stay (signalling s pid rest)

/-- What follows when processes outlast a signal. -/
def outlasted (j : Job) (now : Instant) (pids : List Pid) : Signal → Step
  | .term => sendTo j now .kill pids
  | .kill => .failed (.stillRunning pids j.timeouts.killWait)

/-- What follows a lookup. -/
def lookedUp (j : Job) (now : Instant) (pids : List Pid) : Lookup → Step
  | .first => if pids.isEmpty then .passed else sendTo j now .term pids
  | .recheck s pid source rest =>
    if pid ∈ pids then .failed (.signal s pid source) else sendTo j now s rest
  | .untilGone s deadline =>
    if pids.isEmpty then .passed
    else if deadline ≤ now then outlasted j now pids s
    else .stay (exitPause s deadline (now.wakeAfter j.timeouts.pollInterval))

/-- What follows a probe that did not find the endpoint healthy. -/
def notHealthy (j : Job) (now deadline : Instant) : Step :=
  if deadline ≤ now then .failed (.unhealthy j.endpoint j.timeouts.healthWindow)
  else .stay (probePause deadline (now.wakeAfter j.timeouts.pollInterval))

/-- What a run does with the result of its wait. -/
def resume (j : Job) (now : Instant) : (p : Position) → (p.wait j).Result → Step
  | removing, r =>
    match (r : Except PoolError Unit) with
    | .ok () => .passed
    | .error e => .failed (.removeBackend e)
  | lookingUp why, r =>
    match found (r : Except ExecError (List Pid)) with
    | .ok pids => lookedUp j now pids why
    | .error e => .failed e
  | signalling s pid rest, r =>
    match (r : Except ExecError Unit) with
    | .ok () => sendTo j now s rest
    | .error e => .stay (lookingUp (.recheck s pid e rest))
  | exitPause s deadline _, _ => .stay (lookingUp (.untilGone s deadline))
  | copying, r =>
    match (r : Except ExecError Nat) with
    | .ok _ => .passed
    | .error e => .failed (.copy j.destination e)
  | starting, r =>
    match (r : Except ExecError Unit) with
    | .ok () => .passed
    | .error e => .failed (.start e)
  | probing deadline, r =>
    match (r : Option ProbeResult) with
    | some .healthy => .passed
    | _ => notHealthy j now deadline
  | probePause deadline _, _ => .stay (probing deadline)
  | adding, r =>
    match (r : Except PoolError Unit) with
    | .ok () => .passed
    | .error e => .failed (.addBackend e)

end Position

end Rollout
