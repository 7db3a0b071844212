import Rollout.Fleet.Run

/-!
# Trying failed upgrades again

`Retry` is one pass: every upgrade whose latest run failed runs again, all at once, each from the
stage where it failed. `Cleanup` makes passes, with a wait before each of them, until no upgrade is
left that failed or the passes are used up.
-/

namespace Rollout

/-- How far an upgrade is in a pass. -/
inductive Attempt where
  | queued (index : Nat) (ctx : Context)
  | flying (flight : Flight)
  | landed (index : Nat) (failed : Bool)
deriving DecidableEq, Repr

/-- A pass: the upgrades that are under way. -/
structure Retry where
  attempts : List Attempt
deriving DecidableEq, Repr

namespace Retry

/-- Begins a pass, unless the clock cannot show the end of its time. -/
def start? (fleet : Fleet) (ctx : Context) (now : Instant) : Option Retry :=
  if fleet.failures.isEmpty then some ⟨[]⟩
  else (ctx.within? now fleet.config.actionTimeout).map fun inner =>
    ⟨fleet.failures.map fun f => .queued f.index inner⟩

/-- Whether the pass is over. -/
def isOver (r : Retry) : Bool := r.attempts.isEmpty

/-- Puts an attempt in the place of the one at a position. -/
def place (r : Retry) (at_ : Nat) (a : Attempt) : Retry := ⟨r.attempts.set at_ a⟩

/-- What a landing makes of the attempt at a position. An attempt that crashed just ends. -/
def settle (r : Retry) (at_ index : Nat) : Landing → Retry
  | .flying flight => r.place at_ (.flying flight)
  | .landed (.ok ()) => r.place at_ (.landed index false)
  | .landed (.error _) => r.place at_ (.landed index true)
  | .crashed _ => ⟨r.attempts.eraseIdx at_⟩

/-- Begins the run of the upgrade at a position. -/
def takeOff (fleet : Fleet) (r : Retry) (at_ : Nat) (source : Except IoError Entry) (m : Moment) :
    Fleet × Retry :=
  match r.attempts[at_]? with
  | some (.queued index ctx) =>
    let (fleet, landing) := Flight.start fleet index ctx source m
    (fleet, r.settle at_ index landing)
  | _ => (fleet, r)

/-- Goes on with a flight at a position where its wait ended. -/
def resume (fleet : Fleet) (r : Retry) (at_ : Nat) (f : Flight) (m : Moment) (e : Event f.wait) :
    Fleet × Retry :=
  let (fleet, landing) := f.resume fleet m e
  (fleet, r.settle at_ f.index landing)

/-- Ends the attempt at a position: an upgrade that succeeded no longer counts as a failure. -/
def account (fleet : Fleet) (r : Retry) (at_ : Nat) : Fleet × Retry :=
  match r.attempts[at_]? with
  | some (.landed _ false) =>
    ({ fleet with failureCount := fleet.failureCount - 1 }, ⟨r.attempts.eraseIdx at_⟩)
  | some (.landed _ true) => (fleet, ⟨r.attempts.eraseIdx at_⟩)
  | _ => (fleet, r)

end Retry

/-- How far a cleanup is. -/
inductive CleanupPhase where
  /-- It waits before a pass. -/
  | waiting (until_ : Instant)
  /-- It makes a pass. -/
  | retrying (r : Retry)
  | ended (result : Except RunError Unit)
  | crashed (text : String)

/-- Passes until no upgrade is left that failed. `made` passes have been begun. -/
structure Cleanup where
  passes : Nat
  delay : Duration
  made : Nat
  phase : CleanupPhase

namespace Cleanup

/-- Goes on after `made` passes: it ends, or waits before the next pass. -/
def proceed (fleet : Fleet) (ctx : Context) (m : Moment) (passes : Nat) (delay : Duration)
    (made : Nat) : Cleanup :=
  let phase : CleanupPhase :=
    if fleet.failures.isEmpty then .ended (.ok ())
    else if passes ≤ made then .ended (.error (.retryExhausted fleet.failures.length passes))
    else match ctx.stopped m with
      | some reason => .ended (.error (.interrupted reason))
      | none => .waiting (m.now.wakeAfter delay)
  ⟨passes, delay, made, phase⟩

/-- Begins a cleanup. -/
def start (fleet : Fleet) (ctx : Context) (m : Moment) (passes : Nat) (delay : Duration) :
    Cleanup := proceed fleet ctx m passes delay 0

/-- Goes on after the wait before a pass. -/
def waited (c : Cleanup) (fleet : Fleet) (ctx : Context) (m : Moment) : Cleanup :=
  { c with
    made := c.made + 1
    phase := match Retry.start? fleet ctx m.now with
      | none => .crashed Run.clockOverflow
      | some r => .retrying r }

/-- Ends because the context stopped in the wait before a pass. -/
def interrupt (c : Cleanup) (reason : StopReason) : Cleanup :=
  { c with phase := .ended (.error (.interrupted reason)) }

/-- Goes on after a pass. -/
def passed (c : Cleanup) (fleet : Fleet) (ctx : Context) (m : Moment) : Cleanup :=
  proceed fleet ctx m c.passes c.delay c.made

end Cleanup

namespace Fleet

/-- The message of an operation on a fleet whose rollout ended otherwise than it has to. -/
def misuse (text : String) (found expected : EndState) : String :=
  "assertion \x60left == right\x60 failed: " ++ text ++ "\n  left: " ++ found.text ++
    "\n right: " ++ expected.text

/-- Refuses a second rollout of a fleet. -/
def mayRun (f : Fleet) : Except String Unit :=
  if f.endState = .unknown then .ok ()
  else .error (misuse "a workflow can only be run once" f.endState .unknown)

/-- Refuses an operation on a fleet whose rollout did not succeed. -/
def mayRetry (f : Fleet) (operation : String) : Except String Unit :=
  if f.endState = .success then .ok ()
  else
    .error (misuse (operation ++ " called on a workflow that did not succeed") f.endState .success)

end Fleet

end Rollout
