import Rollout.Deploy.Basic
import Rollout.Rehearsal.World

/-!
# Rehearsals

Plays upgrades, rollouts, retries and deployments against a rehearsed world. Everyone has a turn,
upgrades side by side before the lead that waits for them, and goes on in it until it waits or
reads. When nobody else can go on, those that read go on; when nobody reads, the clock jumps to the
next point of time where someone wakes.
-/

namespace Rollout.Rehearsal

/-- The most steps of a rehearsal. -/
def patience : Nat := 10000000

/-- Work that can be played: what its turns are, when it may wake again, and whether it is over. -/
structure Work (σ : Type) where
  poll : World → σ → World × σ
  points : World → σ → List Instant
  isOver : σ → Bool

/-- Plays work to its end. -/
def play (work : Work σ) : Nat → World → σ → World × σ
  | 0, w, s => (w, s)
  | fuel + 1, w, s =>
    let (w, s) := work.poll w s
    if work.isOver s then (w, s)
    else if w.time.hasDue then play work fuel { w with time := w.time.fire } s
    else if w.isReading then play work fuel w.finishReading s
    else match w.time.jump? (work.points w s) with
      | some time => play work fuel { w with time } s
      | none => (w, s)

/-- What opening the binary gives. -/
def opened (w : World) (c : Config) : Except IoError Entry := w.files.openEntry c.src

/-! ## Flights -/

/-- Goes on with a flight until it waits, reads or lands. -/
def fly (slot : Slot) : Nat → World → Fleet → Flight → World × Fleet × Landing
  | 0, w, fleet, f => (w, fleet, .flying f)
  | fuel + 1, w, fleet, f =>
    match w.ask slot (some f.ctx) f.wait with
    | (w, none) => (w, fleet, .flying f)
    | (w, some e) =>
      match f.resume fleet w.moment e with
      | (fleet, .flying f) => fly slot fuel w fleet f
      | (fleet, landing) => (w, fleet, landing)

/-- When the wait of a flight may end. -/
def flightPoints (w : World) (slot : Slot) (f : Flight) : List Instant :=
  w.points slot (some f.ctx) f.wait

/-! ## One upgrade -/

/-- The run of a single upgrade: its fleet of one, and how far it is. -/
structure Single where
  fleet : Fleet
  landing : Landing

/-- The run of a single upgrade as work. -/
def single : Work Single where
  poll w s :=
    match s.landing with
    | .flying f =>
      let (w, fleet, landing) := fly (.flight f.index) patience w s.fleet f
      (w, ⟨fleet, landing⟩)
    | _ => (w, s)
  points w s :=
    match s.landing with
    | .flying f => flightPoints w (.flight f.index) f
    | _ => []
  isOver s :=
    match s.landing with
    | .flying _ => false
    | _ => true

/-- Runs the first upgrade of a fleet. -/
def runUpgrade (w : World) (fleet : Fleet) (ctx : Context) : World × Single :=
  let (fleet, landing) := Flight.start fleet 0 ctx (opened w fleet.config) w.moment
  play single patience w ⟨fleet, landing⟩

/-! ## Rollouts -/

/-- Goes on with the admitted upgrade of an index until it waits, reads or gives its permit back. The
next one has its turn then, also where the answers to both are due at once. -/
def pollAdmitted (index : Nat) : Nat → World → Fleet → Bulk → World × Fleet × Bulk
  | 0, w, fleet, b => (w, fleet, b)
  | fuel + 1, w, fleet, b =>
    match b.admitted.findIdx? (·.index == index) with
    | none => (w, fleet, b)
    | some at_ =>
      match b.admitted[at_]? with
      | some (.queued _ _) =>
        let (fleet, b) := b.takeOff fleet at_ (opened w fleet.config) w.moment
        pollAdmitted index fuel w fleet b
      | some (.flying f) =>
        match w.ask (.flight index) (some f.ctx) f.wait with
        | (w, none) => (w, fleet, b)
        | (w, some e) =>
          let (fleet, b) := b.resume fleet at_ f w.moment e
          pollAdmitted index fuel w fleet b
      | _ =>
        let (fleet, b) := b.account fleet at_
        pollAdmitted index fuel w fleet b

/-- Gives every admitted upgrade its turn, in order. -/
def pollAll (w : World) (fleet : Fleet) (b : Bulk) : World × Fleet × Bulk :=
  (b.admitted.map (·.index)).foldl
    (fun (w, fleet, b) index => pollAdmitted index patience w fleet b) (w, fleet, b)

/-- Goes on with the lead until it is blocked. -/
def pollLead (ctx : Context) (now : Instant) : Nat → Fleet → Bulk → Fleet × Run
  | 0, fleet, b => (fleet, .bulk b)
  | fuel + 1, fleet, b =>
    match b.leadStep fleet ctx now with
    | .moved fleet b => pollLead ctx now fuel fleet b
    | .blocked => (fleet, .bulk b)
    | .ended fleet result => (fleet, .ended result)
    | .overflowed fleet => (fleet, .crashed Run.clockOverflow)

/-- Whether an upgrade was admitted but not begun. -/
def hasQueued (b : Bulk) : Bool :=
  b.admitted.any fun
    | .queued _ _ => true
    | _ => false

/-- Goes on with a rollout until all of it waits or reads. -/
def pollRun (ctx : Context) : Nat → World → Fleet → Run → World × Fleet × Run
  | 0, w, fleet, r => (w, fleet, r)
  | fuel + 1, w, fleet, r =>
    match r with
    | .gate inner =>
      match w.ask .lead (some inner) (Run.gateCall fleet) with
      | (w, none) => (w, fleet, r)
      | (w, some e) =>
        let (fleet, r) := Run.gateAnswered fleet e
        pollRun ctx fuel w fleet r
    | .canaryDue index =>
      let (fleet, r) := Run.nextCanary fleet ctx (opened w fleet.config) w.moment index
      pollRun ctx fuel w fleet r
    | .canary f =>
      match w.ask .lead (some f.ctx) f.wait with
      | (w, none) => (w, fleet, r)
      | (w, some e) =>
        let (fleet, r) := Run.canaryResumed fleet w.moment f e
        pollRun ctx fuel w fleet r
    | .cooldown until_ =>
      match w.ask .lead (some ctx) (.pause until_) with
      | (w, none) => (w, fleet, r)
      | (w, some _) =>
        let (fleet, r) := Run.cooledDown fleet
        pollRun ctx fuel w fleet r
    | .bulk b =>
      let (w, fleet, b) := pollAll w fleet b
      match pollLead ctx w.now patience fleet b with
      | (fleet, .bulk b) =>
        if hasQueued b then pollRun ctx fuel w fleet (.bulk b) else (w, fleet, .bulk b)
      | (fleet, .crashed text) => ({ w with pending := [] }, fleet, .crashed text)
      | (fleet, r) => (w, fleet, r)
    | r => (w, fleet, r)

/-- When a rollout may go on. -/
def runPoints (ctx : Context) (w : World) (fleet : Fleet) : Run → List Instant
  | .gate inner => w.points .lead (some inner) (Run.gateCall fleet)
  | .canary f => flightPoints w .lead f
  | .cooldown until_ => w.points .lead (some ctx) (.pause until_)
  | .bulk b => b.admitted.flatMap fun
    | .flying f => flightPoints w (.flight f.index) f
    | _ => []
  | _ => []

/-- Whether a rollout is over. -/
def runIsOver : Run → Bool
  | .ended _ | .crashed _ => true
  | _ => false

/-- A rollout as work. -/
def rollout (ctx : Context) : Work (Fleet × Run) where
  poll w s :=
    let (w, fleet, r) := pollRun ctx patience w s.1 s.2
    (w, (fleet, r))
  points w s := runPoints ctx w s.1 s.2
  isOver s := runIsOver s.2

/-- Runs a rollout. -/
def run (w : World) (fleet : Fleet) (ctx : Context) : World × Fleet × Run :=
  play (rollout ctx) patience w (Run.start fleet ctx w.moment)

/-! ## Retries -/

/-- Goes on with the attempt of an index until it waits, reads or ends. -/
def pollAttempt (index : Nat) : Nat → World → Fleet → Retry → World × Fleet × Retry
  | 0, w, fleet, r => (w, fleet, r)
  | fuel + 1, w, fleet, r =>
    let isHere (a : Attempt) : Bool :=
      match a with
      | .queued i _ | .landed i _ => i == index
      | .flying f => f.index == index
    match r.attempts.findIdx? isHere with
    | none => (w, fleet, r)
    | some at_ =>
      match r.attempts[at_]? with
      | some (.queued _ _) =>
        let (fleet, r) := r.takeOff fleet at_ (opened w fleet.config) w.moment
        pollAttempt index fuel w fleet r
      | some (.flying f) =>
        match w.ask (.flight index) (some f.ctx) f.wait with
        | (w, none) => (w, fleet, r)
        | (w, some e) =>
          let (fleet, r) := r.resume fleet at_ f w.moment e
          pollAttempt index fuel w fleet r
      | _ =>
        let (fleet, r) := r.account fleet at_
        pollAttempt index fuel w fleet r

/-- Gives every attempt of a pass its turn, in order. -/
def pollRetry (w : World) (fleet : Fleet) (r : Retry) : World × Fleet × Retry :=
  (r.attempts.map fun
    | .queued i _ | .landed i _ => i
    | .flying f => f.index).foldl
    (fun (w, fleet, r) index => pollAttempt index patience w fleet r) (w, fleet, r)

/-- When a pass may go on. -/
def retryPoints (w : World) (r : Retry) : List Instant :=
  r.attempts.flatMap fun
    | .flying f => flightPoints w (.flight f.index) f
    | _ => []

/-- A pass as work. -/
def pass : Work (Fleet × Retry) where
  poll w s :=
    let (w, fleet, r) := pollRetry w s.1 s.2
    (w, (fleet, r))
  points w s := retryPoints w s.2
  isOver s := s.2.isOver

/-- Makes a pass; none when the clock cannot show the end of its time. -/
def retry (w : World) (fleet : Fleet) (ctx : Context) : World × Option Fleet :=
  match Retry.start? fleet ctx w.now with
  | none => (w, none)
  | some r =>
    let (w, fleet, _) := play pass patience w (fleet, r)
    (w, some fleet)

/-- Goes on with a cleanup until all of it waits or reads. -/
def pollCleanup (ctx : Context) : Nat → World → Fleet → Cleanup → World × Fleet × Cleanup
  | 0, w, fleet, c => (w, fleet, c)
  | fuel + 1, w, fleet, c =>
    match c.phase with
    | .waiting until_ =>
      match w.ask .lead (some ctx) (.pause until_) with
      | (w, none) => (w, fleet, c)
      | (w, some (.stopped reason)) => (w, fleet, c.interrupt reason)
      | (w, some _) => pollCleanup ctx fuel w fleet (c.waited fleet ctx w.moment)
    | .retrying r =>
      let (w, fleet, r) := pollRetry w fleet r
      if r.isOver then pollCleanup ctx fuel w fleet (c.passed fleet ctx w.moment)
      else (w, fleet, { c with phase := .retrying r })
    | _ => (w, fleet, c)

/-- When a cleanup may go on. -/
def cleanupPoints (ctx : Context) (w : World) (c : Cleanup) : List Instant :=
  match c.phase with
  | .waiting until_ => w.points .lead (some ctx) (.pause until_)
  | .retrying r => retryPoints w r
  | _ => []

/-- A cleanup as work. -/
def cleanup (ctx : Context) : Work (Fleet × Cleanup) where
  poll w s :=
    let (w, fleet, c) := pollCleanup ctx patience w s.1 s.2
    (w, (fleet, c))
  points w s := cleanupPoints ctx w s.2
  isOver s :=
    match s.2.phase with
    | .ended _ | .crashed _ => true
    | _ => false

/-- Makes passes until no upgrade is left that failed. -/
def retryUntilClean (w : World) (fleet : Fleet) (ctx : Context) (passes : Nat)
    (delay : Duration) : World × Fleet × Cleanup :=
  play (cleanup ctx) patience w (fleet, .start fleet ctx w.moment passes delay)

/-! ## Deployments -/

/-- Goes on with a deployment until all of it waits or reads. -/
def pollDeploy (c : Config) (ctx : Context) : Nat → World → Deploy → World × Deploy
  | 0, w, d => (w, d)
  | fuel + 1, w, d =>
    match d with
    | .ensuring =>
      match w.ask .lead none (Deploy.ensureCall c) with
      | (w, none) => (w, d)
      | (w, some e) => pollDeploy c ctx fuel w (Deploy.ensured c ctx w.moment e)
    | .creating =>
      match w.ask .lead none (Deploy.createCall c) with
      | (w, none) => (w, d)
      | (w, some e) => pollDeploy c ctx fuel w (Deploy.created c ctx w.moment e)
    | .running fleet r =>
      let (w, fleet, r) := pollRun ctx patience w fleet r
      if runIsOver r then pollDeploy c ctx fuel w (Deploy.ofRun ctx w.moment (fleet, r))
      else (w, .running fleet r)
    | .cleaning fleet cl =>
      let (w, fleet, cl) := pollCleanup ctx patience w fleet cl
      (w, Deploy.ofCleanup fleet cl)
    | d => (w, d)

/-- When a deployment may go on. -/
def deployPoints (c : Config) (ctx : Context) (w : World) : Deploy → List Instant
  | .ensuring => w.points .lead none (Deploy.ensureCall c)
  | .creating => w.points .lead none (Deploy.createCall c)
  | .running fleet r => runPoints ctx w fleet r
  | .cleaning _ cl => cleanupPoints ctx w cl
  | _ => []

/-- A deployment as work. -/
def deployment (c : Config) (ctx : Context) : Work Deploy where
  poll := pollDeploy c ctx patience
  points := deployPoints c ctx
  isOver
    | .ended _ | .crashed _ => true
    | _ => false

/-- Deploys a configuration. -/
def deploy (w : World) (c : Config) (ctx : Context) : World × Deploy :=
  play (deployment c ctx) patience w .ensuring

end Rollout.Rehearsal
