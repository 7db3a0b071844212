import Rollout.Channel.Shell
import Rollout.Pool.Table
import Rollout.Rehearsal.Process
import Rollout.Rehearsal.Rule
import Rollout.Rehearsal.Timeline

/-!
# Rehearsed worlds

A world that answers the calls of a rollout: a table of pools, processes on hosts, and rules. A call
is noted when it is made. Its effect and its answer are decided later, when the delay of the rule
that covers it is over and it has read what it copies.
-/

namespace Rollout

/-- Something noted: a call, or what a copy read. -/
inductive Note where
  | call (c : Call)
  | read (count : Nat) (first : Bytes)
deriving DecidableEq, Repr

/-- A note with its time and its host. -/
structure LogEntry where
  at_ : Instant
  host : String
  note : Note
deriving DecidableEq, Repr

/-- Who waits for a call: the lead of the work, or the upgrade at an index. -/
inductive Slot where
  | lead
  | flight (index : Nat)
deriving DecidableEq, Repr

/-- How far a call is. Reading takes no time, but whoever reads lets all others go on first. -/
inductive CallPhase where
  | delayed
  | reading
  | read
deriving DecidableEq, Repr

/-- A call that was made: when its delay is over, its effect, and how far it is. -/
structure PendingCall where
  due : Instant
  effect : Effect
  phase : CallPhase
deriving DecidableEq, Repr

/-- A world. -/
structure World where
  time : Timeline
  table : Table
  hosts : List (String × Host)
  rules : List Rule
  files : Files
  /-- What was noted, the latest first. -/
  log : List LogEntry
  pending : List (Slot × PendingCall)

namespace World

/-- The clock. -/
def now (w : World) : Instant := w.time.now

/-- The clock and the cancelled sources. -/
def moment (w : World) : Moment := w.time.moment

/-- A host by its name; one that was never used has no processes. -/
def host (w : World) (name : String) : Host := (w.hosts.lookup name).getD ⟨[], 0⟩

/-- Puts a host in the place of the one with its name, or at the end. -/
def putHost (w : World) (name : String) (h : Host) : World :=
  if (w.hosts.lookup name).isSome then
    { w with hosts := w.hosts.map fun e => if e.1 = name then (name, h) else e }
  else { w with hosts := w.hosts ++ [(name, h)] }

/-- Adds a process to a host. -/
def addProcess (w : World) (name : String) (p : Process) : World :=
  let h := w.host name
  w.putHost name { h with processes := h.processes ++ [p] }

/-- Notes something. -/
def record (w : World) (host : String) (note : Note) : World :=
  { w with log := ⟨w.now, host, note⟩ :: w.log }

/-- Makes a call: it is noted, the rules count it, and its delay begins. -/
def place (w : World) (slot : Slot) (c : Call) : World × PendingCall :=
  let rules := w.rules.map (·.count c)
  let effect := Rule.effectOn rules c
  let pending : PendingCall := ⟨w.now.wakeAfter effect.delay, effect, .delayed⟩
  let w := { w with rules }.record c.host (.call c)
  ({ w with pending := (slot, pending) :: w.pending }, pending)

/-- Forgets the call of a slot. -/
def drop (w : World) (slot : Slot) : World :=
  { w with pending := w.pending.filter (·.1 != slot) }

/-! ## Normal effects -/

/-- Changes the table as a call says. -/
def onTable (w : World) (f : Table → Except PoolError Table) : World × Except PoolError Unit :=
  match f w.table with
  | .ok table => ({ w with table }, .ok ())
  | .error e => (w, .error e)

/-- The output of a process lookup. -/
def lookup (w : World) (host : IpAddr) (name : String) : Except ExecError String :=
  let command := Shell.lookup name
  match ((w.host host.text).live w.now).filter fun p => Shell.lookup p.name == command with
  | [] => .error (.nonZeroExit command 1 "")
  | found =>
    .ok (" ".intercalate (found.map fun p => Text.Decimal.text p.pid.toNat) ++ "\n")

/-- Sends a signal. -/
def signal (w : World) (host : IpAddr) (s : Signal) (pid : Pid) :
    World × Except ExecError Unit :=
  match (w.host host.text).signal? s pid w.now with
  | some h => (w.putHost host.text h, .ok ())
  | none =>
    (w, .error (.nonZeroExit (s.command pid) 1
      ("kill: (" ++ Text.Decimal.text pid.toNat ++ ") - No such process")))

/-- Starts a program. -/
def start (w : World) (host : IpAddr) (program : String) : World :=
  w.putHost host.text ((w.host host.text).start program)

/-- How many bytes of what was read are noted. -/
def noted : Nat := 24

/-- The first bytes of a source, or all of them. Nothing has to be read for no byte. -/
def taken (source : Entry) : Option Nat → Except IoError Bytes
  | some 0 => .ok []
  | some n => source.read.map (·.take n)
  | none => source.read

/-- Reads the first bytes of a source, or all of them, and notes it. -/
def read (w : World) (host : IpAddr) (source : Entry) (count : Option Nat) :
    World × Except ExecError Nat :=
  match taken source count with
  | .error e => (w, .error (.io e))
  | .ok content =>
    (w.record host.text (.read content.length (content.take noted)), .ok content.length)

/-! ## Answers -/

/-- A call that fails, or takes effect, or both. -/
def decide (w : World) (apply : Bool) (failure : Option ε)
    (normal : World → World × Except ε α) : World × Except ε α :=
  match failure with
  | none => normal w
  | some e =>
    if apply then
      match normal w with
      | (w, .ok _) => (w, .error e)
      | (w, .error own) => (w, .error own)
    else (w, .error e)

/-- The process numbers in the output of a lookup. -/
def parsed (name : String) : World × Except ExecError String → World × Except ExecError (List Pid)
  | (w, .ok output) => (w, Shell.readPids (Shell.lookup name) output)
  | (w, .error e) => (w, .error e)

/-- Answers a call as an effect says. -/
def answer (w : World) (e : Effect) : (c : Call) → World × c.Answer
  | .poolHealth pattern =>
    match e.failure, e.health with
    | none, some h => (w, .ok h)
    | _, _ => decide w false e.poolError? fun w => (w, w.table.health pattern)
  | .addPool pattern type checks =>
    decide w e.apply e.poolError? fun w => w.onTable (·.addPool pattern type checks)
  | .removeBackend pattern b =>
    decide w e.apply e.poolError? fun w => w.onTable (·.removeBackend pattern b)
  | .addBackend pattern b =>
    decide w e.apply e.poolError? fun w => w.onTable (·.addBackend pattern b)
  | .find host name =>
    match e.stdout with
    | some output => parsed name (w, .ok output)
    | none => parsed name (decide w e.apply e.execError? fun w => (w, w.lookup host name))
  | .signal host s pid =>
    match e.stdout with
    | some _ => (w, .ok ())
    | none => decide w e.apply e.execError? fun w => w.signal host s pid
  | .copy host source _ _ =>
    match e.execError?, w.read host source e.bytes with
    | some error, (w, .ok _) => (w, .error error)
    | _, result => result
  | .start host program _ =>
    decide w e.apply e.execError? fun w => (w.start host program, .ok ())
  | .probe _ => (w, e.probe.getD .healthy)

/-! ## Waiting -/

/-- The call of a slot, which is made if it was not. -/
def pendingCall (w : World) (slot : Slot) (c : Call) : World × PendingCall :=
  match w.pending.lookup slot with
  | some p => (w, p)
  | none => w.place slot c

/-- Puts the pending calls that satisfy a condition where they read, or have read. -/
def mark (w : World) (which : Slot × PendingCall → Bool) (phase : CallPhase) : World :=
  { w with
    pending := w.pending.map fun e => if which e then (e.1, { e.2 with phase }) else e }

/-- Whether a call reads. -/
def isReading (w : World) : Bool := w.pending.any (·.2.phase == .reading)

/-- Ends all reading. -/
def finishReading (w : World) : World := w.mark (·.2.phase == .reading) .read

/-- The answer to the call of a slot, when it is decided. A call that has to read begins with it as
soon as its delay is over. -/
def poll (w : World) (slot : Slot) (c : Call) : World × Option (Except String c.Answer) :=
  let (w, p) := w.pendingCall slot c
  if w.now < p.due then (w, none)
  else if p.effect.reads c && p.phase != .read then (w.mark (·.1 == slot) .reading, none)
  else
    let w := w.drop slot
    match p.effect.panic with
    | some text => (w, some (.error text))
    | none =>
      let (w, a) := w.answer p.effect c
      (w, some (.ok a))

/-- Why the context of a slot stopped, if it has one and it did; its call is then forgotten. -/
def stopped (w : World) (slot : Slot) (ctx : Option Context) : World × Option StopReason :=
  match ctx.bind (·.stopped w.moment) with
  | some reason => (w.drop slot, some reason)
  | none => (w, none)

/-- How the wait of a slot ends, if it does now. What ends by itself counts before a context that
stops. -/
def ask (w : World) (slot : Slot) (ctx : Option Context) :
    (wait : Wait) → World × Option (Event wait)
  | .pause until_ =>
    if until_ ≤ w.now then (w, some (.result ()))
    else
      let (w, reason) := w.stopped slot ctx
      (w, reason.map .stopped)
  | .call c =>
    match w.poll slot c with
    | (w, some (.ok a)) => (w, some (.result a))
    | (w, some (.error text)) => (w, some (.crashed text))
    | (w, none) =>
      let (w, reason) := w.stopped slot ctx
      (w, reason.map .stopped)
  | .limited c limit =>
    match w.poll slot c with
    | (w, some (.ok a)) => (w, some (.result (some a)))
    | (w, some (.error text)) => (w, some (.crashed text))
    | (w, none) =>
      if limit ≤ w.now then (w.drop slot, some (.result none))
      else
        let (w, reason) := w.stopped slot ctx
        (w, reason.map .stopped)

/-- The points of time that may end the wait of a slot. -/
def points (w : World) (slot : Slot) (ctx : Option Context) (wait : Wait) : List Instant :=
  let due := ((w.pending.lookup slot).map (·.due)).toList
  let deadline := (ctx.bind (·.deadline)).toList
  match wait with
  | .pause until_ => until_ :: deadline
  | .call _ => due ++ deadline
  | .limited _ limit => limit :: (due ++ deadline)

end World

end Rollout
