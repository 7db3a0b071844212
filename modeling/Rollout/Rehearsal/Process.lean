import Rollout.Channel.Signal
import Rollout.Text.Path
import Rollout.Time

/-!
# Rehearsed processes

The processes of a rehearsed host. A process dies some time after a signal, unless it ignores the
signal; it is gone from the moment when the clock shows that point.
-/

namespace Rollout

/-- What a signal does to a process: it dies after some time, or nothing. -/
inductive Reaction where
  | dies (after : Duration)
  | ignores
deriving DecidableEq, Repr

/-- A process. -/
structure Process where
  pid : Pid
  name : String
  onTerm : Reaction
  onKill : Reaction
  death : Option Instant
deriving DecidableEq, Repr

namespace Process

/-- Whether a process lives. -/
def isAlive (p : Process) (now : Instant) : Bool := p.death.all (now < ·)

/-- What a signal does to a process. -/
def reaction (p : Process) : Signal → Reaction
  | .term => p.onTerm
  | .kill => p.onKill

/-- A process after a signal. It never dies later than before. -/
def receive (p : Process) (s : Signal) (now : Instant) : Process :=
  match p.reaction s with
  | .ignores => p
  | .dies after =>
    let death := now.after after
    { p with death := some (match p.death with
      | some earlier => min earlier death
      | none => death) }

end Process

/-- A host: its processes in order, and how many programs were started on it. -/
structure Host where
  processes : List Process
  starts : Nat
deriving DecidableEq, Repr, Inhabited

namespace Host

/-- The processes that live. -/
def live (h : Host) (now : Instant) : List Process := h.processes.filter (·.isAlive now)

/-- The host after a signal to the first living process with a number; none when there is none. -/
def signal? (h : Host) (s : Signal) (pid : Pid) (now : Instant) : Option Host :=
  let hit (p : Process) : Bool := p.pid == pid && p.isAlive now
  if h.processes.any hit then
    some { h with processes :=
      h.processes.takeWhile (fun p => !hit p) ++
        match h.processes.dropWhile (fun p => !hit p) with
        | p :: rest => p.receive s now :: rest
        | [] => [] }
  else none

/-- The number of the process that the first start makes. -/
def firstPid : Nat := 1000

/-- The name of the process that runs a program. -/
def programName (program : String) : String :=
  String.ofList ((Text.Path.split '/' program.toList).getLastD [])

/-- The host after a start. -/
def start (h : Host) (program : String) : Host :=
  ⟨h.processes ++ [⟨UInt32.ofNat (firstPid + h.starts), programName program, .dies ⟨0⟩, .dies ⟨0⟩,
    none⟩], h.starts + 1⟩

end Host

end Rollout
