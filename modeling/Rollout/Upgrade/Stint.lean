import Rollout.Upgrade.Timed

/-!
# One stage of an upgrade

What becomes of a run from when it enters a stage until it leaves it, within a context that goes on.

* A `Span` is a wait that ended with its result, and from when to when it lasted.
* `Replies` say of each wait when and with what its work is answered.
* `Stint` is a stage under way: the waits that ended so far, the time, and what the run does next.
* `Stint.calls` are the calls that were made so far, also one that is not answered yet.
-/

namespace Rollout

/-- The process that a call signals. -/
def Call.target? (s : Signal) : Call → Option Pid
  | .signal _ s' pid => if s' = s then some pid else none
  | _ => none

/-- The processes that some calls signal, in order. -/
def targets (s : Signal) (calls : List (Instant × Call)) : List Pid :=
  calls.filterMap (·.2.target? s)

/-- A wait that ended with its result. -/
structure Span where
  begun : Instant
  ended : Instant
  wait : Wait
  result : wait.Result

namespace Span

/-- The call that was waited for, and when it was made; none for a pause. -/
def call? (s : Span) : Option (Instant × Call) := s.wait.call?.map (s.begun, ·)

/-- How a lookup is answered; none for any other wait. -/
def lookup? : Span → Option (Except ExecError (List Pid))
  | ⟨_, _, .call (.find _ _), r⟩ => some r
  | _ => none

/-- The processes that a lookup shows: those that it lists, or no process where it fails. None where
its tool is missing, or for any other wait. -/
def shown? (x : Span) : Option (List Pid) :=
  match x.lookup? with
  | some (.ok pids) => some pids
  | some (.error e) => if e.isCommandNotFound then none else some []
  | none => none

/-- The process that could not be signalled, with the signal and the reason. -/
def unsent? : Span → Option (Signal × Pid × ExecError)
  | ⟨_, _, .call (.signal _ s pid), r⟩ =>
    match (r : Except ExecError Unit) with
    | .error e => some (s, pid, e)
    | .ok () => none
  | _ => none

/-- Whether a signal was waited for. -/
def signals (s : Signal) (x : Span) : Bool := x.call?.any fun c => (c.2.target? s).isSome

/-- The processes that a signal is for: the first lookup shows those that are asked to end, and the
last one before the first of them is ended shows those that are. -/
def aims (spans : List Span) : Signal → List Pid
  | .term => (spans.head?.bind shown?).getD []
  | .kill => ((spans.takeWhile fun x => !x.signals .kill).getLast?.bind shown?).getD []

end Span

/-- How long after its beginning the work of a wait is answered, and with what; none where it never
is. The waits of a stage are counted from zero. -/
abbrev Replies : Type := Nat → (w : Wait) → Option (Duration × w.Reply)

namespace Replies

/-- When and with what the work of a wait is answered. -/
def due (replies : Replies) (n : Nat) (begun : Instant) (w : Wait) :
    Due (Except String w.Reply) :=
  (replies n w).map fun (after, r) => (begun.after after, .ok r)

/-- Whether a span is for a probe that is answered some time after its beginning, no later than
`last` or at once, and finds the endpoint healthy; `n` waits ended before it. -/
def HealthyAfter (replies : Replies) (last : Instant) (n : Nat) (x : Span) (after : Duration) :
    Prop :=
  ∃ endpoint limit, x.wait = .limited (.probe endpoint) limit ∧
    replies n (.limited (.probe endpoint) limit) = some (after, ProbeResult.healthy) ∧
    x.begun.after after ≤ max x.begun last

/-- Whether every call is answered at once. -/
def AtOnce (replies : Replies) : Prop := ∀ n c, ∃ r, replies n (.call c) = some (⟨0⟩, r)

end Replies

/-- Whether a stage is over. -/
def Step.isOver : Step → Bool
  | .stay _ => false
  | .passed | .failed _ => true

/-- The call that a run makes where it waits next. -/
def Step.call? (j : Job) : Step → Option Call
  | .stay p => (p.wait j).call?
  | .passed | .failed _ => none

/-- A stage that a run entered at a time: the waits that ended so far, the time, and what the run
does next. -/
inductive Stint (j : Job) (s : Stage) (t₀ : Instant) (replies : Replies) :
    List Span → Instant → Step → Prop
  | enter {p : Position} : Position.enter j t₀ s = some p →
    Stint j s t₀ replies [] t₀ (.stay p)
  | hear {spans : List Span} {now t : Instant} {p : Position} {r : (p.wait j).Result} :
    Stint j s t₀ replies spans now (.stay p) →
      (p.wait j).ready now (replies.due spans.length now (p.wait j)) = some (t, .result r) →
      Stint j s t₀ replies (spans ++ [⟨now, t, p.wait j, r⟩]) t (p.resume j t r)

/-- The calls of a stage so far, with the time when each was made. -/
def Stint.calls (j : Job) (spans : List Span) (now : Instant) (step : Step) :
    List (Instant × Call) :=
  spans.filterMap Span.call? ++ ((step.call? j).map (now, ·)).toList

end Rollout
