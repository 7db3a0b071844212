import Rollout.Time

/-!
# Contexts

A context says until when work may go on. It stops when its source is cancelled or its deadline
passes, and a context made from it stops no later.

* A `Moment` is a point of time together with the sources that were cancelled by then.
* `Context.stopped` is why a context has stopped by a moment; a cancelled source counts before a
  deadline.
-/

namespace Rollout

/-- Why a context stopped. -/
inductive StopReason where
  | cancelled
  | deadlineExceeded
deriving DecidableEq, Repr

/-- Why a context stopped, in words. -/
def StopReason.message : StopReason → String
  | cancelled => "context canceled"
  | deadlineExceeded => "context deadline exceeded"

/-- A point of time and the sources that were cancelled by then. -/
structure Moment where
  now : Instant
  cancelled : List Nat
deriving DecidableEq, Repr, Inhabited

/-- A limit of work: a deadline, and a source that may be cancelled. -/
structure Context where
  deadline : Option Instant
  source : Option Nat
deriving DecidableEq, Repr, Inhabited

namespace Context

/-- A context that never stops. -/
def background : Context := ⟨none, none⟩

/-- A context that stops when its source is cancelled. -/
def ofSource (source : Nat) : Context := ⟨none, some source⟩

/-- A context that stops at a deadline too. -/
def bounded (ctx : Context) (deadline : Instant) : Context :=
  ⟨some (match ctx.deadline with
    | some earlier => min earlier deadline
    | none => deadline), ctx.source⟩

/-- A context that stops after a time too, where a clock can show that point. -/
def within? (ctx : Context) (now : Instant) (timeout : Duration) : Option Context :=
  (now.after? timeout).map ctx.bounded

/-- Whether the source of a context is cancelled. -/
def isCancelled (ctx : Context) (m : Moment) : Bool := ctx.source.any m.cancelled.contains

/-- Whether the deadline of a context has come. -/
def isExpired (ctx : Context) (m : Moment) : Bool := ctx.deadline.any (· ≤ m.now)

/-- Why a context has stopped. -/
def stopped (ctx : Context) (m : Moment) : Option StopReason :=
  if ctx.isCancelled m then some .cancelled
  else if ctx.isExpired m then some .deadlineExceeded
  else none

end Context

end Rollout
