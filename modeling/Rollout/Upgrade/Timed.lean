import Rollout.Fleet.Clock

/-!
# Runs of an upgrade in time

What is known of a run when the time of each reply is, and the time when its context's source is
cancelled.

* `Due` is something that becomes ready at a point of time, or never, and `sooner` the first of two.
* `Wait.ready` is when and how a wait would end by itself, `Context.done` when and why a context
  stops, and `Context.scope` what comes first.
* `Upgrade.Timed` is a run whose waits end so, with the moment of each of its deeds.
* `Context.chain?` is a context that was made from another by one limit after the other.
-/

namespace Rollout

/-! ## What becomes ready -/

/-- Something that becomes ready at a point of time, or never. -/
abbrev Due (α : Type) : Type := Option (Instant × α)

/-- The one of two that is ready first; the first of them where both are ready at once. -/
def sooner {α : Type} : Due α → Due α → Due α
  | none, b => b
  | a, none => a
  | some a, some b => if a.1 ≤ b.1 then some a else some b

/-- What the work of a wait is answered with; a pause is not answered. -/
abbrev Wait.Reply : Wait → Type
  | .call c | .limited c _ => c.Answer
  | .pause _ => Empty

/-- When and how a wait that began at a time ends by itself. Its work is answered, or crashes, at a
time or never. An answer at the very end of a limit is in time. -/
def Wait.ready (begun : Instant) : (w : Wait) → Due (Except String w.Reply) → Due (Event w)
  | .call _, reply => reply.map fun
    | (t, .ok r) => (t, .result r)
    | (t, .error text) => (t, .crashed text)
  | .limited _ limit, reply =>
    sooner (reply.map fun
      | (t, .ok r) => (t, .result (some r))
      | (t, .error text) => (t, .crashed text))
      (some (max begun limit, .result none))
  | .pause until_, _ => some (max begun until_, .result ())

namespace Context

/-- When and why a context stops whose source is cancelled at a time, or never. Where the deadline
comes at that very time, either reason may be given. -/
def done (ctx : Context) (cancel : Option Instant) (cancelFirst : Bool) : Due StopReason :=
  let cancelled := cancel.map (·, .cancelled)
  let expired := ctx.deadline.map (·, .deadlineExceeded)
  if cancelFirst then sooner cancelled expired else sooner expired cancelled

/-- When and how a wait within a context ends: as it would by itself, unless the context stops
before. -/
def scope (ctx : Context) (cancel : Option Instant) (cancelFirst : Bool) (begun : Instant)
    (w : Wait) (reply : Due (Except String w.Reply)) : Due (Event w) :=
  sooner (w.ready begun reply)
    ((ctx.done cancel cancelFirst).map fun (t, reason) => (t, .stopped reason))

/-- What a moment shows of a context whose source is cancelled at a time, or never: at that very
time the source may be cancelled already, or not yet. -/
structure Sees (ctx : Context) (cancel : Option Instant) (m : Moment) : Prop where
  source : ∀ t ∈ cancel, ctx.source.isSome
  cancelled : ctx.isCancelled m = true → ∃ t ∈ cancel, t ≤ m.now
  later : ∀ t ∈ cancel, t < m.now → ctx.isCancelled m = true

/-- The context that is made by one limit after the other, each from a point of time on; none where
the clock cannot show one of their ends. -/
def chain? (root : Context) : List (Instant × Duration) → Option Context
  | [] => some root
  | (now, timeout) :: rest => (root.within? now timeout).bind (·.chain? rest)

end Context

/-! ## Runs -/

/-- A run that found its binary, the moment of each of its deeds, and the moment of its last step.
The source of its context is cancelled at a time, or never. -/
inductive Upgrade.Timed (cancel : Option Instant) (u : Upgrade) (j : Job) (ctx : Context)
    (m₀ : Moment) : List (Moment × Deed) → Moment → Upgrade × Progress → Prop
  | start : ctx.Sees cancel m₀ →
    Timed cancel u j ctx m₀ ((u.startDeeds j ctx m₀).map (m₀, ·)) m₀ (u.start j ctx m₀)
  | resume {log : List (Moment × Deed)} {m m' : Moment} {v : Upgrade} {p : Position}
    {e : Event (p.wait j)} (cancelFirst : Bool) (reply : Due (Except String (p.wait j).Reply)) :
    Timed cancel u j ctx m₀ log m (v, .waiting p) →
      m.Precedes m' → ctx.Sees cancel m' → (∀ x ∈ reply, m.now ≤ x.1) →
      ctx.scope cancel cancelFirst m.now (p.wait j) reply = some (m'.now, e) →
      Timed cancel u j ctx m₀ (log ++ (v.resumeDeeds j ctx m' p e).map (m', ·)) m'
        (v.resume j ctx m' p e)

end Rollout
