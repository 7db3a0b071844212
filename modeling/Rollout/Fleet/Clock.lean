import Rollout.Fleet.Course

/-!
# Courses in time

What clocks, replies and cancellations say of the waits of a rollout.

* `Moment.Precedes`: the clock goes on, and what is cancelled stays cancelled. A context that has
  stopped by a moment has stopped by any later one (`Context.isSome_stopped_later`).
* `Surroundings.Timely`: no pause ends before its time, and no wait ends for its context before that
  context has stopped. `Surroundings.timed` are such surroundings over a table of pools.
* `Context.Scopes`: how a wait ends whose reply comes at a known time, or never, within a context
  whose source is cancelled at a known time, or never. What comes first counts, and the reply where
  both come at once. In `Surroundings.replying` all waits end so.
-/

namespace Rollout

/-! ## Moments -/

/-- A moment is no later than another: the clock goes on, and what is cancelled stays so. -/
structure Moment.Precedes (m m' : Moment) : Prop where
  now : m.now ≤ m'.now
  cancelled : ∀ source ∈ m.cancelled, source ∈ m'.cancelled

namespace Moment.Precedes

variable {m m' m'' : Moment}

theorem refl (m : Moment) : m.Precedes m := ⟨Nat.le_refl _, fun _ h => h⟩

theorem trans (h : m.Precedes m') (h' : m'.Precedes m'') : m.Precedes m'' :=
  ⟨Nat.le_trans h.now h'.now, fun source hs => h'.cancelled source (h.cancelled source hs)⟩

end Moment.Precedes

namespace Context

variable {ctx : Context} {m m' : Moment}

/-- A context has stopped when its source is cancelled or its deadline has come. -/
theorem isSome_stopped : (ctx.stopped m).isSome = (ctx.isCancelled m || ctx.isExpired m) := by
  unfold stopped
  cases ctx.isCancelled m <;> cases ctx.isExpired m <;> rfl

theorem isCancelled_later (hm : m.Precedes m') (h : ctx.isCancelled m = true) :
    ctx.isCancelled m' = true := by
  unfold isCancelled at h ⊢
  cases hs : ctx.source with
  | none => rw [hs] at h; cases h
  | some source =>
    rw [hs] at h
    exact List.contains_iff_mem.mpr (hm.cancelled source (List.contains_iff_mem.mp h))

theorem isExpired_later (hm : m.Precedes m') (h : ctx.isExpired m = true) :
    ctx.isExpired m' = true := by
  unfold isExpired at h ⊢
  cases hd : ctx.deadline with
  | none => rw [hd] at h; cases h
  | some deadline =>
    rw [hd] at h
    exact decide_eq_true (Nat.le_trans (of_decide_eq_true h) hm.now)

/-- A context that has stopped does not go on again. -/
theorem isSome_stopped_later (hm : m.Precedes m') (h : (ctx.stopped m).isSome) :
    (ctx.stopped m').isSome := by
  rw [isSome_stopped, Bool.or_eq_true] at h ⊢
  exact h.imp (isCancelled_later hm) (isExpired_later hm)

/-- A context with one more deadline stops no later. -/
theorem isSome_stopped_bounded (deadline : Instant) (h : (ctx.stopped m).isSome) :
    ((ctx.bounded deadline).stopped m).isSome := by
  rw [isSome_stopped, Bool.or_eq_true] at h ⊢
  refine h.imp (fun h => h) fun h => ?_
  unfold isExpired at h ⊢
  cases hd : ctx.deadline with
  | none => rw [hd] at h; cases h
  | some earlier =>
    rw [hd] at h
    simp only [bounded, hd, Option.any_some, decide_eq_true_eq] at h ⊢
    exact Nat.le_trans (Nat.min_le_left _ _) h

end Context

/-! ## Waits in time -/

/-- Whether a wait within a context can end so at a moment: a pause not before its time, nor in a
crash, and any wait for its context not before that has stopped. -/
def Context.Times (ctx : Context) (m : Moment) : {w : Wait} → Event w → Prop
  | .pause until_, .result _ => until_ ≤ m.now
  | .pause _, .crashed _ => False
  | _, .stopped reason => ctx.stopped m = some reason
  | _, _ => True

namespace Surroundings

variable {σ : Type}

/-- The clock goes on, what is cancelled stays cancelled, and waits end in time. -/
structure Timely (env : Surroundings σ) : Prop where
  passes : ∀ {s s' : σ}, env.passes s s' → (env.moment s).Precedes (env.moment s')
  ends : ∀ {s s' : σ} {ctx : Context} {w : Wait} {e : Event w}, env.ends s ctx w e s' →
    (env.moment s).Precedes (env.moment s') ∧ ctx.Times (env.moment s') e

/-- A table that nobody else changes, and a clock: all else may go in any way that is no crash. -/
def timed : Surroundings (Table × Moment) where
  moment s := s.2
  passes s s' := s'.1 = s.1 ∧ s.2.Precedes s'.2
  opens _ _ := True
  ends s ctx _ e s' := e.IsCalm ∧ s.1.Answers e s'.1 ∧ s.2.Precedes s'.2 ∧ ctx.Times s'.2 e

theorem timed_timely : timed.Timely := ⟨fun h => h.2, fun h => h.2.2⟩

end Surroundings

/-! ## Replies -/

namespace Context

/-- When a context stops whose source is cancelled at a time, or never. -/
def stopsAt (ctx : Context) (cancel : Option Instant) : Option Instant :=
  ctx.deadline.merge min cancel

/-- Whether a reply comes to a context, and no later than the context stops. -/
def Receives {α : Type} (ctx : Context) (cancel : Option Instant) (reply : Option (Instant × α))
    (r : α) : Prop :=
  ∃ t, reply = some (t, r) ∧ ∀ stop ∈ ctx.stopsAt cancel, t ≤ stop

/-- Whether a wait within a context, whose reply comes at a time or never, can end so at a moment:
with the reply when that comes, unless the context stopped before; and for the context when that has
stopped, unless the reply came before or at the same time. -/
def Scopes (ctx : Context) (cancel : Option Instant) (m : Moment) {w : Wait} :
    Event w → Option (Instant × w.Result) → Prop
  | .result r, reply => reply = some (m.now, r) ∧ ∀ stop ∈ ctx.stopsAt cancel, m.now ≤ stop
  | .stopped reason, reply => ctx.stopped m = some reason ∧
    ∃ stop ∈ ctx.stopsAt cancel, ∀ t r, reply = some (t, r) → stop < t
  | .crashed _, _ => False

variable {ctx : Context} {cancel : Option Instant} {w : Wait}
  {reply : Option (Instant × w.Result)} {m : Moment}

theorem Receives.eq {α : Type} {reply : Option (Instant × α)} {r r' : α}
    (h : ctx.Receives cancel reply r) (h' : ctx.Receives cancel reply r') : r = r' := by
  obtain ⟨t, ht, -⟩ := h
  obtain ⟨t', ht', -⟩ := h'
  rw [ht] at ht'
  exact (Prod.mk.inj (Option.some.inj ht')).2

/-- The reply ends the wait when it is in time. -/
theorem Scopes.result {r : w.Result} (h : ctx.Scopes cancel m (.result r) reply) :
    ctx.Receives cancel reply r := ⟨m.now, h⟩

/-- Nothing is received by a wait that ends for its context. -/
theorem Scopes.stopped {reason : StopReason} (h : ctx.Scopes cancel m (.stopped reason) reply)
    (r : w.Result) : ¬ ctx.Receives cancel reply r := by
  obtain ⟨-, stop, hstop, hlate⟩ := h
  rintro ⟨t, ht, hle⟩
  exact Nat.not_lt.mpr (hle stop hstop) (hlate t r ht)

end Context

namespace Surroundings

/-- A clock, and one reply to each wait; the source of all contexts is cancelled at a time, or
never. The binary can be opened or not. -/
def replying (cancel : Option Instant) (reply : (w : Wait) → Option (Instant × w.Result)) :
    Surroundings Moment where
  moment m := m
  passes m m' := m.Precedes m'
  opens _ _ := True
  ends m ctx w e m' := m.Precedes m' ∧ ctx.Scopes cancel m' e (reply w)

end Surroundings

end Rollout
