import Rollout.Fleet.Course
import Rollout.Upgrade.Timed

/-!
# Rollouts in virtual time

How a rollout goes on a clock that stands still while anyone has something to do.

* `Context.latest` is until when a wait lasts that is never answered, and `Scene.waits` are the
  waits under way.
* `Surroundings.Live`: time passes, the binary can be opened or not, and a wait whose time has come
  ends.
* `Scene.Goes` are the steps of a rollout. Who can go on does so at once; when nobody can, time
  passes, but no further than the first of the waits lasts. A `Prompt` course is any number of them.
* `Inevitable`: whatever comes next, steps lead to what is wanted. `Scene.Inevitable` says so of a
  rollout.
* `Fleet.longest` is how long a rollout may take.
-/

namespace Rollout

/-! ## Waits -/

/-- Until when a wait within a context lasts that is under way at a moment and never answered; none
when it lasts forever. A context whose source is cancelled stops now. -/
def Context.latest (ctx : Context) (m : Moment) (w : Wait) : Option Instant :=
  (ctx.scope (if ctx.isCancelled m then some m.now else none) true m.now w none).map Prod.fst

/-- Whether a rollout is to begin or under way. -/
def Phase.isUnderWay : Phase → Bool
  | idle | rollout (.gate _) | rollout (.canaryDue _) | rollout (.canary _)
  | rollout (.cooldown _) | rollout (.bulk _) => true
  | _ => false

/-- The waits under way in a scene of a rollout, each with its context. -/
def Scene.waits {σ : Type} (ctx : Context) (x : Scene σ) : List (Context × Wait) :=
  match x.phase with
  | .rollout (.gate inner) => [(inner, Run.gateCall x.fleet)]
  | .rollout (.cooldown until_) => [(ctx, .pause until_)]
  | phase => phase.flights.map fun f => (f.ctx, f.wait)

namespace Surroundings

variable {σ : Type}

/-- What can become of the surroundings while the clock stands still. -/
def Turns (env : Surroundings σ) (s s' : σ) : Prop :=
  s' = s ∨ (env.passes s s' ∧ (env.moment s').now = (env.moment s).now)

/-- The surroundings never stand in the way: time passes, the binary can be opened or not, and a
wait whose time has come ends, in whatever way. -/
structure Live (env : Surroundings σ) : Prop where
  passes : ∀ {s : σ} {t : Instant}, (env.moment s).now < t →
    ∃ s', env.passes s s' ∧ (env.moment s').now = t
  opens : ∀ s : σ, ∃ source, env.opens s source
  ends : ∀ {s : σ} {ctx : Context} {w : Wait} {t : Instant}, ctx.latest (env.moment s) w = some t →
    t ≤ (env.moment s).now → ∃ e s', env.ends s ctx w e s' ∧
      (env.moment s').now = (env.moment s).now

end Surroundings

/-! ## Steps -/

/-- The steps of a rollout within a context. -/
inductive Scene.Goes {σ : Type} (env : Surroundings σ) (ctx : Context) :
    Scene σ → List Happening → Scene σ → Prop
  /-- It goes on by itself, at once. -/
  | acts {s s' : σ} {fleet : Fleet} {phase : Phase} {new : List Happening} {y : Scene σ} :
    phase.isUnderWay = true → env.Turns s s' → Scene.Acts env ctx ⟨s', fleet, phase⟩ new y →
      Goes env ctx ⟨s, fleet, phase⟩ new y
  /-- A wait ends. -/
  | hears {x y : Scene σ} {new : List Happening} : x.phase.isUnderWay = true →
    x.Hears env ctx new y → (env.moment y.around).now = (env.moment x.around).now →
      Goes env ctx x new y
  /-- Nobody can go on by himself, and time passes while all waits last. -/
  | rests {s s' : σ} {fleet : Fleet} {phase : Phase} : phase.isUnderWay = true →
    (∀ new y, ¬ Scene.Acts env ctx ⟨s, fleet, phase⟩ new y) → env.passes s s' →
    (env.moment s).now < (env.moment s').now →
    (∀ w ∈ Scene.waits ctx ⟨s, fleet, phase⟩, ∀ t, w.1.latest (env.moment s) w.2 = some t →
      (env.moment s').now ≤ t) →
      Goes env ctx ⟨s, fleet, phase⟩ [] ⟨s', fleet, phase⟩

/-- The scenes that a rollout within a context comes to, with what happened on the way. -/
inductive Prompt {σ : Type} (env : Surroundings σ) (ctx : Context) (x : Scene σ) :
    List Happening → Scene σ → Prop
  | here : Prompt env ctx x [] x
  | step {hs new : List Happening} {y z : Scene σ} : Prompt env ctx x hs y → y.Goes env ctx new z →
    Prompt env ctx x (hs ++ new) z

/-- Whatever comes next, what has happened and where it led to will be as wanted: the steps of
`Goes` can always go on, and not forever. -/
inductive Inevitable {α : Type} (Goes : α → List Happening → α → Prop)
    (Wanted : List Happening → α → Prop) : List Happening → α → Prop
  | now {hs : List Happening} {x : α} : Wanted hs x → Inevitable Goes Wanted hs x
  | later {hs : List Happening} {x : α} : (∃ new y, Goes x new y) →
    (∀ new y, Goes x new y → Inevitable Goes Wanted (hs ++ new) y) → Inevitable Goes Wanted hs x

/-- Whatever comes next, a rollout to which something has happened comes to a scene as wanted. -/
abbrev Scene.Inevitable {σ : Type} (env : Surroundings σ) (ctx : Context)
    (Wanted : List Happening → Scene σ → Prop) : List Happening → Scene σ → Prop :=
  Rollout.Inevitable (Scene.Goes env ctx) Wanted

/-! ## Lengths -/

namespace Fleet

/-- In how many rounds the upgrades after the canaries run, when as many run side by side as may:
their number divided by that of the permits, and rounded up. -/
def rounds (f : Fleet) : Nat :=
  if f.size = f.canaries then 0 else (f.size - f.canaries + (f.capacity - 1)) / f.capacity

/-- How long a rollout may take: the time for the check of the pool, for each canary, for the wait
after them and for each round of the others. -/
def longest (f : Fleet) : Duration :=
  ⟨f.config.preconditionTimeout.nanos + f.canaries * f.config.actionTimeout.nanos +
    (if 0 < f.canaries then f.config.canaryCooldown.nanos else 0) +
    f.rounds * f.config.actionTimeout.nanos⟩

end Fleet

end Rollout
