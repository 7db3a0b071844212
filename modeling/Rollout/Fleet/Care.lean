import Rollout.Fleet.Course

/-!
# Care for a fleet after its rollout

Every way in which failed upgrades can be tried again: in one pass, or in a cleanup.

* A `Leg` is a course in which no new pass begins.
* `Cleaning.Goes` are the steps of a cleanup: its waits, and those of its passes.
* `Tended.Goes` are the steps of a fleet that one pass or cleanup after the other is asked for, each
  within a context of its own, and `Tending` is any number of them.
-/

namespace Rollout

/-- The scenes that one comes to before a new pass begins, with what happened on the way. -/
inductive Leg {σ : Type} (env : Surroundings σ) (ctx : Context) (x : Scene σ) :
    List Happening → Scene σ → Prop
  | here : Leg env ctx x [] x
  | later {hs : List Happening} {s s' : σ} {fleet : Fleet} {phase : Phase} :
    Leg env ctx x hs ⟨s, fleet, phase⟩ → env.passes s s' → Leg env ctx x hs ⟨s', fleet, phase⟩
  | act {hs new : List Happening} {y z : Scene σ} : Leg env ctx x hs y → y.phase.isOver = false →
    y.Acts env ctx new z → Leg env ctx x (hs ++ new) z
  | hear {hs new : List Happening} {y z : Scene σ} : Leg env ctx x hs y →
    y.Hears env ctx new z → Leg env ctx x (hs ++ new) z

/-- A fleet with a cleanup. -/
structure Cleaning (σ : Type) where
  around : σ
  fleet : Fleet
  cleanup : Cleanup

/-- The steps of a cleanup within a context. -/
inductive Cleaning.Goes {σ : Type} (env : Surroundings σ) (ctx : Context) :
    Cleaning σ → List Happening → Cleaning σ → Prop
  | later {s s' : σ} {fleet : Fleet} {c : Cleanup} : env.passes s s' →
    Goes env ctx ⟨s, fleet, c⟩ [] ⟨s', fleet, c⟩
  | waited {s s' : σ} {fleet : Fleet} {c : Cleanup} {until_ : Instant} :
    c.phase = .waiting until_ → env.ends s ctx (.pause until_) (.result ()) s' →
      Goes env ctx ⟨s, fleet, c⟩ [] ⟨s', fleet, c.waited fleet ctx (env.moment s')⟩
  | interrupted {s s' : σ} {fleet : Fleet} {c : Cleanup} {until_ : Instant} {reason : StopReason} :
    c.phase = .waiting until_ → env.ends s ctx (.pause until_) (.stopped reason) s' →
      Goes env ctx ⟨s, fleet, c⟩ [] ⟨s', fleet, c.interrupt reason⟩
  | acts {s s' : σ} {fleet fleet' : Fleet} {c : Cleanup} {r r' : Retry} {new : List Happening} :
    c.phase = .retrying r → r.isOver = false →
    Scene.Acts env ctx ⟨s, fleet, .retry r⟩ new ⟨s', fleet', .retry r'⟩ →
      Goes env ctx ⟨s, fleet, c⟩ new ⟨s', fleet', { c with phase := .retrying r' }⟩
  | hears {s s' : σ} {fleet fleet' : Fleet} {c : Cleanup} {r r' : Retry} {new : List Happening} :
    c.phase = .retrying r →
    Scene.Hears env ctx ⟨s, fleet, .retry r⟩ new ⟨s', fleet', .retry r'⟩ →
      Goes env ctx ⟨s, fleet, c⟩ new ⟨s', fleet', { c with phase := .retrying r' }⟩
  | passed {s : σ} {fleet : Fleet} {c : Cleanup} {r : Retry} :
    c.phase = .retrying r → r.isOver = true →
      Goes env ctx ⟨s, fleet, c⟩ [] ⟨s, fleet, c.passed fleet ctx (env.moment s)⟩

/-- What is under way with a fleet after its rollout: nothing, a pass, or a cleanup. -/
inductive Care where
  | rest
  | pass (r : Retry)
  | cleanup (ctx : Context) (c : Cleanup)

/-- A fleet after its rollout, and what is under way with it. -/
structure Tended (σ : Type) where
  around : σ
  fleet : Fleet
  care : Care

/-- The steps of a fleet after its rollout. -/
inductive Tended.Goes {σ : Type} (env : Surroundings σ) :
    Tended σ → List Happening → Tended σ → Prop
  | later {s s' : σ} {fleet : Fleet} {care : Care} : env.passes s s' →
    Goes env ⟨s, fleet, care⟩ [] ⟨s', fleet, care⟩
  /-- A pass is asked for. -/
  | retries {s : σ} {fleet : Fleet} {inner : Context} {r : Retry} :
    fleet.mayRetry "retry_failed" = .ok () →
    Retry.start? fleet inner (env.moment s).now = some r →
      Goes env ⟨s, fleet, .rest⟩ [] ⟨s, fleet, .pass r⟩
  | acts {ctx : Context} {s s' : σ} {fleet fleet' : Fleet} {r r' : Retry}
      {new : List Happening} : r.isOver = false →
    Scene.Acts env ctx ⟨s, fleet, .retry r⟩ new ⟨s', fleet', .retry r'⟩ →
      Goes env ⟨s, fleet, .pass r⟩ new ⟨s', fleet', .pass r'⟩
  | hears {ctx : Context} {s s' : σ} {fleet fleet' : Fleet} {r r' : Retry}
      {new : List Happening} :
    Scene.Hears env ctx ⟨s, fleet, .retry r⟩ new ⟨s', fleet', .retry r'⟩ →
      Goes env ⟨s, fleet, .pass r⟩ new ⟨s', fleet', .pass r'⟩
  | retried {s : σ} {fleet : Fleet} {r : Retry} : r.isOver = true →
    Goes env ⟨s, fleet, .pass r⟩ [] ⟨s, fleet, .rest⟩
  /-- A cleanup is asked for. -/
  | cleans {s : σ} {fleet : Fleet} {ctx : Context} {passes : Nat} {delay : Duration} :
    fleet.mayRetry "retry_until_clean" = .ok () →
      Goes env ⟨s, fleet, .rest⟩ []
        ⟨s, fleet, .cleanup ctx (.start fleet ctx (env.moment s) passes delay)⟩
  | cleaning {ctx : Context} {s s' : σ} {fleet fleet' : Fleet} {c c' : Cleanup}
      {new : List Happening} : Cleaning.Goes env ctx ⟨s, fleet, c⟩ new ⟨s', fleet', c'⟩ →
      Goes env ⟨s, fleet, .cleanup ctx c⟩ new ⟨s', fleet', .cleanup ctx c'⟩
  | cleaned {s : σ} {fleet : Fleet} {ctx : Context} {c : Cleanup}
      {result : Except RunError Unit} : c.phase = .ended result →
      Goes env ⟨s, fleet, .cleanup ctx c⟩ [] ⟨s, fleet, .rest⟩

/-- What becomes of a fleet after its rollout, with what happened on the way. -/
inductive Tending {σ : Type} (env : Surroundings σ) (x : Tended σ) :
    List Happening → Tended σ → Prop
  | here : Tending env x [] x
  | step {hs new : List Happening} {y z : Tended σ} : Tending env x hs y → y.Goes env new z →
    Tending env x (hs ++ new) z

end Rollout
