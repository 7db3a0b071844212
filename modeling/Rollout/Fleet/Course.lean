import Rollout.Fleet.Run
import Rollout.Fleet.Retry
import Rollout.Pool.Table
import Rollout.Upgrade.History

/-!
# Courses of a rollout

Every way in which a rollout can go, and the passes that try its failed upgrades again.

* `Surroundings` are what a rollout depends on: the time, the binary, and how its waits end. They
  are `Calm` when no work crashes, and they are `Over` a table of pools when the load balancer holds
  that table and nobody else changes it.
* A `Scene` is what there is between two steps. In a step of `Scene.Acts` the rollout goes on by
  itself, in a step of `Scene.Hears` a wait ends. Where several steps are possible, any of them may
  come next.
* A `Course` is steps one after the other, with time between them, and tells what happened.
-/

namespace Rollout

/-! ## Surroundings -/

/-- What a rollout depends on. -/
structure Surroundings (σ : Type) where
  /-- The time, and what was cancelled by then. -/
  moment : σ → Moment
  /-- What can become of the surroundings while a rollout waits. -/
  passes : σ → σ → Prop
  /-- What opening the binary can give. -/
  opens : σ → Except IoError Entry → Prop
  /-- How a wait within a context can end, and what becomes of the surroundings then. -/
  ends : σ → Context → (w : Wait) → Event w → σ → Prop

/-- Whether a load balancer whose table can be changed so, or not, answers with `r` and then has the
table `t'`. -/
def Table.Serves (t : Table) (change : Except PoolError Table) (r : Except PoolError Unit)
    (t' : Table) : Prop :=
  match change with
  | .ok changed => r = .ok () ∧ t' = changed
  | .error e => r = .error e ∧ t' = t

/-- Whether a load balancer with the table `t` lets a wait end so, and has the table `t'` then. A
call that is given up, and a call to another, leaves the table alone. -/
def Table.Answers (t : Table) : {w : Wait} → Event w → Table → Prop
  | .call (.poolHealth pattern), .result r, t' => r = t.health pattern ∧ t' = t
  | .call (.removeBackend pattern b), .result r, t' => t.Serves (t.removeBackend pattern b) r t'
  | .call (.addBackend pattern b), .result r, t' => t.Serves (t.addBackend pattern b) r t'
  | .call (.addPool pattern type checks), .result r, t' =>
    t.Serves (t.addPool pattern type checks) r t'
  | _, _, t' => t' = t

namespace Surroundings

variable {σ : Type}

/-- No work crashes. -/
def Calm (env : Surroundings σ) : Prop :=
  ∀ {s s' : σ} {ctx : Context} {w : Wait} {e : Event w}, env.ends s ctx w e s' → e.IsCalm

/-- The load balancer holds a table that nobody else changes. -/
structure Over (env : Surroundings σ) (table : σ → Table) : Prop where
  passes : ∀ {s s' : σ}, env.passes s s' → table s' = table s
  ends : ∀ {s s' : σ} {ctx : Context} {w : Wait} {e : Event w}, env.ends s ctx w e s' →
    (table s).Answers e (table s')

/-- A table that nobody else changes, and a moment: all else may go in any way that is no crash. -/
def free : Surroundings (Table × Moment) where
  moment s := s.2
  passes s s' := s'.1 = s.1
  opens _ _ := True
  ends s _ _ e s' := e.IsCalm ∧ s.1.Answers e s'.1

theorem free_calm : free.Calm := fun h => h.1

theorem free_over : free.Over Prod.fst := ⟨fun h => h, fun h => h.2⟩

end Surroundings

/-! ## Happenings -/

/-- Something that others can see of a rollout. -/
inductive Happening where
  /-- The load balancer is asked for the health of the pool. -/
  | asked (m : Moment)
  /-- The run of the upgrade at an index is entered. -/
  | entered (m : Moment) (index : Nat)
  /-- The run of the upgrade at an index does something. -/
  | did (m : Moment) (index : Nat) (d : Deed)
  /-- The run of the upgrade at an index returns. -/
  | returned (m : Moment) (index : Nat) (result : Except UpgradeError Unit)

namespace Happening

/-- The upgrade that something happens to. -/
def index? : Happening → Option Nat
  | asked _ => none
  | entered _ index | did _ index _ | returned _ index _ => some index

/-- The upgrade whose run is entered. -/
def entered? : Happening → Option Nat
  | entered _ index => some index
  | _ => none

/-- The upgrade whose run returns, and what it returns. -/
def returned? : Happening → Option (Nat × Except UpgradeError Unit)
  | returned _ index result => some (index, result)
  | _ => none

end Happening

/-- What is seen of a landing. -/
def Landing.happenings (m : Moment) (index : Nat) : Landing → List Happening
  | .landed result => [.returned m index result]
  | _ => []

namespace Flight

/-- What is seen of the beginning of a flight. -/
def startHappenings (fleet : Fleet) (index : Nat) (ctx : Context) (source : Except IoError Entry)
    (m : Moment) : List Happening :=
  let deeds := match fleet.upgrade? index, source with
    | some u, .ok source => u.startDeeds (fleet.job u source) ctx m
    | _, _ => []
  .entered m index :: (deeds.map (.did m index) ++
    (start fleet index ctx source m).2.happenings m index)

/-- What is seen of a flight where its wait ended. -/
def resumeHappenings (fleet : Fleet) (f : Flight) (m : Moment) (e : Event f.wait) :
    List Happening :=
  let deeds := match fleet.upgrade? f.index with
    | some u => u.resumeDeeds f.job f.ctx m f.position e
    | none => []
  deeds.map (.did m f.index) ++ (f.resume fleet m e).2.happenings m f.index

end Flight

namespace Run

/-- What is seen of a rollout that has just begun. -/
def happenings (m : Moment) : Run → List Happening
  | gate _ => [.asked m]
  | _ => []

/-- What is seen of the beginning of the canary at an index within a context. -/
def beginHappenings (fleet : Fleet) (source : Except IoError Entry) (m : Moment) (index : Nat) :
    Option Context → List Happening
  | none => []
  | some inner => Flight.startHappenings fleet index inner source m

/-- What is seen where the canary at an index is due. -/
def canaryHappenings (fleet : Fleet) (ctx : Context) (source : Except IoError Entry) (m : Moment)
    (index : Nat) : List Happening :=
  if index < fleet.canaries then
    beginHappenings fleet source m index (ctx.within? m.now fleet.config.actionTimeout)
  else []

end Run

/-! ## Scenes -/

/-- What a fleet is at: nothing yet, its rollout, or a pass over its failed upgrades. -/
inductive Phase where
  | idle
  | rollout (r : Run)
  | retry (r : Retry)

/-- The flight of an admitted upgrade, when it is under way. -/
def Admitted.flight? : Admitted → Option Flight
  | flying f => some f
  | _ => none

/-- Whether an admitted upgrade has landed. -/
def Admitted.hasLanded : Admitted → Bool
  | landed _ _ | counted _ => true
  | _ => false

namespace Attempt

/-- The place of an attempt's upgrade in the fleet. -/
def index : Attempt → Nat
  | queued index _ => index
  | flying f => f.index
  | landed index _ => index

/-- The flight of an attempt, when it is under way. -/
def flight? : Attempt → Option Flight
  | flying f => some f
  | _ => none

/-- Whether an attempt has landed. -/
def hasLanded : Attempt → Bool
  | landed _ _ => true
  | _ => false

end Attempt

namespace Phase

/-- The flights that are under way. -/
def flights : Phase → List Flight
  | rollout (.canary f) => [f]
  | rollout (.bulk b) => b.admitted.filterMap Admitted.flight?
  | retry r => r.attempts.filterMap Attempt.flight?
  | _ => []

/-- Whether nothing is under way after the rollout, so that a pass may begin. -/
def isOver : Phase → Bool
  | rollout (.ended _) => true
  | retry r => r.isOver
  | _ => false

/-- Whether the rollout crashed. -/
def hasCrashed : Phase → Bool
  | rollout (.crashed _) => true
  | _ => false

end Phase

/-- What there is between two steps. -/
structure Scene (σ : Type) where
  around : σ
  fleet : Fleet
  phase : Phase

namespace Scene

variable {σ : Type}

/-- A scene of a rollout. -/
def ofRun (s : σ) (x : Fleet × Run) : Scene σ := ⟨s, x.1, .rollout x.2⟩

/-- A scene of a rollout after its canaries. -/
def ofBulk (s : σ) (x : Fleet × Bulk) : Scene σ := ⟨s, x.1, .rollout (.bulk x.2)⟩

/-- A scene of a pass. -/
def ofRetry (s : σ) (x : Fleet × Retry) : Scene σ := ⟨s, x.1, .retry x.2⟩

@[simp] theorem ofRun_fleet (s : σ) (x : Fleet × Run) : (ofRun s x).fleet = x.1 := rfl

@[simp] theorem ofRun_phase (s : σ) (x : Fleet × Run) : (ofRun s x).phase = .rollout x.2 := rfl

@[simp] theorem ofBulk_fleet (s : σ) (x : Fleet × Bulk) : (ofBulk s x).fleet = x.1 := rfl

@[simp] theorem ofBulk_phase (s : σ) (x : Fleet × Bulk) :
    (ofBulk s x).phase = .rollout (.bulk x.2) := rfl

@[simp] theorem ofRetry_fleet (s : σ) (x : Fleet × Retry) : (ofRetry s x).fleet = x.1 := rfl

@[simp] theorem ofRetry_phase (s : σ) (x : Fleet × Retry) : (ofRetry s x).phase = .retry x.2 := rfl

/-- The steps that a rollout within a context takes by itself. A pass has its own context. -/
inductive Acts (env : Surroundings σ) (ctx : Context) : Scene σ → List Happening → Scene σ → Prop
  | start {s : σ} {fleet : Fleet} :
    Acts env ctx ⟨s, fleet, .idle⟩
      ((Run.start fleet ctx (env.moment s)).2.happenings (env.moment s))
      (.ofRun s (Run.start fleet ctx (env.moment s)))
  | canaryDue {s : σ} {fleet : Fleet} {index : Nat} {source : Except IoError Entry} :
    env.opens s source →
      Acts env ctx ⟨s, fleet, .rollout (.canaryDue index)⟩
        (Run.canaryHappenings fleet ctx source (env.moment s) index)
        (.ofRun s (Run.nextCanary fleet ctx source (env.moment s) index))
  | lead {s : σ} {fleet fleet' : Fleet} {b b' : Bulk} :
    b.leadStep fleet ctx (env.moment s).now = .moved fleet' b' →
      Acts env ctx ⟨s, fleet, .rollout (.bulk b)⟩ [] ⟨s, fleet', .rollout (.bulk b')⟩
  | conclude {s : σ} {fleet fleet' : Fleet} {b : Bulk} {result : Except RunError Unit} :
    b.leadStep fleet ctx (env.moment s).now = .ended fleet' result →
      Acts env ctx ⟨s, fleet, .rollout (.bulk b)⟩ [] ⟨s, fleet', .rollout (.ended result)⟩
  | overflow {s : σ} {fleet fleet' : Fleet} {b : Bulk} :
    b.leadStep fleet ctx (env.moment s).now = .overflowed fleet' →
      Acts env ctx ⟨s, fleet, .rollout (.bulk b)⟩ []
        ⟨s, fleet', .rollout (.crashed Run.clockOverflow)⟩
  | takeOff {s : σ} {fleet : Fleet} {b : Bulk} {at_ index : Nat} {inner : Context}
      {source : Except IoError Entry} :
    b.admitted[at_]? = some (.queued index inner) → env.opens s source →
      Acts env ctx ⟨s, fleet, .rollout (.bulk b)⟩
        (Flight.startHappenings fleet index inner source (env.moment s))
        (.ofBulk s (b.takeOff fleet at_ source (env.moment s)))
  | account {s : σ} {fleet : Fleet} {b : Bulk} {at_ : Nat} {a : Admitted} :
    b.admitted[at_]? = some a → a.hasLanded = true →
      Acts env ctx ⟨s, fleet, .rollout (.bulk b)⟩ [] (.ofBulk s (b.account fleet at_))
  | again {s : σ} {fleet : Fleet} {phase : Phase} {inner : Context} {r : Retry} :
    phase.isOver = true → fleet.mayRetry "retry_failed" = .ok () →
      Retry.start? fleet inner (env.moment s).now = some r →
      Acts env ctx ⟨s, fleet, phase⟩ [] ⟨s, fleet, .retry r⟩
  | takeOffAgain {s : σ} {fleet : Fleet} {r : Retry} {at_ index : Nat} {inner : Context}
      {source : Except IoError Entry} :
    r.attempts[at_]? = some (.queued index inner) → env.opens s source →
      Acts env ctx ⟨s, fleet, .retry r⟩
        (Flight.startHappenings fleet index inner source (env.moment s))
        (.ofRetry s (r.takeOff fleet at_ source (env.moment s)))
  | accountAgain {s : σ} {fleet : Fleet} {r : Retry} {at_ : Nat} {a : Attempt} :
    r.attempts[at_]? = some a → a.hasLanded = true →
      Acts env ctx ⟨s, fleet, .retry r⟩ [] (.ofRetry s (r.account fleet at_))

/-- The steps in which a wait ends. -/
inductive Hears (env : Surroundings σ) (ctx : Context) :
    Scene σ → List Happening → Scene σ → Prop
  | gate {s s' : σ} {fleet : Fleet} {inner : Context} {e : Event (Run.gateCall fleet)} :
    env.ends s inner (Run.gateCall fleet) e s' →
      Hears env ctx ⟨s, fleet, .rollout (.gate inner)⟩ [] (.ofRun s' (Run.gateAnswered fleet e))
  | canary {s s' : σ} {fleet : Fleet} {f : Flight} {e : Event f.wait} :
    env.ends s f.ctx f.wait e s' →
      Hears env ctx ⟨s, fleet, .rollout (.canary f)⟩ (f.resumeHappenings fleet (env.moment s') e)
        (.ofRun s' (Run.canaryResumed fleet (env.moment s') f e))
  | cooldown {s s' : σ} {fleet : Fleet} {until_ : Instant} {e : Event (.pause until_)} :
    env.ends s ctx (.pause until_) e s' →
      Hears env ctx ⟨s, fleet, .rollout (.cooldown until_)⟩ [] (.ofRun s' (Run.cooledDown fleet))
  | bulk {s s' : σ} {fleet : Fleet} {b : Bulk} {at_ : Nat} {f : Flight} {e : Event f.wait} :
    b.admitted[at_]? = some (.flying f) → env.ends s f.ctx f.wait e s' →
      Hears env ctx ⟨s, fleet, .rollout (.bulk b)⟩ (f.resumeHappenings fleet (env.moment s') e)
        (.ofBulk s' (b.resume fleet at_ f (env.moment s') e))
  | retry {s s' : σ} {fleet : Fleet} {r : Retry} {at_ : Nat} {f : Flight} {e : Event f.wait} :
    r.attempts[at_]? = some (.flying f) → env.ends s f.ctx f.wait e s' →
      Hears env ctx ⟨s, fleet, .retry r⟩ (f.resumeHappenings fleet (env.moment s') e)
        (.ofRetry s' (r.resume fleet at_ f (env.moment s') e))

end Scene

/-- The scenes that a rollout within a context can come to, with what happened on the way. -/
inductive Course {σ : Type} (env : Surroundings σ) (ctx : Context) (x : Scene σ) :
    List Happening → Scene σ → Prop
  | here : Course env ctx x [] x
  | later {hs : List Happening} {s s' : σ} {fleet : Fleet} {phase : Phase} :
    Course env ctx x hs ⟨s, fleet, phase⟩ → env.passes s s' →
      Course env ctx x hs ⟨s', fleet, phase⟩
  | act {hs new : List Happening} {y z : Scene σ} :
    Course env ctx x hs y → y.Acts env ctx new z → Course env ctx x (hs ++ new) z
  | hear {hs new : List Happening} {y z : Scene σ} :
    Course env ctx x hs y → y.Hears env ctx new z → Course env ctx x (hs ++ new) z

end Rollout
