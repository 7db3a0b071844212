import Rollout.Deploy.Course
import Rollout.Proofs.Fleet.Care
import Rollout.Proofs.Fleet.Canaries

/-!
# What a deployment leaves behind

A deployment is clean when every endpoint is upgraded, and its report says so only then.

- **Rollouts that stop** (`Course.stopped`): what a rollout leaves that ends with an error.
- **Cleanups** (`Cleaning.Goes.fits`): what is true of the failures when a cleanup waits or ends.
- **Deployments** (`Deploying.sound`): a deployment goes a course of its fleet.
- **Conclusions** (`Conclusion.Arises`): there are three ways in which a deployment can conclude.
- **Reports** (`Conclusion.report_clean`, `Conclusion.report_refused`, `Conclusion.report_failed`):
  the report in each of them.
- **The law** (`outcome_report`).
-/

namespace Rollout

/-! ## Rollouts that stop -/

/-- What a rollout leaves that ended with an error: it failed at the check of the pool and no
upgrade has an error, or some upgrade has one. -/
def Fleet.Stopped (fleet : Fleet) : RunError → Prop
  | .gate _ => fleet.endState = .preconditionFailure ∧ fleet.failures = []
  | .canary _ _ => fleet.endState = .canaryFailure ∧ fleet.failures ≠ []
  | .maxFailuresExceeded _ _ => fleet.endState = .maxFailuresExceeded ∧ fleet.failures ≠ []
  | _ => False

/-- What is true of a rollout that ended with an error. -/
def Phase.Stopped (fleet : Fleet) : Phase → Prop
  | rollout (.ended (.error e)) => fleet.Stopped e
  | _ => True

namespace Fleet

variable {fleet : Fleet}

theorem failures_ne_nil {i : Nat} {u : Upgrade} (hu : fleet.upgrade? i = some u)
    (he : u.err.isSome) : fleet.failures ≠ [] := fun hnil => by
  have hmem := mem_index_failures.mpr ⟨u, hu, he⟩
  rw [hnil] at hmem
  cases hmem

theorem failures_eq_nil : fleet.failures = [] ↔
    ∀ {i : Nat} {u : Upgrade}, fleet.upgrade? i = some u → u.err = none := by
  refine ⟨fun hnil i u hu => ?_, fun h => List.length_eq_zero_iff.mp (failures_eq_zero h)⟩
  by_contra he
  exact failures_ne_nil hu (Option.isSome_iff_ne_none.mpr he) hnil

theorem IsNew.refuse_stopped (h : fleet.IsNew) (g : GateError) :
    (Run.refuse fleet g).1.Stopped (.gate g) :=
  ⟨rfl, failures_eq_nil.mpr fun hu => Upgrade.IsFresh.err (h.upgrade hu)⟩

/-- A canary whose run returned an error. -/
theorem stopped_canaryLanded {index : Nat} {u v : Upgrade} {landing : Landing}
    (hu : fleet.upgrade? index = some u) (hs : landing.Suits fleet.config index u v) :
    (Phase.rollout (Run.canaryLanded index (fleet.put index v, landing)).2).Stopped
      (Run.canaryLanded index (fleet.put index v, landing)).1 := by
  cases landing with
  | flying f => trivial
  | crashed text => trivial
  | landed result =>
    cases result with
    | ok a => trivial
    | error e => exact ⟨rfl, failures_ne_nil (upgrade?_put_self hu) hs.2⟩

end Fleet

section Stopped

variable {σ : Type} {env : Surroundings σ} {ctx : Context} {x y : Scene σ} {fleet : Fleet} {s : σ}
  {hs new : List Happening}

theorem Scene.Acts.stopped (h : x.Acts env ctx new y) (ho : x.phase.Orderly x.fleet)
    (hc : x.phase.Counted x.fleet) : y.phase.Stopped y.fleet := by
  cases h with
  | @start s fleet =>
    rw [Scene.ofRun_fleet, Scene.ofRun_phase]
    have hs := Run.starts fleet ctx (env.moment s)
    generalize Run.start fleet ctx (env.moment s) = z at hs ⊢
    cases hs with
    | overflows _ => trivial
    | halts _ _ => exact Fleet.IsNew.refuse_stopped ho _
    | asks _ _ => trivial
  | @canaryDue s fleet index source _ =>
    rw [Scene.ofRun_fleet, Scene.ofRun_phase]
    have hn := Run.nexts fleet ctx source (env.moment s) index
    generalize Run.canaryHappenings fleet ctx source (env.moment s) index = seen,
      Run.nextCanary fleet ctx source (env.moment s) index = z at hn ⊢
    cases hn with
    | overflows _ _ => trivial
    | @begins inner hlt _ =>
      obtain ⟨u, v, landing, hu, -, -, -, hs, hstart⟩ :=
        Fleet.Trying.begins ho hlt inner source (env.moment s)
      rw [hstart]
      exact Fleet.stopped_canaryLanded hu hs
    | skips _ _ => trivial
    | rests _ _ _ => trivial
  | @conclude s fleet fleet' b result hl =>
    obtain ⟨-, -, ha, rfl, rfl⟩ := Bulk.conclude_of_ended hl
    have howed : b.owed = 0 := by rw [Bulk.owed, ha]; rfl
    have hc : fleet.failures.length = fleet.failureCount + b.owed := hc
    rw [howed, Nat.add_zero] at hc
    unfold Bulk.conclude
    split
    · rename_i hlt
      refine ⟨rfl, fun hnil => ?_⟩
      have hnil : fleet.failures = [] := hnil
      rw [← hc, hnil] at hlt
      exact Nat.not_lt_zero _ hlt
    · trivial
  | lead _ => trivial
  | overflow _ => trivial
  | takeOff _ _ => trivial
  | account _ _ => trivial
  | again _ _ _ => trivial
  | takeOffAgain _ _ => trivial
  | accountAgain _ _ => trivial

theorem Scene.Hears.stopped (h : x.Hears env ctx new y) (calm : env.Calm)
    (ho : x.phase.Orderly x.fleet) : y.phase.Stopped y.fleet := by
  cases h with
  | @gate s s' fleet inner e _ =>
    rw [Scene.ofRun_fleet, Scene.ofRun_phase]
    have ha := Run.answers fleet e
    generalize Run.gateAnswered fleet e = z at ha ⊢
    cases ha with
    | admits _ => trivial
    | denies _ => exact Fleet.IsNew.refuse_stopped ho _
    | halts => exact Fleet.IsNew.refuse_stopped ho _
    | crashes => trivial
  | @canary s s' fleet f e he =>
    obtain ⟨u, hu, hf⟩ := Fleet.Tends.suits (Fleet.Trying.tends ho) f List.mem_cons_self
    obtain ⟨v, landing, hresume, hs, -⟩ := Flight.resume_suits hu hf (env.moment s') (calm he)
    rw [Scene.ofRun_fleet, Scene.ofRun_phase, Run.canaryResumed, hresume]
    exact Fleet.stopped_canaryLanded hu hs
  | cooldown _ => trivial
  | bulk _ _ => trivial
  | retry _ _ => trivial

/-- What a rollout leaves that ended with an error. -/
theorem Course.stopped (h : Course env ctx ⟨s, fleet, .idle⟩ hs y) (calm : env.Calm)
    (hnew : fleet.IsNew) : y.phase.Stopped y.fleet := by
  induction h with
  | here => trivial
  | later _ _ ih => exact ih
  | act h ha _ => exact ha.stopped (h.orderly calm hnew) (h.counted calm hnew trivial)
  | hear h hh _ => exact hh.stopped calm (h.orderly calm hnew)

/-- All upgrades of a rollout that succeeded have returned. -/
theorem Course.all_returned {c : Config} {timeouts : StageTimeouts}
    (hc : Fleet.ofConfig c timeouts = .ok fleet) (calm : env.Calm) {fleet' : Fleet} {s' : σ}
    (h : Course env ctx ⟨s, fleet, .idle⟩ hs ⟨s', fleet', .rollout (.ended (.ok ()))⟩) :
    ∀ i < c.backends.length, i ∈ (returns hs).map Prod.fst := by
  obtain ⟨-, -, hnew⟩ := Fleet.config_of_ofConfig hc
  have hend : Concluded fleet fleet' hs (.ok ()) := h.told calm hnew
  have hle := hend.success.mp ⟨rfl, h.endState_success hc calm⟩
  intro i hi
  have hsize : fleet.size = c.backends.length :=
    Fleet.length_mapM (Fleet.targets_of_ofConfig hc).2.2.2
  refine hend.returned.mem_iff.mpr (hend.entered.mem_iff.mpr (List.mem_range.mpr ?_))
  have := fleet.canaries_le
  rw [hend.all hle]
  omega

end Stopped

/-! ## Cleanups -/

/-- What is true of the failures in each phase of a cleanup. -/
def CleanupPhase.Fits (fleet : Fleet) : CleanupPhase → Prop
  | waiting _ => fleet.failures ≠ []
  | ended (.ok ()) => fleet.failures = []
  | ended (.error e) => fleet.failures ≠ [] ∧ ∀ g, e ≠ .gate g
  | _ => True

theorem Cleanup.fits_proceed (fleet : Fleet) (ctx : Context) (m : Moment) (passes : Nat)
    (delay : Duration) (made : Nat) :
    (proceed fleet ctx m passes delay made).phase.Fits fleet := by
  unfold proceed
  split
  · rename_i h
    exact List.isEmpty_iff.mp h
  · rename_i h
    have hne : fleet.failures ≠ [] := fun hnil => h (List.isEmpty_iff.mpr hnil)
    split
    · exact ⟨hne, nofun⟩
    · split
      · exact ⟨hne, nofun⟩
      · exact hne

theorem Cleaning.Goes.fits {σ : Type} {env : Surroundings σ} {ctx : Context} {x y : Cleaning σ}
    {new : List Happening} (g : x.Goes env ctx new y) (h : x.cleanup.phase.Fits x.fleet) :
    y.cleanup.phase.Fits y.fleet := by
  cases g with
  | later _ => exact h
  | @waited s s' fleet c until_ hw _ =>
    show CleanupPhase.Fits fleet (Cleanup.waited c fleet ctx (env.moment s')).phase
    unfold Cleanup.waited
    cases Retry.start? fleet ctx (env.moment s').now <;> trivial
  | interrupted hw _ =>
    rw [hw] at h
    exact ⟨h, nofun⟩
  | acts _ _ _ => trivial
  | hears _ _ => trivial
  | passed _ _ => exact Cleanup.fits_proceed _ _ _ _ _ _

/-! ## Deployments -/

section Deployments

variable {σ : Type} {env : Surroundings σ} {c : Config} {ctx : Context} {s : σ} {fleet : Fleet}
  {p : Phase} {hs new : List Happening} {x y : Deployment σ}

/-- The fleet of a configuration comes to a scene, with what happened on the way. -/
def Config.Reaches (c : Config) (env : Surroundings σ) (ctx : Context) (hs : List Happening)
    (y : Scene σ) : Prop :=
  ∃ s₀ fleet₀, Fleet.ofConfig c .standard = .ok fleet₀ ∧
    Course env.restless ctx ⟨s₀, fleet₀, .idle⟩ hs y

/-- The same, after a rollout that succeeded. -/
structure Config.Recovers (c : Config) (env : Surroundings σ) (ctx : Context)
    (hs : List Happening) (y : Scene σ) : Prop where
  reaches : c.Reaches env ctx hs y
  success : y.fleet.endState = .success
  returned : ∀ i < c.backends.length, i ∈ (returns hs).map Prod.fst

/-- What is true of a deployment, with what has happened so far. -/
inductive Deployment.Sound (env : Surroundings σ) (c : Config) (ctx : Context)
    (hs : List Happening) : Deployment σ → Prop
  | ensuring {s : σ} : hs = [] → Sound env c ctx hs ⟨s, .ensuring⟩
  | creating {s : σ} : hs = [] → Sound env c ctx hs ⟨s, .creating⟩
  | refused {s : σ} {e : DeployError} : Sound env c ctx hs ⟨s, .ended (.error e)⟩
  | crashed {s : σ} {text : String} : Sound env c ctx hs ⟨s, .crashed text⟩
  | running {s : σ} {fleet : Fleet} {run : Run} : c.Reaches env ctx hs ⟨s, fleet, .rollout run⟩ →
    Sound env c ctx hs ⟨s, .running fleet run⟩
  /-- The rollout ended with an error. -/
  | failed {s : σ} {fleet : Fleet} {e : RunError} :
    c.Reaches env ctx hs ⟨s, fleet, .rollout (.ended (.error e))⟩ →
      Sound env c ctx hs ⟨s, .ended (.ok (.ofFleet fleet (some e)))⟩
  | cleaning {s : σ} {fleet : Fleet} {cl : Cleanup} {p : Phase} :
    c.Recovers env ctx hs ⟨s, fleet, p⟩ → cl.phase.Meets p → cl.phase.Fits fleet →
      Sound env c ctx hs ⟨s, .cleaning fleet cl⟩
  /-- The cleanup left no failure. -/
  | clean {s : σ} {fleet : Fleet} {p : Phase} : c.Recovers env ctx hs ⟨s, fleet, p⟩ →
    p.isOver = true → fleet.failures = [] →
      Sound env c ctx hs ⟨s, .ended (.ok (.ofFleet fleet none))⟩
  /-- The cleanup ended with failures left. -/
  | unclean {s : σ} {fleet : Fleet} {e : RunError} {p : Phase} :
    c.Recovers env ctx hs ⟨s, fleet, p⟩ → p.isOver = true → fleet.failures ≠ [] →
    (∀ g, e ≠ .gate g) → Sound env c ctx hs ⟨s, .ended (.ok (.ofFleet fleet (some e)))⟩

namespace Config

theorem Reaches.later {s' : σ} (h : c.Reaches env ctx hs ⟨s, fleet, p⟩) :
    c.Reaches env ctx hs ⟨s', fleet, p⟩ := by
  obtain ⟨s₀, fleet₀, hc, hcourse⟩ := h
  exact ⟨s₀, fleet₀, hc, hcourse.later trivial⟩

theorem Recovers.later {s' : σ} (h : c.Recovers env ctx hs ⟨s, fleet, p⟩) :
    c.Recovers env ctx hs ⟨s', fleet, p⟩ := ⟨h.reaches.later, h.success, h.returned⟩

theorem Reaches.act {x y : Scene σ} (h : c.Reaches env ctx hs x) (ha : x.Acts env ctx new y) :
    c.Reaches env ctx (hs ++ new) y := by
  obtain ⟨s₀, fleet₀, hc, hcourse⟩ := h
  exact ⟨s₀, fleet₀, hc, hcourse.act ha.restless⟩

theorem Reaches.hear {x y : Scene σ} (h : c.Reaches env ctx hs x) (hh : x.Hears env ctx new y) :
    c.Reaches env ctx (hs ++ new) y := by
  obtain ⟨s₀, fleet₀, hc, hcourse⟩ := h
  exact ⟨s₀, fleet₀, hc, hcourse.hear hh.restless⟩

theorem Reaches.recovers (h : c.Reaches env ctx hs ⟨s, fleet, .rollout (.ended (.ok ()))⟩)
    (calm : env.Calm) : c.Recovers env ctx hs ⟨s, fleet, .rollout (.ended (.ok ()))⟩ := by
  obtain ⟨s₀, fleet₀, hc, hcourse⟩ := h
  have calm' : env.restless.Calm := calm
  exact ⟨⟨s₀, fleet₀, hc, hcourse⟩, hcourse.endState_success hc calm',
    hcourse.all_returned hc calm'⟩

theorem Recovers.goes {s' : σ} {fleet' : Fleet} {cl cl' : Cleanup}
    (h : c.Recovers env ctx hs ⟨s, fleet, p⟩) (hp : cl.phase.Meets p)
    (g : Cleaning.Goes env ctx ⟨s, fleet, cl⟩ new ⟨s', fleet', cl'⟩) :
    ∃ p', c.Recovers env ctx (hs ++ new) ⟨s', fleet', p'⟩ ∧ cl'.phase.Meets p' := by
  obtain ⟨s₀, fleet₀, hc, hcourse⟩ := h.reaches
  obtain ⟨p', hcourse', hp', hsuccess⟩ := g.course hcourse hp h.success
  refine ⟨p', ⟨⟨s₀, fleet₀, hc, hcourse'⟩, hsuccess, fun i hi => ?_⟩, hp'⟩
  rw [returns_append, List.map_append]
  exact List.mem_append_left _ (h.returned i hi)

end Config

theorem Deploy.happenings_ofRun (m : Moment) (x : Fleet × Run) :
    (Deploy.ofRun ctx m x).happenings m = x.2.happenings m := by
  obtain ⟨fleet, run⟩ := x
  cases run with
  | ended result =>
    cases result with
    | error e => rfl
    | ok a =>
      rw [Deploy.ofRun]
      unfold Deploy.ofCleanup
      split <;> rfl
  | _ => rfl

namespace Deployment.Sound

theorem ofCleanup {cl : Cleanup} (h : c.Recovers env ctx hs ⟨s, fleet, p⟩)
    (hp : cl.phase.Meets p) (hfits : cl.phase.Fits fleet) :
    Sound env c ctx hs ⟨s, .ofCleanup fleet cl⟩ := by
  unfold Deploy.ofCleanup
  split
  · rename_i heq
    rw [heq] at hp hfits
    exact .clean h hp hfits
  · rename_i e heq
    rw [heq] at hp hfits
    exact .unclean h hp hfits.1 hfits.2
  · exact .crashed
  · exact .cleaning h hp hfits

theorem ofRun {x : Fleet × Run} (h : c.Reaches env ctx hs (.ofRun s x)) (calm : env.Calm)
    (m : Moment) : Sound env c ctx hs ⟨s, .ofRun ctx m x⟩ := by
  obtain ⟨fleet, run⟩ := x
  cases run with
  | ended result =>
    cases result with
    | error e => exact .failed h
    | ok a =>
      exact ofCleanup (h.recovers calm) (Cleanup.meets_proceed rfl _ _ _ _ _ _)
        (Cleanup.fits_proceed _ _ _ _ _ _)
  | crashed text => exact .crashed
  | _ => exact .running h

theorem begin_ (calm : env.Calm) :
    Sound env c ctx ((Deploy.begin_ c ctx (env.moment s)).happenings (env.moment s))
      ⟨s, Deploy.begin_ c ctx (env.moment s)⟩ := by
  unfold Deploy.begin_
  cases hc : Fleet.ofConfig c .standard with
  | error e => exact .refused
  | ok fleet =>
    have start : c.Reaches env ctx [] ⟨s, fleet, .idle⟩ := ⟨s, fleet, hc, .here⟩
    have started := start.act .start
    rw [List.nil_append] at started
    simp only [Deploy.happenings_ofRun]
    exact ofRun started calm _

theorem later {s' : σ} {d : Deploy} (h : Sound env c ctx hs ⟨s, d⟩) :
    Sound env c ctx hs ⟨s', d⟩ := by
  cases h with
  | ensuring hnil => exact .ensuring hnil
  | creating hnil => exact .creating hnil
  | refused => exact .refused
  | crashed => exact .crashed
  | running h => exact .running h.later
  | failed h => exact .failed h.later
  | cleaning h hp hfits => exact .cleaning h.later hp hfits
  | clean h hover hnil => exact .clean h.later hover hnil
  | unclean h hover hne hg => exact .unclean h.later hover hne hg

theorem goes (h : Sound env c ctx hs x) (calm : env.Calm) (g : x.Goes env c ctx new y) :
    Sound env c ctx (hs ++ new) y := by
  cases g with
  | later _ =>
    rw [List.append_nil]
    exact h.later
  | @ensured s s' e _ =>
    cases h with
    | ensuring hnil =>
      subst hnil
      cases e with
      | crashed text => exact .crashed
      | stopped reason => exact .ensuring rfl
      | result r =>
        cases r with
        | error e => exact .creating rfl
        | ok health => exact begin_ calm
  | @created s s' e _ =>
    cases h with
    | creating hnil =>
      subst hnil
      cases e with
      | crashed text => exact .crashed
      | stopped reason => exact .creating rfl
      | result r =>
        cases r with
        | error e => exact .refused
        | ok a => exact begin_ calm
  | acts ha =>
    cases h with
    | running h => exact ofRun (h.act ha) calm _
  | hears hh =>
    cases h with
    | running h => exact ofRun (h.hear hh) calm _
  | cleans g =>
    cases h with
    | cleaning h hp hfits =>
      obtain ⟨p', h', hp'⟩ := h.goes hp g
      exact ofCleanup h' hp' (g.fits hfits)

end Deployment.Sound

theorem Deploying.sound (h : Deploying env c ctx ⟨s, .ensuring⟩ hs y) (calm : env.Calm) :
    y.Sound env c ctx hs := by
  induction h with
  | here => exact .ensuring rfl
  | step _ g ih => exact ih.goes calm g

end Deployments

/-! ## Conclusions -/

/-- The configured endpoints are those of the upgrades, in their order. -/
theorem Fleet.endpoints_of_ofConfig {c : Config} {timeouts : StageTimeouts} {fleet : Fleet}
    (h : ofConfig c timeouts = .ok fleet) : fleet.upgrades.map (·.endpoint) = c.backends := by
  refine List.ext_getElem? fun i => ?_
  rw [List.getElem?_map]
  cases hu : fleet.upgrades[i]? with
  | some u => exact (endpoint_of_ofConfig h hu).symm
  | none =>
    have hsize : fleet.size = c.backends.length := length_mapM (targets_of_ofConfig h).2.2.2
    exact (List.getElem?_eq_none (hsize ▸ List.getElem?_eq_none_iff.mp hu)).symm

/-- The ways in which a deployment can conclude. -/
inductive Conclusion.Arises (fleet : Fleet) : Option RunError → Prop
  | clean : fleet.endState = .success → fleet.failures = [] →
    (∀ u ∈ fleet.upgrades, u.current = .done) → Arises fleet none
  /-- The pool did not let the rollout begin. -/
  | refused {g : GateError} : fleet.endState ≠ .success → fleet.failures = [] →
    Arises fleet (some (.gate g))
  | failed {e : RunError} : (∀ g, e ≠ .gate g) → fleet.failures ≠ [] → Arises fleet (some e)

section Conclusions

variable {σ : Type} {env : Surroundings σ} {c : Config} {ctx : Context} {s : σ} {fleet : Fleet}
  {y : Scene σ} {hs : List Happening}

namespace Config

theorem Reaches.progress (h : c.Reaches env ctx hs y) (calm : env.Calm) : y.fleet.Progress hs := by
  obtain ⟨s₀, fleet₀, hc, hcourse⟩ := h
  obtain ⟨-, -, hnew⟩ := Fleet.config_of_ofConfig hc
  have calm' : env.restless.Calm := calm
  exact hcourse.progress calm' hnew

theorem Reaches.endpoints (h : c.Reaches env ctx hs y) :
    y.fleet.upgrades.map (·.endpoint) = c.backends := by
  obtain ⟨s₀, fleet₀, hc, hcourse⟩ := h
  exact hcourse.keeps.endpoints.trans (Fleet.endpoints_of_ofConfig hc)

theorem Reaches.size (h : c.Reaches env ctx hs y) : y.fleet.size = c.backends.length := by
  rw [← h.endpoints, List.length_map, Fleet.size]

theorem Reaches.arises {e : RunError}
    (h : c.Reaches env ctx hs ⟨s, fleet, .rollout (.ended (.error e))⟩) (calm : env.Calm) :
    Conclusion.Arises fleet (some e) := by
  obtain ⟨s₀, fleet₀, hc, hcourse⟩ := h
  obtain ⟨-, -, hnew⟩ := Fleet.config_of_ofConfig hc
  have calm' : env.restless.Calm := calm
  have hstopped : fleet.Stopped e := hcourse.stopped calm' hnew
  cases e with
  | gate g =>
    refine .refused (fun hsuccess => ?_) hstopped.2
    rw [hstopped.1] at hsuccess
    cases hsuccess
  | canary endpoint e => exact .failed nofun hstopped.2
  | maxFailuresExceeded failures limit => exact .failed nofun hstopped.2
  | _ => exact hstopped.elim

/-- When no failure is left after a rollout that succeeded, every upgrade is done. -/
theorem Recovers.arises (h : c.Recovers env ctx hs y) (calm : env.Calm)
    (hnil : y.fleet.failures = []) : Conclusion.Arises y.fleet none := by
  refine .clean h.success hnil fun u hu => ?_
  obtain ⟨i, hi⟩ := List.mem_iff_getElem?.mp hu
  have hu : y.fleet.upgrade? i = some u := hi
  refine (h.reaches.progress calm).settled hu (h.returned i ?_) (Fleet.failures_eq_nil.mp hnil hu)
  exact h.reaches.size ▸ Fleet.lt_size hu

end Config

/-- Where a deployment has concluded, its fleet has come to a scene in which nothing is under
way. -/
theorem Deployment.Sound.concluded {concl : Conclusion}
    (h : Deployment.Sound env c ctx hs ⟨s, .ended (.ok concl)⟩) (calm : env.Calm) :
    ∃ fleet p error, c.Reaches env ctx hs ⟨s, fleet, p⟩ ∧ p.isOver = true ∧
      concl = .ofFleet fleet error ∧ Conclusion.Arises fleet error := by
  cases h with
  | failed h => exact ⟨_, _, _, h, rfl, rfl, h.arises calm⟩
  | clean h hover hnil => exact ⟨_, _, _, h.reaches, hover, rfl, h.arises calm hnil⟩
  | unclean h hover hne hg => exact ⟨_, _, _, h.reaches, hover, rfl, .failed hg hne⟩

end Conclusions

/-! ## Reports -/

/-- The row of an upgrade whose latest run failed. -/
def Upgrade.row? (u : Upgrade) : Option String :=
  u.err.map fun e => Conclusion.row u.endpoint ((u.failed.map Stage.name).getD "-") e.message

namespace Conclusion

variable {concl : Conclusion}

theorem failureRow_eq (f : FailedUpgrade) :
    failureRow f = row f.endpoint ((f.stage.map Stage.name).getD "-") f.error.message := by
  unfold failureRow FailedUpgrade.failure
  cases f.stage with
  | none => rfl
  | some s => cases s <;> rfl

/-- The table has one row for each upgrade that failed, in their order. -/
theorem rows_failuresFrom (k : Nat) (us : List Upgrade) :
    (Fleet.failuresFrom k us).map failureRow = us.filterMap Upgrade.row? := by
  induction us generalizing k with
  | nil => rfl
  | cons u rest ih =>
    rw [Fleet.failuresFrom, List.filterMap_cons, Upgrade.row?]
    cases u.err with
    | none => exact ih (k + 1)
    | some e => rw [List.map_cons, ih (k + 1), failureRow_eq]; rfl

/-- The first line of a report. -/
def title (concl : Conclusion) : String := "\nRollout: " ++ concl.endState.text ++ "\n"

theorem report_clean (he : concl.error = none) (hf : concl.failures = []) :
    concl.report = concl.title ++ "All endpoints upgraded.\n" := by
  unfold report
  rw [he, hf]
  rfl

theorem report_refused {g : GateError} (he : concl.error = some (.gate g)) :
    concl.report = concl.title ++ errorLine g.message := by
  unfold report
  rw [he]
  rfl

theorem report_failed {e : RunError} (he : concl.error = some e) (hg : ∀ g, e ≠ .gate g)
    (hf : concl.failures ≠ []) :
    concl.report = concl.title ++ (errorLine e.message ++ failureTable concl.failures) := by
  unfold report
  rw [he]
  split
  · rename_i g heq
    exact absurd (Option.some.inj heq) (hg g)
  · rw [if_neg fun hnil => hf (List.isEmpty_iff.mp hnil)]
    rfl

/-- The line of an error is not the line of success. -/
theorem errorLine_ne (text rest : String) :
    errorLine text ++ rest ≠ "All endpoints upgraded.\n" := fun h => by
  have hchars := congrArg String.toList h
  rw [errorLine, String.append_assoc, String.append_assoc, String.toList_append] at hchars
  cases hchars

end Conclusion

/-! ## The law -/

/-- What a conclusion says of the fleet that a deployment leaves, with what has happened. -/
structure Conclusion.Tells (c : Config) (hs : List Happening) (fleet : Fleet)
    (concl : Conclusion) : Prop where
  of_fleet : concl = .ofFleet fleet concl.error
  /-- There is an upgrade for each configured endpoint, in their order. -/
  endpoints : fleet.upgrades.map (·.endpoint) = c.backends
  /-- It is clean when the rollout succeeded and every upgrade is done, without an error. -/
  clean : concl.isClean = true ↔
    concl.endState = .success ∧ ∀ u ∈ fleet.upgrades, u.current = .done ∧ u.err = none
  /-- Then each stage of each upgrade succeeded, once and in order. -/
  passed : concl.isClean = true → ∀ i < c.backends.length,
    passedStages i hs = Stage.work ∧ ∀ s ∈ Stage.work, ∃ x ∈ hs, x.Succeeds i s
  /-- There is no other way to the line of the report that all endpoints are upgraded. -/
  upgraded : concl.isClean = true ↔
    (∀ g, concl.error ≠ some (.gate g)) ∧ concl.failures = []
  reported : concl.isClean = true ↔
    concl.report = concl.title ++ "All endpoints upgraded.\n"
  /-- The report of a rollout that did not begin has its error alone. -/
  refused : ∀ g, concl.error = some (.gate g) →
    concl.report = concl.title ++ errorLine g.message
  /-- Any other has a row for each upgrade that failed, in their order. -/
  failed : concl.isClean = false → (∀ g, concl.error ≠ some (.gate g)) →
    ∃ e, concl.error = some e ∧ concl.report = concl.title ++ (errorLine e.message ++
      ("\n" ++ Text.Decimal.text concl.failures.length ++ " endpoint(s) failed:\n\n" ++
        row "ENDPOINT" "FAILED STAGE" "ERROR" ++
        String.join (fleet.upgrades.filterMap Upgrade.row?)))

namespace Conclusion

variable {fleet : Fleet} {error : Option RunError}

theorem isClean_ofFleet :
    (ofFleet fleet error).isClean = true ↔ error = none ∧ fleet.failures = [] := by
  rw [isClean, Bool.and_eq_true, Option.isNone_iff_eq_none, List.isEmpty_iff]
  rfl

theorem Arises.isClean (h : Arises fleet error) : (ofFleet fleet error).isClean = true ↔
    fleet.endState = .success ∧ ∀ u ∈ fleet.upgrades, u.current = .done ∧ u.err = none := by
  rw [isClean_ofFleet]
  constructor
  · rintro ⟨rfl, hnil⟩
    cases h with
    | clean hsuccess _ hdone =>
      refine ⟨hsuccess, fun u hu => ⟨hdone u hu, ?_⟩⟩
      obtain ⟨i, hi⟩ := List.mem_iff_getElem?.mp hu
      exact Fleet.failures_eq_nil.mp hnil hi
  · rintro ⟨hsuccess, hall⟩
    have hnil : fleet.failures = [] :=
      Fleet.failures_eq_nil.mpr fun hu => (hall _ (List.mem_of_getElem? hu)).2
    cases h with
    | clean _ _ _ => exact ⟨rfl, hnil⟩
    | refused hne _ => exact absurd hsuccess hne
    | failed _ hne => exact absurd hnil hne

theorem Arises.upgraded (h : Arises fleet error) : (ofFleet fleet error).isClean = true ↔
    (∀ g, error ≠ some (.gate g)) ∧ fleet.failures = [] := by
  rw [isClean_ofFleet]
  cases h with
  | clean _ hnil _ => exact ⟨fun _ => ⟨nofun, hnil⟩, fun _ => ⟨rfl, hnil⟩⟩
  | refused _ _ => exact ⟨nofun, fun h => absurd rfl (h.1 _)⟩
  | failed _ hne => exact ⟨nofun, fun h => absurd h.2 hne⟩

theorem Arises.reported (h : Arises fleet error) : (ofFleet fleet error).isClean = true ↔
    (ofFleet fleet error).report =
      (ofFleet fleet error).title ++ "All endpoints upgraded.\n" := by
  rw [isClean_ofFleet]
  cases h with
  | clean _ hnil _ => exact ⟨fun _ => report_clean rfl hnil, fun _ => ⟨rfl, hnil⟩⟩
  | refused _ _ =>
    refine ⟨nofun, fun htext => ?_⟩
    rw [report_refused rfl, String.append_right_inj] at htext
    exact (errorLine_ne _ "" (String.append_empty.trans htext)).elim
  | failed hg hne =>
    refine ⟨nofun, fun htext => ?_⟩
    rw [report_failed rfl hg hne, String.append_right_inj] at htext
    exact (errorLine_ne _ _ htext).elim

theorem Arises.failed_report (h : Arises fleet error) (hc : (ofFleet fleet error).isClean = false)
    (hg : ∀ g, error ≠ some (.gate g)) : ∃ e, error = some e ∧
      (ofFleet fleet error).report = (ofFleet fleet error).title ++ (errorLine e.message ++
        failureTable fleet.failures) := by
  cases h with
  | clean _ hnil _ =>
    rw [isClean_ofFleet.mpr ⟨rfl, hnil⟩] at hc
    cases hc
  | refused _ _ => exact absurd rfl (hg _)
  | @failed e hg' hne => exact ⟨e, rfl, report_failed rfl hg' hne⟩

end Conclusion

section Law

variable {σ : Type} {env : Surroundings σ} {c : Config} {ctx : Context} {s s' : σ} {fleet : Fleet}
  {y : Scene σ} {hs : List Happening} {concl : Conclusion}

/-- An upgrade that is done has all its stages behind it. -/
theorem Fleet.Progress.all_passed {i : Nat} {u : Upgrade} (h : fleet.Progress hs)
    (hu : fleet.upgrade? i = some u) (hd : u.current = .done) :
    passedStages i hs = Stage.work ∧ ∀ s ∈ Stage.work, ∃ x ∈ hs, x.Succeeds i s := by
  refine ⟨?_, fun s hs => h.behind hu s ?_⟩
  · rw [h.passed hu, hd]
    rfl
  · rw [hd]
    exact Stage.rank_lt_six fun heq => by rw [heq] at hs; revert hs; decide

theorem Config.Reaches.tells {error : Option RunError} (h : c.Reaches env ctx hs y)
    (calm : env.Calm) (ha : Conclusion.Arises y.fleet error) :
    (Conclusion.ofFleet y.fleet error).Tells c hs y.fleet where
  of_fleet := rfl
  endpoints := h.endpoints
  clean := ha.isClean
  passed hclean i hi := by
    obtain ⟨u, hu⟩ := Fleet.exists_upgrade (h.size ▸ hi : i < y.fleet.size)
    have hd := ((ha.isClean.mp hclean).2 u (List.mem_of_getElem? hu)).1
    exact (h.progress calm).all_passed hu hd
  upgraded := ha.upgraded
  reported := ha.reported
  refused g he := Conclusion.report_refused he
  failed hc hg := by
    rw [← Conclusion.rows_failuresFrom 0]
    exact ha.failed_report hc hg

/-- **A clean deployment upgraded every endpoint, and its report says so.** Whatever becomes of a
deployment that comes to a conclusion, its fleet has gone a course with the same happenings, nothing
is under way any more, and the conclusion is clean, and its report says that all endpoints are
upgraded, exactly when the rollout succeeded and every upgrade is done. -/
theorem outcome_report (calm : env.Calm)
    (h : Deploying env c ctx ⟨s, .ensuring⟩ hs ⟨s', .ended (.ok concl)⟩) :
    ∃ s₀ fleet₀ fleet p, Fleet.ofConfig c .standard = .ok fleet₀ ∧
      Course env.restless ctx ⟨s₀, fleet₀, .idle⟩ hs ⟨s', fleet, p⟩ ∧ p.isOver = true ∧
      concl.Tells c hs fleet := by
  obtain ⟨fleet, p, error, hreaches, hover, rfl, ha⟩ := (h.sound calm).concluded calm
  have htells := hreaches.tells calm ha
  obtain ⟨s₀, fleet₀, hc, hcourse⟩ := hreaches
  exact ⟨s₀, fleet₀, fleet, p, hc, hcourse, hover, htells⟩

end Law

/-! ## A deployment whose canary has no binary -/

/-- The conclusion on a canary that did not find its binary. -/
def missingConclusion : Conclusion :=
  ⟨.canaryFailure,
    [⟨0, "10.0.0.1:80", ⟨.v4 ⟨10, 0, 0, 1⟩, 80⟩, none, .openSource "web" (.code 2)⟩],
    some (.canary "10.0.0.1:80" (.openSource "web" (.code 2)))⟩

theorem deploying_missing : ∃ hs,
    Deploying .free canaryConfig .background ⟨pairStart.around, .ensuring⟩ hs
      ⟨pairStart.around, .ended (.ok missingConclusion)⟩ := by
  have ensured : Deploying .free canaryConfig .background ⟨pairStart.around, .ensuring⟩ _
      ⟨pairStart.around, .running canaryFleet (.gate ⟨some 30000000000, none⟩)⟩ :=
    .step .here (.ensured (e := .result (pairStart.around.1.health "/")) ⟨trivial, rfl, rfl⟩)
  have health : Scene.Hears .free .background
      ⟨pairStart.around, canaryFleet, .rollout (.gate ⟨some 30000000000, none⟩)⟩ _
      ⟨pairStart.around, canaryFleet, .rollout (.canaryDue 0)⟩ :=
    .gate (e := .result (pairStart.around.1.health "/")) ⟨trivial, rfl, rfl⟩
  have due : Deploying .free canaryConfig .background ⟨pairStart.around, .ensuring⟩ _
      ⟨pairStart.around, .running canaryFleet (.canaryDue 0)⟩ := .step ensured (.hears health)
  have missing : Surroundings.free.opens pairStart.around (.error (.code 2)) := trivial
  have fails : Scene.Acts .free .background
      ⟨pairStart.around, canaryFleet, .rollout (.canaryDue 0)⟩ _ _ := .canaryDue missing
  exact ⟨_, .step due (.acts fails)⟩

/-- The deployment of the two is not clean, and its report has a row for the canary. -/
theorem outcome_report_missing : ∃ hs fleet,
    Deploying .free canaryConfig .background ⟨pairStart.around, .ensuring⟩ hs
      ⟨pairStart.around, .ended (.ok missingConclusion)⟩ ∧
    missingConclusion.Tells canaryConfig hs fleet ∧ missingConclusion.isClean = false ∧
    fleet.upgrades.filterMap Upgrade.row? =
      [Conclusion.row "10.0.0.1:80" "-" (UpgradeError.openSource "web" (.code 2)).message] := by
  obtain ⟨hs, deploying⟩ := deploying_missing
  obtain ⟨s₀, fleet₀, fleet, p, -, -, -, htells⟩ :=
    outcome_report Surroundings.free_calm deploying
  have hfailures : missingConclusion.failures = fleet.failures :=
    congrArg Conclusion.failures htells.of_fleet
  refine ⟨hs, fleet, deploying, htells, rfl, ?_⟩
  rw [← Conclusion.rows_failuresFrom 0]
  exact congrArg (List.map Conclusion.failureRow) hfailures.symm

end Rollout
