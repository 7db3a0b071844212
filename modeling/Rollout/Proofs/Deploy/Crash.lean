import Rollout.Proofs.Deploy.Limits

/-!
# When a deployment crashes

Where none of its work crashes, a deployment crashes only in the addition of a limit to the clock.

- **Ranges** (`Fleet.InRange`): what a rollout takes of its upgrades and its failures is there, and
  its permits are no more than a semaphore takes.
- **Crashes** (`Deployment.Goes.crashed`): the step that crashes a deployment sets a limit whose end
  the clock cannot show.
- **Pauses** (`Deployment.Goes.pauses`): a deployment pauses from the moment of its step on, for the
  cooldown or between passes.
- **Conclusions** (`Deployment.Goes.began`): a deployment concludes only where the limits before it
  were set.
- **The law** (`crash_of_clock`): what is true of a deployment wherever it comes to.
-/

namespace Rollout

/-! ## Ranges -/

/-- The most permits that a semaphore takes. -/
def Bulk.maxPermits : Nat := (UInt64.size - 1) / 8

/-- The most texts in a list: they take twenty-four bytes each, in half of all addresses. -/
def Config.maxTexts : Nat := (UInt64.size / 2 - 1) / 24

/-- What a rollout takes of a fleet lies within it. -/
structure Fleet.InRange (c : Config) (fleet : Fleet) : Prop where
  size : fleet.size = c.backends.length
  /-- The canaries and the others are parts of the upgrades. -/
  canaries : fleet.canaries ≤ fleet.size
  /-- There are permits where there are others, and no more of them. -/
  pos : fleet.canaries < fleet.size → 0 < fleet.capacity
  permits : fleet.capacity ≤ fleet.size - fleet.canaries
  legal : c.backends.length ≤ Config.maxTexts → fleet.capacity ≤ Bulk.maxPermits
  /-- The failures that a pass runs again are among the upgrades. -/
  failures : ∀ f ∈ fleet.failures, f.index < fleet.size
  /-- The waits inside a stage have their standard lengths. -/
  timeouts : fleet.timeouts = .standard

section Ranges

variable {σ : Type} {env : Surroundings σ} {ctx : Context} {c : Config} {x y : Scene σ}
  {hs : List Happening} {fleet : Fleet}

theorem Config.Reaches.config (h : c.Reaches env ctx hs y) : y.fleet.config = c := by
  obtain ⟨s₀, fleet₀, hc, hcourse⟩ := h
  exact hcourse.keeps.config.trans (Fleet.config_of_ofConfig hc).1

theorem Config.Reaches.orderly (h : c.Reaches env ctx hs y) (calm : env.Calm) :
    y.phase.Orderly y.fleet := by
  obtain ⟨s₀, fleet₀, hc, hcourse⟩ := h
  have calm' : env.restless.Calm := calm
  exact hcourse.orderly calm' (Fleet.config_of_ofConfig hc).2.2

theorem Config.Reaches.inRange (h : c.Reaches env ctx hs y) : y.fleet.InRange c where
  size := h.size
  canaries := y.fleet.canaries_le
  pos hlt := by
    obtain ⟨s₀, fleet₀, hc, hcourse⟩ := h
    have hnew := (Fleet.config_of_ofConfig hc).2.2
    have hpos : 0 < y.fleet.config.concurrency.toNat := by
      rw [hcourse.keeps.config]
      exact hnew.concurrency
    exact Nat.lt_min.mpr ⟨hpos, Nat.sub_pos_of_lt hlt⟩
  permits := Nat.min_le_right _ _
  legal hle := by
    have hcapacity : y.fleet.capacity ≤ y.fleet.size - y.fleet.canaries := Nat.min_le_right _ _
    rw [h.size] at hcapacity
    have hmax : Config.maxTexts ≤ Bulk.maxPermits := by decide
    omega
  failures f hf := by
    obtain ⟨u, hu, -⟩ := Fleet.upgrade?_of_mem_failures hf
    exact Fleet.lt_size hu
  timeouts := by
    obtain ⟨s₀, fleet₀, hc, hcourse⟩ := h
    exact hcourse.keeps.timeouts.trans (Fleet.targets_of_ofConfig hc).1

end Ranges

/-! ## Crashes -/

/-- Whether a clock can show the ends of the configured limits that begin at a point of time. -/
def Instant.ShowsLimits (t : Instant) (c : Config) : Prop :=
  t.Shows c.preconditionTimeout ∧ t.Shows c.actionTimeout

namespace Run

variable {fleet : Fleet} {ctx : Context} {m : Moment} {text : String}

theorem overflow_of_start (h : (start fleet ctx m).2 = .crashed text) :
    text = clockOverflow ∧ ¬ m.now.Shows fleet.config.preconditionTimeout := by
  have hs := starts fleet ctx m
  generalize start fleet ctx m = x at hs h
  cases hs with
  | overflows hw =>
    cases h
    exact ⟨rfl, Context.not_shows_of_within? hw⟩
  | halts _ _ => cases h
  | asks _ _ => cases h

/-- A canary that takes off does not crash. -/
theorem canaryLanded_ne_crashed {index : Nat} {u v : Upgrade} {landing : Landing}
    (hs : landing.Suits fleet.config index u v) (fleet' : Fleet) :
    (canaryLanded index (fleet', landing)).2 ≠ .crashed text := by
  cases landing with
  | flying f => nofun
  | crashed text => exact hs.elim
  | landed result => cases result <;> nofun

theorem overflow_of_nextCanary {index : Nat} {source : Except IoError Entry}
    (ht : fleet.Trying index []) (h : (nextCanary fleet ctx source m index).2 = .crashed text) :
    text = clockOverflow ∧ ¬ m.now.Shows fleet.config.actionTimeout := by
  have hn := nexts fleet ctx source m index
  generalize canaryHappenings fleet ctx source m index = seen,
    nextCanary fleet ctx source m index = x at hn h
  cases hn with
  | overflows _ hw =>
    cases h
    exact ⟨rfl, Context.not_shows_of_within? hw⟩
  | @begins inner hlt _ =>
    obtain ⟨u, v, landing, -, -, -, -, hs, hstart⟩ := ht.begins hlt inner source m
    rw [hstart] at h
    exact absurd h (canaryLanded_ne_crashed hs _)
  | skips _ _ => cases h
  | rests _ _ _ => cases h

end Run

/-- The step that crashes a rollout sets a limit whose end the clock cannot show. -/
theorem Scene.Acts.crashed {σ : Type} {env : Surroundings σ} {ctx : Context} {x y : Scene σ}
    {new : List Happening} {text : String} (h : x.Acts env ctx new y)
    (ho : x.phase.Orderly x.fleet) (hy : y.phase = .rollout (.crashed text)) :
    text = Run.clockOverflow ∧ ¬ (env.moment y.around).now.ShowsLimits x.fleet.config := by
  cases h with
  | start =>
    obtain ⟨rfl, hshows⟩ := Run.overflow_of_start (Phase.rollout.inj hy)
    exact ⟨rfl, fun hl => hshows hl.1⟩
  | canaryDue _ =>
    obtain ⟨rfl, hshows⟩ := Run.overflow_of_nextCanary ho (Phase.rollout.inj hy)
    exact ⟨rfl, fun hl => hshows hl.2⟩
  | overflow hl =>
    obtain ⟨-, hw, -⟩ := Bulk.overflow_of_overflowed hl
    cases hy
    exact ⟨rfl, fun hl => Context.not_shows_of_within? hw hl.2⟩
  | _ => cases hy

namespace Cleanup

variable {fleet : Fleet} {ctx : Context} {m : Moment} {cl : Cleanup} {text : String}

theorem proceed_ne_crashed {passes made : Nat} {delay : Duration} :
    (proceed fleet ctx m passes delay made).phase ≠ .crashed text := by
  unfold proceed
  split
  · nofun
  · split
    · nofun
    · split <;> nofun

theorem overflow_of_waited (h : (cl.waited fleet ctx m).phase = .crashed text) :
    text = Run.clockOverflow ∧ ¬ m.now.Shows fleet.config.actionTimeout := by
  unfold waited Retry.start? at h
  split at h
  · rename_i hnone
    split at hnone
    · cases hnone
    · cases h
      exact ⟨rfl, Context.not_shows_of_within? (Option.map_eq_none_iff.mp hnone)⟩
  · cases h

end Cleanup

/-- A deployment that cleans up has neither crashed nor ended. -/
def Deploy.IsOpen : Deploy → Prop
  | cleaning fleet cl => ofCleanup fleet cl = .cleaning fleet cl
  | _ => True

namespace Deploy

variable {c : Config} {ctx : Context} {m : Moment} {fleet : Fleet} {cl : Cleanup} {text : String}

theorem crashed_of_ofCleanup (h : ofCleanup fleet cl = .crashed text) :
    cl.phase = .crashed text := by
  unfold ofCleanup at h
  split at h <;> cases h
  assumption

theorem crashed_of_ofRun {x : Fleet × Run} (h : ofRun ctx m x = .crashed text) :
    x.2 = .crashed text := by
  unfold ofRun at h
  split at h
  · cases h
  · exact absurd (crashed_of_ofCleanup h) Cleanup.proceed_ne_crashed
  · cases h
    rfl
  · cases h

theorem isOpen_ofCleanup (fleet : Fleet) (cl : Cleanup) : (ofCleanup fleet cl).IsOpen := by
  unfold ofCleanup
  split
  · trivial
  · trivial
  · trivial
  · unfold IsOpen ofCleanup
    split <;> simp_all

theorem isOpen_ofRun (ctx : Context) (m : Moment) (x : Fleet × Run) : (ofRun ctx m x).IsOpen := by
  unfold ofRun
  split
  · trivial
  · exact isOpen_ofCleanup _ _
  · trivial
  · trivial

theorem IsOpen.ne_crashed (h : (cleaning fleet cl).IsOpen) : cl.phase ≠ .crashed text :=
  fun hcl => by
    rw [IsOpen, ofCleanup, hcl] at h
    cases h

/-- What a deployment goes on to when it has waited for its pool. -/
inductive Follows (c : Config) (ctx : Context) (m : Moment) : Deploy → Prop
  | begins : Follows c ctx m (begin_ c ctx m)
  | ensures : Follows c ctx m .ensuring
  | creates : Follows c ctx m .creating
  | refuses (e : DeployError) : Follows c ctx m (.ended (.error e))

theorem follows_ensured {e : Event (ensureCall c)} (he : e.IsCalm) :
    Follows c ctx m (ensured c ctx m e) := by
  cases e with
  | crashed text => exact he.elim
  | stopped reason => exact .ensures
  | result r =>
    simp only [ensured]
    split
    · exact .begins
    · exact .creates

theorem follows_created {e : Event (createCall c)} (he : e.IsCalm) :
    Follows c ctx m (created c ctx m e) := by
  cases e with
  | crashed text => exact he.elim
  | stopped reason => exact .creates
  | result r =>
    simp only [created]
    split
    · exact .begins
    · exact .refuses _

namespace Follows

variable {d : Deploy}

theorem isOpen (h : Follows c ctx m d) : d.IsOpen := by
  cases h with
  | begins =>
    unfold begin_
    split
    · trivial
    · exact isOpen_ofRun _ _ _
  | _ => trivial

theorem overflow (h : Follows c ctx m d) (hd : d = .crashed text) :
    text = Run.clockOverflow ∧ ¬ m.now.ShowsLimits c := by
  cases h with
  | begins =>
    unfold begin_ at hd
    cases hc : Fleet.ofConfig c .standard with
    | error e =>
      rw [hc] at hd
      cases hd
    | ok fleet =>
      rw [hc] at hd
      obtain ⟨rfl, hshows⟩ := Run.overflow_of_start (crashed_of_ofRun hd)
      rw [(Fleet.config_of_ofConfig hc).1] at hshows
      exact ⟨rfl, fun hl => hshows hl.1⟩
  | _ => cases hd

end Follows

end Deploy

section Deployments

variable {σ : Type} {env : Surroundings σ} {c : Config} {ctx : Context} {s : σ}
  {hs new : List Happening} {x y : Deployment σ} {text : String}

theorem Deployment.Goes.isOpen (g : x.Goes env c ctx new y) (calm : env.Calm)
    (h : x.deploy.IsOpen) : y.deploy.IsOpen := by
  cases g with
  | later _ => exact h
  | ensured he => exact (Deploy.follows_ensured (calm he)).isOpen
  | created he => exact (Deploy.follows_created (calm he)).isOpen
  | acts _ => exact Deploy.isOpen_ofRun _ _ _
  | hears _ => exact Deploy.isOpen_ofRun _ _ _
  | cleans _ => exact Deploy.isOpen_ofCleanup _ _

/-- A cleanup crashes where it begins a pass. -/
theorem Cleaning.Goes.crashed {x y : Cleaning σ} (g : x.Goes env ctx new y)
    (hx : x.cleanup.phase ≠ .crashed text) (hy : y.cleanup.phase = .crashed text) :
    text = Run.clockOverflow ∧ ¬ (env.moment y.around).now.Shows x.fleet.config.actionTimeout := by
  cases g with
  | later _ => exact absurd hy hx
  | waited _ _ => exact Cleanup.overflow_of_waited hy
  | interrupted _ _ => cases hy
  | acts _ _ _ => cases hy
  | hears _ _ => cases hy
  | passed _ _ => exact absurd hy Cleanup.proceed_ne_crashed

/-- The step that crashes a deployment sets a limit whose end the clock cannot show. -/
theorem Deployment.Goes.crashed (g : x.Goes env c ctx new y) (h : x.Sound env c ctx hs)
    (hopen : x.deploy.IsOpen) (calm : env.Calm) (hy : y.deploy = .crashed text) :
    (x.deploy = .crashed text ∧ new = []) ∨
      (text = Run.clockOverflow ∧ ¬ (env.moment y.around).now.ShowsLimits c) := by
  cases g with
  | later _ => exact .inl ⟨hy, rfl⟩
  | ensured he => exact .inr ((Deploy.follows_ensured (calm he)).overflow hy)
  | created he => exact .inr ((Deploy.follows_created (calm he)).overflow hy)
  | acts ha =>
    cases h with
    | running h =>
      refine .inr ?_
      have hrun := ha.crashed (h.orderly calm) (congrArg _ (Deploy.crashed_of_ofRun hy))
      rw [h.config] at hrun
      exact hrun
  | hears hh =>
    cases h with
    | running h =>
      obtain rfl : _ = Run.crashed text := Deploy.crashed_of_ofRun hy
      cases hh.hasCrashed calm (h.orderly calm)
  | cleans g =>
    cases h with
    | cleaning h _ _ =>
      refine .inr ?_
      obtain ⟨rfl, hshows⟩ := g.crashed hopen.ne_crashed (Deploy.crashed_of_ofCleanup hy)
      rw [h.reaches.config] at hshows
      exact ⟨rfl, fun hl => hshows hl.2⟩

theorem Deploying.isOpen (h : Deploying env c ctx ⟨s, .ensuring⟩ hs y) (calm : env.Calm) :
    y.deploy.IsOpen := by
  induction h with
  | here => trivial
  | step _ g ih => exact g.isOpen calm ih

/-- A deployment that has crashed did so where a clock could not show the end of a limit. -/
theorem Deploying.crashed (h : Deploying env c ctx ⟨s, .ensuring⟩ hs y) (calm : env.Calm)
    (hy : y.deploy = .crashed text) : text = Run.clockOverflow ∧
      ∃ s₁, Deploying env c ctx ⟨s, .ensuring⟩ hs ⟨s₁, .crashed text⟩ ∧
        ¬ (env.moment s₁).now.ShowsLimits c := by
  induction h with
  | here => cases hy
  | @step hs new y z h g ih =>
    rcases g.crashed (h.sound calm) (h.isOpen calm) calm hy with ⟨hcrashed, rfl⟩ | ⟨rfl, hlimits⟩
    · rw [List.append_nil]
      exact ih hcrashed
    · obtain ⟨s₁, d⟩ := z
      obtain rfl : d = .crashed _ := hy
      exact ⟨rfl, s₁, .step h g, hlimits⟩

end Deployments

/-! ## Pauses -/

/-- When the wait before a pass ends. -/
def CleanupPhase.pause? : CleanupPhase → Option Instant
  | waiting until_ => some until_
  | _ => none

/-- When the pause of a deployment ends. -/
def Deploy.pause? : Deploy → Option Instant
  | running _ (.cooldown until_) => some until_
  | cleaning _ cl => cl.phase.pause?
  | _ => none

section Pauses

variable {σ : Type} {env : Surroundings σ} {c : Config} {ctx : Context} {s : σ} {m : Moment}
  {fleet : Fleet} {until_ : Instant} {hs new : List Happening}

namespace Run

theorem start_ne_cooldown : (start fleet ctx m).2 ≠ .cooldown until_ := by
  have hs := starts fleet ctx m
  generalize start fleet ctx m = x at hs ⊢
  cases hs <;> nofun

theorem canaryLanded_ne_cooldown (index : Nat) (x : Fleet × Landing) :
    (canaryLanded index x).2 ≠ .cooldown until_ := by
  unfold canaryLanded
  split <;> nofun

theorem pauses_nextCanary {source : Except IoError Entry} {index : Nat}
    (h : (nextCanary fleet ctx source m index).2 = .cooldown until_) :
    until_ = m.now.wakeAfter fleet.config.canaryCooldown := by
  have hn := nexts fleet ctx source m index
  generalize canaryHappenings fleet ctx source m index = seen,
    nextCanary fleet ctx source m index = x at hn h
  cases hn with
  | overflows _ _ => cases h
  | begins _ _ => exact absurd h (canaryLanded_ne_cooldown _ _)
  | skips _ _ => cases h
  | rests _ _ _ => exact (cooldown.inj h).symm

end Run

theorem Scene.Acts.pauses {x y : Scene σ} (h : x.Acts env ctx new y)
    (hy : y.phase = .rollout (.cooldown until_)) :
    ∃ d, until_ = (env.moment y.around).now.wakeAfter d := by
  cases h with
  | start => exact absurd (Phase.rollout.inj hy) Run.start_ne_cooldown
  | canaryDue _ => exact ⟨_, Run.pauses_nextCanary (Phase.rollout.inj hy)⟩
  | _ => cases hy

theorem Scene.Hears.ne_cooldown {x y : Scene σ} (h : x.Hears env ctx new y) :
    y.phase ≠ .rollout (.cooldown until_) := fun hy => by
  cases h with
  | @gate s s' fleet inner e _ =>
    have hrun := Phase.rollout.inj hy
    have ha := Run.answers fleet e
    generalize Run.gateAnswered fleet e = z at ha hrun
    cases ha <;> cases hrun
  | canary _ => exact Run.canaryLanded_ne_cooldown _ _ (Phase.rollout.inj hy)
  | _ => cases hy

theorem Cleanup.pauses_proceed {passes made : Nat} {delay : Duration}
    (h : (proceed fleet ctx m passes delay made).phase.pause? = some until_) :
    until_ = m.now.wakeAfter delay := by
  unfold proceed at h
  split at h
  · cases h
  · split at h
    · cases h
    · split at h <;> cases h
      rfl

namespace Deploy

theorem pauses_ofCleanup {cl : Cleanup} (h : (ofCleanup fleet cl).pause? = some until_) :
    cl.phase.pause? = some until_ := by
  unfold ofCleanup at h
  split at h
  · cases h
  · cases h
  · cases h
  · exact h

theorem pauses_ofRun {x : Fleet × Run} (h : (ofRun ctx m x).pause? = some until_) :
    x.2 = .cooldown until_ ∨ ∃ d, until_ = m.now.wakeAfter d := by
  obtain ⟨fleet, run⟩ := x
  cases run with
  | ended result =>
    cases result with
    | error e => cases h
    | ok a => exact .inr ⟨_, Cleanup.pauses_proceed (pauses_ofCleanup h)⟩
  | cooldown t =>
    cases h
    exact .inl rfl
  | _ => cases h

theorem Follows.pauses {d : Deploy} (h : Follows c ctx m d) (hd : d.pause? = some until_) :
    ∃ d, until_ = m.now.wakeAfter d := by
  cases h with
  | begins =>
    unfold begin_ at hd
    split at hd
    · cases hd
    · rcases pauses_ofRun hd with hrun | hpause
      · exact absurd hrun Run.start_ne_cooldown
      · exact hpause
  | _ => cases hd

end Deploy

/-- A deployment pauses from the moment of its step on. -/
theorem Deployment.Goes.pauses {x y : Deployment σ} (g : x.Goes env c ctx new y) (calm : env.Calm)
    (hy : y.deploy.pause? = some until_) : x.deploy.pause? = some until_ ∨
      ∃ d, until_ = (env.moment y.around).now.wakeAfter d := by
  cases g with
  | later _ => exact .inl hy
  | ensured he => exact .inr ((Deploy.follows_ensured (calm he)).pauses hy)
  | created he => exact .inr ((Deploy.follows_created (calm he)).pauses hy)
  | acts ha =>
    refine .inr ?_
    rcases Deploy.pauses_ofRun hy with hrun | hpause
    · exact ha.pauses (congrArg _ hrun)
    · exact hpause
  | hears hh =>
    refine .inr ?_
    rcases Deploy.pauses_ofRun hy with hrun | hpause
    · exact absurd (congrArg _ hrun) hh.ne_cooldown
    · exact hpause
  | cleans g =>
    have hcl := Deploy.pauses_ofCleanup hy
    cases g with
    | later _ => exact .inl hcl
    | waited _ _ =>
      unfold Cleanup.waited at hcl
      split at hcl <;> cases hcl
    | interrupted _ _ => cases hcl
    | acts _ _ _ => cases hcl
    | hears _ _ => cases hcl
    | passed _ _ => exact .inr ⟨_, Cleanup.pauses_proceed hcl⟩

/-- A pause ends where the clock can show it. -/
theorem Deploying.pause_lt {y : Deployment σ} (h : Deploying env c ctx ⟨s, .ensuring⟩ hs y)
    (calm : env.Calm) (hclock : ∀ s, (env.moment s).now.Shows Instant.longestSleep)
    (hy : y.deploy.pause? = some until_) : until_ < Instant.limit := by
  induction h with
  | here => cases hy
  | step _ g ih =>
    rcases g.pauses calm hy with hpause | ⟨d, rfl⟩
    · exact ih hpause
    · exact Instant.wakeAfter_lt (hclock _) d

end Pauses

/-! ## Conclusions -/

/-- That the limit of the pool's check has been set is `P`, and that of an upgrade `A`: the one is
true wherever a rollout has begun, the other wherever it got past the check of the pool. -/
def Deploy.Began (P A : Prop) : Deploy → Prop
  | running fleet run => P ∧ run.Began A fleet
  | cleaning _ _ => P ∧ A
  | ended (.ok concl) => P ∧ ((∀ g, concl.error ≠ some (.gate g)) → A)
  | _ => True

section Conclusions

variable {σ : Type} {env : Surroundings σ} {c : Config} {ctx : Context} {m : Moment} {P A : Prop}
  {fleet : Fleet} {s : σ} {hs new : List Happening} {x y : Deployment σ}

namespace Deploy

theorem began_ofCleanup (p : P) (a : A) (fleet : Fleet) (cl : Cleanup) :
    (ofCleanup fleet cl).Began P A := by
  unfold ofCleanup
  split
  · exact ⟨p, fun _ => a⟩
  · exact ⟨p, fun _ => a⟩
  · trivial
  · exact ⟨p, a⟩

theorem began_ofRun {x : Fleet × Run} (h : c.Reaches env ctx hs (.ofRun s x)) (calm : env.Calm)
    (p : P) (hb : x.2.Began A x.1) : (ofRun ctx m x).Began P A := by
  obtain ⟨fleet, run⟩ := x
  cases run with
  | ended result =>
    cases result with
    | error e =>
      refine ⟨p, fun hg => h.limited calm hb fun g he => hg g ?_⟩
      cases he
      rfl
    | ok a => exact began_ofCleanup p (h.limited calm hb nofun) _ _
  | crashed text => trivial
  | _ => exact ⟨p, hb⟩

theorem Follows.began {d : Deploy} (h : Follows c ctx (env.moment s) d) (calm : env.Calm)
    (hp : (env.moment s).now.Shows c.preconditionTimeout → P) : d.Began P A := by
  cases h with
  | begins =>
    unfold begin_
    cases hc : Fleet.ofConfig c .standard with
    | error e => trivial
    | ok fleet =>
      have start : c.Reaches env ctx [] ⟨s, fleet, .idle⟩ := ⟨s, fleet, hc, .here⟩
      cases hw : ctx.within? (env.moment s).now fleet.config.preconditionTimeout with
      | none =>
        simp only [Run.start, hw]
        trivial
      | some inner =>
        have hshows := Context.shows_of_within? hw
        rw [(Fleet.config_of_ofConfig hc).1] at hshows
        exact began_ofRun (start.act .start) calm (hp hshows) Run.began_start
  | _ => trivial

end Deploy

theorem Deployment.Goes.began (g : x.Goes env c ctx new y) (h : x.Sound env c ctx hs)
    (calm : env.Calm) (hb : x.deploy.Began P A)
    (hp : ∀ s, (env.moment s).now.Shows c.preconditionTimeout → P)
    (ha : ∀ s, (env.moment s).now.Shows c.actionTimeout → A) : y.deploy.Began P A := by
  cases g with
  | later _ => exact hb
  | ensured he => exact (Deploy.follows_ensured (calm he)).began calm (hp _)
  | created he => exact (Deploy.follows_created (calm he)).began calm (hp _)
  | acts hacts =>
    cases h with
    | running h =>
      refine Deploy.began_ofRun (h.act hacts) calm hb.1 (hacts.began (h.orderly calm) hb.2 ?_)
      rw [h.config]
      exact ha _
  | hears hears =>
    cases h with
    | running h => exact Deploy.began_ofRun (h.hear hears) calm hb.1 (hears.began hb.2)
  | cleans g => exact Deploy.began_ofCleanup hb.1 hb.2 _ _

theorem Deploying.began (h : Deploying env c ctx ⟨s, .ensuring⟩ hs y) (calm : env.Calm) :
    y.deploy.Began (∃ s₁, (env.moment s₁).now.Shows c.preconditionTimeout)
      (∃ s₁, (env.moment s₁).now.Shows c.actionTimeout) := by
  induction h with
  | here => trivial
  | step h g ih =>
    exact g.began (h.sound calm) calm ih (fun s h => ⟨s, h⟩) fun s h => ⟨s, h⟩

end Conclusions

/-! ## The law -/

/-- The upgrades that a rollout works on or has still to begin after its canaries. -/
def Run.indices : Run → List Nat
  | canary f => [f.index]
  | bulk b => b.queue ++ b.admitted.map Admitted.index
  | _ => []

/-- The upgrades that a pass works on. -/
def CleanupPhase.indices : CleanupPhase → List Nat
  | retrying r => r.attempts.map Attempt.index
  | _ => []

namespace Deploy

/-- The fleet that a deployment works on. -/
def fleet? : Deploy → Option Fleet
  | running fleet _ | cleaning fleet _ => some fleet
  | _ => none

/-- The upgrades that a deployment works on or has still to begin. -/
def indices : Deploy → List Nat
  | running _ run => run.indices
  | cleaning _ cl => cl.phase.indices
  | _ => []

end Deploy

section Law

variable {σ : Type} {env : Surroundings σ} {c : Config} {ctx : Context} {s : σ} {fleet : Fleet}
  {hs : List Happening} {x y : Deployment σ}

theorem Fleet.Tends.lt_size {α : Type} {key : α → Nat} {Suits : Upgrade → α → Prop} {l : List α}
    (h : fleet.Tends key Suits l) {i : Nat} (hi : i ∈ l.map key) : i < fleet.size := by
  obtain ⟨a, ha, rfl⟩ := List.mem_map.mp hi
  obtain ⟨u, hu, -⟩ := h.suits a ha
  exact Fleet.lt_size hu

theorem Phase.Orderly.lt_size {run : Run} (h : (Phase.rollout run).Orderly fleet) {i : Nat}
    (hi : i ∈ run.indices) : i < fleet.size := by
  cases run with
  | canary f => exact (Fleet.Trying.tends h).lt_size hi
  | bulk b =>
    have h : b.Orderly fleet := h
    rcases List.mem_append.mp hi with hi | hi
    · rw [h.queue] at hi
      exact List.mem_range.mp (List.mem_of_mem_drop hi)
    · exact h.tends.lt_size hi
  | _ => cases hi

/-- What a deployment works on lies within its fleet. -/
theorem Deployment.Sound.inRange (h : x.Sound env c ctx hs) (calm : env.Calm)
    (hf : x.deploy.fleet? = some fleet) :
    fleet.InRange c ∧ ∀ i ∈ x.deploy.indices, i < fleet.size := by
  cases h with
  | running h =>
    cases hf
    exact ⟨h.inRange, fun i hi => (h.orderly calm).lt_size hi⟩
  | @cleaning s fleet cl p h hp _ =>
    cases hf
    refine ⟨h.reaches.inRange, fun i hi => ?_⟩
    have hi : i ∈ cl.phase.indices := hi
    cases hcl : cl.phase with
    | retrying r =>
      rw [hcl] at hp hi
      obtain rfl : p = .retry r := hp
      have ho : fleet.Tends _ _ r.attempts := h.reaches.orderly calm
      exact ho.lt_size hi
    | _ =>
      rw [hcl] at hi
      cases hi
  | _ => cases hf

/-- What is true of a deployment of a configuration where it has come to, from `s` on. -/
structure Deployment.Bounded (env : Surroundings σ) (c : Config) (ctx : Context) (s : σ)
    (hs : List Happening) (y : Deployment σ) : Prop where
  /-- It runs its fleet for the first time. -/
  mayRun : ∀ fleet, Fleet.ofConfig c .standard = .ok fleet → fleet.mayRun = .ok ()
  /-- It begins its cleanup, and makes its passes, only after a rollout that succeeded. -/
  mayClean : ∀ s₁ fleet, c.Reaches env ctx hs ⟨s₁, fleet, .rollout (.ended (.ok ()))⟩ →
    fleet.mayRetry "retry_until_clean" = .ok ()
  mayRetry : ∀ fleet cl, y.deploy = .cleaning fleet cl → fleet.mayRetry "retry_failed" = .ok ()
  /-- It takes of its fleet what is there, and as many permits as there may be. -/
  inRange : ∀ fleet, y.deploy.fleet? = some fleet →
    fleet.InRange c ∧ ∀ i ∈ y.deploy.indices, i < fleet.size
  /-- Its pauses end where the clock can show it, however long they are to be. -/
  pauses : (∀ s, (env.moment s).now.Shows Instant.longestSleep) →
    ∀ until_, y.deploy.pause? = some until_ → until_ < Instant.limit
  /-- So do the waits inside the stages of its upgrades. -/
  stages : (∀ s, (env.moment s).now.Shows Instant.longestSleep) →
    ∀ fleet, y.deploy.fleet? = some fleet → ∀ s, (env.moment s).now.ShowsStages fleet.timeouts
  /-- It crashes only where the clock cannot show the end of one of its limits. -/
  crashed : ∀ text, y.deploy = .crashed text → text = Run.clockOverflow ∧
    ∃ s₁, Deploying env c ctx ⟨s, .ensuring⟩ hs ⟨s₁, .crashed text⟩ ∧
      ¬ (env.moment s₁).now.ShowsLimits c
  /-- It concludes only where the clock can show the end of the check of its pool and, unless that
  is refused, of an upgrade's limit. -/
  concluded : ∀ concl, y.deploy = .ended (.ok concl) →
    (∃ s₁, (env.moment s₁).now.Shows c.preconditionTimeout) ∧
      ((∀ g, concl.error ≠ some (.gate g)) → ∃ s₁, (env.moment s₁).now.Shows c.actionTimeout)

/-- **A deployment crashes only where the clock cannot show the end of a limit.** Whatever the
configuration and the moments are, and however its calls end, as long as none of them crashes: a
deployment that has crashed did so in the addition of one of its two limits to the clock. All else
that it takes, counts and waits for is in range. And where the clock can never show the end of an
upgrade's limit, no rollout gets past the check of the pool but to crash. -/
theorem crash_of_clock (calm : env.Calm) (h : Deploying env c ctx ⟨s, .ensuring⟩ hs y) :
    y.Bounded env c ctx s hs where
  mayRun fleet hc := if_pos (Fleet.config_of_ofConfig hc).2.2.endState
  mayClean _ _ hended := Fleet.mayRetry_of_success (hended.recovers calm).success _
  mayRetry fleet cl hy := by
    obtain ⟨s₁, d⟩ := y
    obtain rfl : d = .cleaning fleet cl := hy
    cases h.sound calm with
    | cleaning h _ _ => exact Fleet.mayRetry_of_success h.success _
  inRange fleet hf := (h.sound calm).inRange calm hf
  pauses hclock _ hy := h.pause_lt calm hclock hy
  stages hclock fleet hf s := by
    rw [((h.sound calm).inRange calm hf).1.timeouts]
    exact (hclock s).stages
  crashed _ hy := h.crashed calm hy
  concluded concl hy := by
    have hbegan := h.began calm
    rw [hy] at hbegan
    exact hbegan

end Law

/-! ## A deployment whose upgrades have no end -/

/-- The two with more time for an upgrade than the clock can show. -/
def endlessConfig : Config :=
  { pairConfig with canaryNum := 1, actionTimeoutSecs := 0xffffffffffffffff }

/-- The fleet of the two. -/
def endlessFleet : Fleet := { pairFleet with config := endlessConfig }

theorem deploying_endless : ∃ hs,
    Deploying .free endlessConfig .background ⟨pairStart.around, .ensuring⟩ hs
      ⟨pairStart.around, .crashed Run.clockOverflow⟩ := by
  have ensured : Deploying .free endlessConfig .background ⟨pairStart.around, .ensuring⟩ _
      ⟨pairStart.around, .running endlessFleet (.gate ⟨some 30000000000, none⟩)⟩ :=
    .step .here (.ensured (e := .result (pairStart.around.1.health "/")) ⟨trivial, rfl, rfl⟩)
  have health : Scene.Hears .free .background
      ⟨pairStart.around, endlessFleet, .rollout (.gate ⟨some 30000000000, none⟩)⟩ _
      ⟨pairStart.around, endlessFleet, .rollout (.canaryDue 0)⟩ :=
    .gate (e := .result (pairStart.around.1.health "/")) ⟨trivial, rfl, rfl⟩
  have due : Deploying .free endlessConfig .background ⟨pairStart.around, .ensuring⟩ _
      ⟨pairStart.around, .running endlessFleet (.canaryDue 0)⟩ := .step ensured (.hears health)
  have opened : Surroundings.free.opens pairStart.around (.error (.code 2)) := trivial
  have overflows : Scene.Acts .free .background
      ⟨pairStart.around, endlessFleet, .rollout (.canaryDue 0)⟩ _
      ⟨pairStart.around, endlessFleet, .rollout (.crashed Run.clockOverflow)⟩ :=
    .canaryDue opened
  exact ⟨_, .step due (.acts overflows)⟩

/-- The deployment of the two crashes at its canary, where the clock cannot show the end of the
limit. -/
theorem crash_of_clock_endless : endlessConfig.check = .ok () ∧ ∃ hs,
    Deploying .free endlessConfig .background ⟨pairStart.around, .ensuring⟩ hs
      ⟨pairStart.around, .crashed Run.clockOverflow⟩ ∧
    ∃ s₁, ¬ (Surroundings.free.moment s₁).now.ShowsLimits endlessConfig := by
  obtain ⟨hs, deploying⟩ := deploying_endless
  obtain ⟨-, s₁, -, hlimits⟩ :=
    (crash_of_clock Surroundings.free_calm deploying).crashed _ rfl
  exact ⟨rfl, hs, deploying, s₁, hlimits⟩

end Rollout
