import Rollout.Proofs.Fleet.Returns

/-!
# Cleanups return

- **Attempts** (`Attempt.Limited`): the context of each run of a pass ends by the end of the pass.
- **Steps** (`Cleaning.Advances.inTime`): each pass of a cleanup begins and ends by its time, and so
  does the wait before it (`CleanupPhase.InTime`).
- **Progress** (`Cleaning.exists_advances`): a cleanup that is not over can go on, whatever hangs.
  Surroundings in which pauses end in time never stand in its way (`Surroundings.punctual_live`).
- **Remaining steps** (`Cleaning.Advances.remaining_lt`): the time that is left, the passes that are
  left, and the rank of the pass under way.
- **The end** (`Cleaning.inevitable`): a cleanup returns.
-/

namespace Rollout

/-! ## Attempts -/

/-- The run of an attempt ends by some point of time, if it is under way or yet to begin, and has the
limits of its fleet. -/
def Attempt.Limited (timeouts : StageTimeouts) (last : Instant) : Attempt → Prop
  | queued _ ctx => ctx.EndsBy last
  | flying f => f.ctx.EndsBy last ∧ f.job.timeouts = timeouts
  | landed _ _ => True

namespace Retry

variable {σ : Type} {env : Surroundings σ} {ctx inner : Context} {fleet fleet' : Fleet} {s s' : σ}
  {r r' : Retry} {new : List Happening} {timeouts : StageTimeouts} {last now : Instant} {m : Moment}
  {at_ index : Nat} {x : Fleet × Landing}

/-- All runs of a pass end by some point of time. -/
def Limited (timeouts : StageTimeouts) (last : Instant) (r : Retry) : Prop :=
  ∀ a ∈ r.attempts, a.Limited timeouts last

/-- A pass that begins has its time from then on. -/
theorem limited_start (h : start? fleet ctx now = some r)
    (hlast : now + fleet.config.actionTimeout.nanos ≤ last) : r.Limited timeouts last := by
  unfold start? at h
  split at h
  · cases h
    exact fun a ha => absurd ha List.not_mem_nil
  · obtain ⟨inner, hw, rfl⟩ := Option.map_eq_some_iff.mp h
    intro a ha
    obtain ⟨f, -, rfl⟩ := List.mem_map.mp ha
    exact (Context.endsBy_of_within? hw).mono hlast

namespace Limited

/-- A step of the run of an attempt. -/
theorem settle (h : r.Limited fleet.timeouts last) (at_ : Nat)
    (hx : Landing.From fleet m index inner new x) (hinner : inner.EndsBy last) :
    (r.settle at_ index x.2).Limited x.1.timeouts last := by
  have place (a' : Attempt) (ha' : a'.Limited x.1.timeouts last) :
      (r.place at_ a').Limited x.1.timeouts last := by
    intro a ha
    rcases List.mem_or_eq_of_mem_set ha with ha | rfl
    · rw [hx.keeps.timeouts]
      exact h a ha
    · exact ha'
  cases hl : x.2 with
  | flying f =>
    obtain ⟨-, rfl, hs⟩ := hx.flying f hl
    exact place (.flying f) ⟨hinner, hs.timeouts⟩
  | landed result => cases result <;> exact place (.landed index _) trivial
  | crashed text =>
    intro a ha
    rw [hx.keeps.timeouts]
    exact h a (List.mem_of_mem_eraseIdx ha)

/-- An attempt that landed is over. -/
theorem accounts (h : r.Limited fleet.timeouts last) (ha : r.Accounts fleet fleet' r') :
    r'.Limited fleet'.timeouts last := by
  cases ha with
  | ends _ => exact fun a ha => h a (List.mem_of_mem_eraseIdx ha)

/-- A step that a pass takes by itself. -/
theorem acts (h : r.Limited fleet.timeouts last) (ho : r.isOver = false)
    (ha : Scene.Acts env ctx ⟨s, fleet, .retry r⟩ new ⟨s', fleet', .retry r'⟩) :
    r'.Limited fleet'.timeouts last := by
  generalize hy : (⟨s', fleet', .retry r'⟩ : Scene σ) = y at ha
  cases ha with
  | again hover _ _ => exact absurd (ho.symm.trans hover) Bool.false_ne_true
  | @takeOffAgain _ _ _ at_ index inner source hat _ =>
    rw [takeOff_eq hat, Scene.ofRetry] at hy
    cases hy
    have hinner : inner.EndsBy last := h _ (List.mem_of_getElem? hat)
    exact h.settle at_ (Flight.from_start fleet index inner source (env.moment s)) hinner
  | accountAgain hat hl =>
    cases hy
    exact h.accounts (Retry.accounts hat hl)

/-- A step of a pass in which a wait ends. -/
theorem hears (h : r.Limited fleet.timeouts last) (hs : ∀ f ∈ (Phase.retry r).flights, f.Stands fleet)
    (hh : Scene.Hears env ctx ⟨s, fleet, .retry r⟩ new ⟨s', fleet', .retry r'⟩) :
    r'.Limited fleet'.timeouts last := by
  generalize hy : (⟨s', fleet', .retry r'⟩ : Scene σ) = y at hh
  cases hh with
  | @retry _ _ _ _ at_ f e hat _ =>
    cases hy
    have hmem := List.mem_of_getElem? hat
    have hf : f ∈ (Phase.retry r).flights := List.mem_filterMap.mpr ⟨_, hmem, rfl⟩
    have hinner : (Attempt.flying f).Limited fleet.timeouts last := h _ hmem
    exact h.settle at_ (Flight.from_resume (hs f hf) (env.moment s') e) hinner.1

/-- A run under way stands at the stage of its upgrade's record. -/
theorem stands (h : r.Limited fleet.timeouts last) (ho : r.Orderly fleet) :
    ∀ f ∈ (Phase.retry r).flights, f.Stands fleet := by
  intro f hf
  obtain ⟨a, ha, haf⟩ := List.mem_filterMap.mp hf
  cases a <;> cases haf
  obtain ⟨u, hu, hfits, -⟩ := ho.suits _ ha
  exact ⟨⟨u, hu, hfits.stage⟩, (h _ ha).2⟩

end Limited

end Retry

/-! ## Steps -/

namespace Surroundings

variable {σ : Type} {env : Surroundings σ}

theorem still_within (env : Surroundings σ) : env.still.Within env :=
  ⟨rfl, fun h => h.elim, id, id⟩

theorem Timely.still (h : env.Timely) : env.still.Timely := ⟨fun h => h.elim, fun he => h.ends he⟩

end Surroundings

/-- What can happen to a cleanup in some surroundings can happen in any that allow more. -/
theorem Cleaning.Goes.mono {σ : Type} {env env' : Surroundings σ} {ctx : Context}
    {x y : Cleaning σ} {new : List Happening} (h : x.Goes env ctx new y) (hle : env.Within env') :
    x.Goes env' ctx new y := by
  obtain ⟨moment, passes, opens, ends⟩ := env
  obtain ⟨moment', passes', opens', ends'⟩ := env'
  obtain rfl : moment = moment' := hle.moment
  cases h with
  | later hp => exact .later (hle.passes hp)
  | waited hw he => exact .waited hw (hle.ends he)
  | interrupted hw he => exact .interrupted hw (hle.ends he)
  | acts hr ho ha => exact .acts hr ho (ha.mono hle)
  | hears hr hh => exact .hears hr (hh.mono hle)
  | passed hr ho => exact .passed hr ho

namespace Fleet

variable {f : Fleet} {delay : Duration} {n k : Nat}

theorem longestCleanup_succ (f : Fleet) (n : Nat) (delay : Duration) :
    (f.longestCleanup (n + 1) delay).nanos = (f.longestCleanup n delay).nanos + delay.nanos +
      f.config.actionTimeout.nanos := by
  rw [longestCleanup, longestCleanup, Nat.succ_mul, Nat.add_assoc]

theorem longestCleanup_mono (h : n ≤ k) :
    (f.longestCleanup n delay).nanos ≤ (f.longestCleanup k delay).nanos := Nat.mul_le_mul_right _ h

end Fleet

/-- What is true in each phase of a cleanup that began at `t₀`, after `made` passes: the wait for the
next pass is over by its time, and so are the runs of a pass. -/
def CleanupPhase.InTime (fleet₀ : Fleet) (passes : Nat) (delay : Duration) (t₀ now : Instant)
    (timeouts : StageTimeouts) (made : Nat) : CleanupPhase → Prop
  | waiting until_ => made < passes ∧ now ≤ until_ ∧
    until_ ≤ t₀ + (fleet₀.longestCleanup made delay).nanos + delay.nanos
  | retrying r => made ≤ passes ∧ now ≤ t₀ + (fleet₀.longestCleanup made delay).nanos ∧
    r.Limited timeouts (t₀ + (fleet₀.longestCleanup made delay).nanos)
  | ended _ => now ≤ t₀ + (fleet₀.longestCleanup passes delay).nanos
  | crashed _ => False

/-- A cleanup of `fleet₀` that began at `t₀` is in time. -/
structure Cleaning.InTime {σ : Type} (env : Surroundings σ) (fleet₀ : Fleet) (passes : Nat)
    (delay : Duration) (t₀ : Instant) (y : Cleaning σ) : Prop where
  asked : y.cleanup.passes = passes ∧ y.cleanup.delay = delay
  keeps : fleet₀.Keeps y.fleet
  phase : y.cleanup.phase.InTime fleet₀ passes delay t₀ (env.moment y.around).now y.fleet.timeouts
    y.cleanup.made

section Steps

variable {σ : Type} {env : Surroundings σ} {ctx : Context} {fleet₀ fleet : Fleet} {s s' : σ}
  {passes made : Nat} {delay : Duration} {t₀ now : Instant} {timeouts : StageTimeouts} {c : Cleanup}
  {until_ : Instant} {m : Moment} {y z : Cleaning σ} {new : List Happening}

/-- The end of a pass and of the wait before it is no later than that of all passes. -/
theorem le_longestCleanup (hmade : made < passes)
    (h : until_ ≤ t₀ + (fleet₀.longestCleanup made delay).nanos + delay.nanos) :
    until_ + fleet₀.config.actionTimeout.nanos ≤
      t₀ + (fleet₀.longestCleanup (made + 1) delay).nanos ∧
    t₀ + (fleet₀.longestCleanup (made + 1) delay).nanos ≤
      t₀ + (fleet₀.longestCleanup passes delay).nanos := by
  refine ⟨?_, Nat.add_le_add_left (Fleet.longestCleanup_mono hmade) t₀⟩
  rw [Fleet.longestCleanup_succ, ← Nat.add_assoc, ← Nat.add_assoc]
  exact Nat.add_le_add_right h _

/-- The decision between passes. -/
theorem Cleanup.inTime_proceed (hclock : t₀.Shows (fleet₀.longestCleanup passes delay))
    (hmade : made ≤ passes) (hnow : m.now ≤ t₀ + (fleet₀.longestCleanup made delay).nanos) :
    (proceed fleet ctx m passes delay made).phase.InTime fleet₀ passes delay t₀ m.now timeouts
      made := by
  have hlate : m.now ≤ t₀ + (fleet₀.longestCleanup passes delay).nanos :=
    Nat.le_trans hnow (Nat.add_le_add_left (Fleet.longestCleanup_mono hmade) t₀)
  unfold proceed
  by_cases hclean : fleet.failures.isEmpty = true
  · simp only [if_pos hclean]
    exact hlate
  by_cases hused : passes ≤ made
  · simp only [if_neg hclean, if_pos hused]
    exact hlate
  simp only [if_neg hclean, if_neg hused]
  cases hstopped : ctx.stopped m with
  | some reason => exact hlate
  | none =>
    have hlt : made < passes := Nat.lt_of_not_le hused
    have hpause : m.now + delay.nanos ≤
        t₀ + (fleet₀.longestCleanup made delay).nanos + delay.nanos :=
      Nat.add_le_add_right hnow _
    obtain ⟨hend, hlast⟩ := le_longestCleanup hlt hpause
    have hshows : m.now.Shows delay :=
      hclock.before (Nat.le_trans (Nat.le_add_right _ _) (Nat.le_trans hend hlast))
    simp only [hshows.wakeAfter]
    exact ⟨hlt, Nat.le_add_right _ _, hpause⟩

namespace Cleaning

/-- A cleanup in time has not lasted longer than it may. -/
theorem InTime.le_longest (h : InTime env fleet₀ passes delay t₀ y) :
    (env.moment y.around).now ≤ t₀ + (fleet₀.longestCleanup passes delay).nanos := by
  obtain ⟨-, -, hphase⟩ := h
  cases hc : y.cleanup.phase with
  | waiting until_ =>
    rw [hc] at hphase
    obtain ⟨hmade, hle, huntil⟩ := hphase
    obtain ⟨hend, hlast⟩ := le_longestCleanup hmade huntil
    exact Nat.le_trans hle (Nat.le_trans (Nat.le_add_right _ _) (Nat.le_trans hend hlast))
  | retrying r =>
    rw [hc] at hphase
    obtain ⟨hmade, hle, -⟩ := hphase
    exact Nat.le_trans hle (Nat.add_le_add_left (Fleet.longestCleanup_mono hmade) t₀)
  | ended result =>
    rw [hc] at hphase
    exact hphase
  | crashed text =>
    rw [hc] at hphase
    exact hphase.elim

/-- A cleanup in time that is over has not crashed. -/
theorem InTime.ended (h : InTime env fleet₀ passes delay t₀ y)
    (hover : y.cleanup.phase.isOver = true) : ∃ result, y.cleanup.phase = .ended result := by
  obtain ⟨-, -, hphase⟩ := h
  cases hc : y.cleanup.phase with
  | waiting until_ => rw [hc] at hover; cases hover
  | retrying r => rw [hc] at hover; cases hover
  | ended result => exact ⟨result, rfl⟩
  | crashed text => rw [hc] at hphase; exact hphase.elim

/-- The wait for the next pass is over: the pass begins, and has its time. -/
theorem InTime.waited (h : InTime env fleet₀ passes delay t₀ ⟨s, fleet, c⟩)
    (hclock : t₀.Shows (fleet₀.longestCleanup passes delay)) (hc : c.phase = .waiting until_)
    (hdue : until_ ≤ (env.moment s').now) (hnow : (env.moment s').now = (env.moment s).now) :
    InTime env fleet₀ passes delay t₀ ⟨s', fleet, c.waited fleet ctx (env.moment s')⟩ := by
  obtain ⟨hasked, hkeeps, hphase⟩ := h
  simp only [hc] at hphase
  obtain ⟨hmade, hle, huntil⟩ := hphase
  obtain ⟨hend, hlast⟩ := le_longestCleanup hmade huntil
  -- A pass begins just when the wait is over.
  obtain rfl : until_ = (env.moment s').now := Nat.le_antisymm hdue (hnow ▸ hle)
  rw [← hkeeps.config] at hend
  refine ⟨hasked, hkeeps, ?_⟩
  cases hstart : Retry.start? fleet ctx (env.moment s').now with
  | none =>
    unfold Retry.start? at hstart
    split at hstart
    · cases hstart
    · refine absurd (hclock.before ?_)
        (Context.not_shows_of_within? (Option.map_eq_none_iff.mp hstart))
      exact Nat.le_trans hend hlast
  | some r =>
    simp only [Cleanup.waited, hstart]
    exact ⟨hmade, Nat.le_trans (Nat.le_add_right _ _) hend, Retry.limited_start hstart hend⟩

/-- A step of a cleanup at once. -/
theorem Goes.inTime (g : y.Goes env.still ctx new z) (timely : env.Timely)
    (hclock : t₀.Shows (fleet₀.longestCleanup passes delay))
    (horderly : ∀ r, y.cleanup.phase = .retrying r → r.Orderly y.fleet)
    (hnow : (env.moment z.around).now = (env.moment y.around).now)
    (h : InTime env fleet₀ passes delay t₀ y) : InTime env fleet₀ passes delay t₀ z := by
  cases g with
  | later hp => exact hp.elim
  | waited hw he => exact h.waited hclock hw (timely.ends he).2 hnow
  | @interrupted s s' fleet c until_ reason hw he =>
    refine ⟨h.asked, h.keeps, ?_⟩
    show (env.moment s').now ≤ _
    rw [hnow]
    exact h.le_longest
  | @acts s s' fleet fleet' c r r' new hr ho ha =>
    obtain ⟨hasked, hkeeps, hphase⟩ := h
    simp only [hr] at hphase
    obtain ⟨hmade, hle, hlimited⟩ := hphase
    exact ⟨hasked, hkeeps.trans ha.keeps, hmade, hnow ▸ hle, hlimited.acts ho ha⟩
  | @hears s s' fleet fleet' c r r' new hr hh =>
    obtain ⟨hasked, hkeeps, hphase⟩ := h
    simp only [hr] at hphase
    obtain ⟨hmade, hle, hlimited⟩ := hphase
    exact ⟨hasked, hkeeps.trans hh.keeps, hmade, hnow ▸ hle,
      hlimited.hears (hlimited.stands (horderly r hr)) hh⟩
  | @passed s fleet c r hr ho =>
    obtain ⟨⟨rfl, rfl⟩, hkeeps, hphase⟩ := h
    simp only [hr] at hphase
    exact ⟨⟨rfl, rfl⟩, hkeeps, Cleanup.inTime_proceed hclock hphase.1 hphase.2.1⟩

/-- Time passes while all waits last. -/
theorem InTime.rest (h : InTime env fleet₀ passes delay t₀ ⟨s, fleet, c⟩)
    (hc : c.phase.isWaiting = true)
    (hwaits : ∀ w ∈ waits ctx ⟨s, fleet, c⟩, ∀ t, w.1.latest (env.moment s) w.2 = some t →
      (env.moment s').now ≤ t) : InTime env fleet₀ passes delay t₀ ⟨s', fleet, c⟩ := by
  obtain ⟨hasked, hkeeps, hphase⟩ := h
  refine ⟨hasked, hkeeps, ?_⟩
  simp only [waits] at hwaits
  cases hp : c.phase with
  | waiting until_ =>
    simp only [hp] at hphase hwaits ⊢
    obtain ⟨hmade, hle, huntil⟩ := hphase
    obtain ⟨t, ht, hlate⟩ := Context.exists_latest_pause ctx (env.moment s) until_
    have hnow := Nat.le_trans (hwaits _ List.mem_cons_self t ht) hlate
    exact ⟨hmade, Nat.le_trans hnow (Nat.max_le.mpr ⟨hle, Nat.le_refl _⟩), huntil⟩
  | retrying r =>
    simp only [hp] at hphase hwaits ⊢
    obtain ⟨hmade, -, hlimited⟩ := hphase
    simp only [hp, CleanupPhase.isWaiting, Bool.and_eq_true, Bool.not_eq_true', List.all_eq_true]
      at hc
    obtain ⟨a, ha⟩ : ∃ a, a ∈ r.attempts :=
      List.exists_mem_of_ne_nil _ fun hnil => by simp [Retry.isOver, hnil] at hc
    obtain ⟨f, hf⟩ := Option.isSome_iff_exists.mp (hc.2 a ha)
    have hends : f.ctx.EndsBy (t₀ + (fleet₀.longestCleanup c.made delay).nanos) := by
      cases a <;> cases hf
      exact (hlimited _ ha).1
    obtain ⟨t, ht, hlate⟩ := hends.exists_latest (env.moment s) f.wait
    have hflight : f ∈ (Phase.retry r).flights := List.mem_filterMap.mpr ⟨a, ha, hf⟩
    exact ⟨hmade, Nat.le_trans (hwaits _ (Scene.mem_waits hflight ctx s fleet) t ht) hlate,
      hlimited⟩
  | ended result => simp [hp, CleanupPhase.isWaiting] at hc
  | crashed text => simp [hp, CleanupPhase.isWaiting] at hc

/-- Nothing becomes of a cleanup that is over. -/
theorem Goes.isOver (g : y.Goes env.still ctx new z) : y.cleanup.phase.isOver = false := by
  cases g with
  | later hp => exact hp.elim
  | waited hw _ => rw [hw]; rfl
  | interrupted hw _ => rw [hw]; rfl
  | acts hr _ _ => rw [hr]; rfl
  | hears hr _ => rw [hr]; rfl
  | passed hr _ => rw [hr]; rfl

/-- The surroundings may change before a step. -/
theorem InTime.turn (h : InTime env fleet₀ passes delay t₀ ⟨s, fleet, c⟩) (ht : env.Turns s s') :
    InTime env fleet₀ passes delay t₀ ⟨s', fleet, c⟩ :=
  ⟨h.asked, h.keeps, by rw [ht.now_eq]; exact h.phase⟩

/-- A step of a cleanup keeps it in time. -/
theorem Advances.inTime (g : y.Advances env ctx new z) (timely : env.Timely)
    (hclock : t₀.Shows (fleet₀.longestCleanup passes delay))
    (horderly : ∀ r, y.cleanup.phase = .retrying r → r.Orderly y.fleet)
    (h : InTime env fleet₀ passes delay t₀ y) : InTime env fleet₀ passes delay t₀ z := by
  cases g with
  | goes ht hg hnow =>
    exact hg.inTime timely hclock horderly (hnow.trans ht.now_eq.symm) (h.turn ht)
  | rests hc _ _ hwaits => exact h.rest hc hwaits

/-- A step in virtual time is a step, or two where the surroundings change before. -/
theorem Advances.runs {x : Cleaning σ} {hs : List Happening} (g : y.Advances env ctx new z)
    (h : x.Runs env ctx hs y) : x.Runs env ctx (hs ++ new) z := by
  cases g with
  | goes ht hg _ =>
    have hover := hg.isOver
    have hstep := hg.mono env.still_within
    rcases ht with rfl | ⟨hp, -⟩
    · exact .step h hover hstep
    · rw [← List.append_nil hs]
      exact .step (.step h hover (.later hp)) hover hstep
  | @rests s s' fleet c hc hp _ _ =>
    refine .step h ?_ (.later hp)
    cases hphase : c.phase <;> first | rfl | simp [hphase, CleanupPhase.isWaiting] at hc

end Cleaning

end Steps

/-! ## Progress -/

/-- A pause that has run out is over, whether its context has stopped or not. -/
theorem Surroundings.punctual_live : punctual.Live where
  passes h := timed_live.passes h
  opens s := timed_live.opens s
  ends {s ctx w t} h hle := by
    obtain ⟨e, hcalm, htimes, hanswers⟩ := Context.exists_event h hle
    have hends : timed.ends s ctx w e s := ⟨hcalm, hanswers _, .refl _, htimes⟩
    cases w with
    | pause until_ =>
      by_cases hdue : until_ ≤ s.2.now
      · exact ⟨.result (), s, ⟨⟨trivial, rfl, .refl _, hdue⟩, trivial⟩, rfl⟩
      · refine ⟨e, s, ⟨hends, ?_⟩, rfl⟩
        cases e with
        | stopped reason => exact Nat.lt_of_not_le hdue
        | _ => trivial
    | _ => exact ⟨e, s, ⟨hends, trivial⟩, rfl⟩

section Progress

variable {σ : Type} {env : Surroundings σ} {ctx : Context} {fleet : Fleet} {s s' : σ} {c : Cleanup}
  {y : Cleaning σ}

/-- A wait of a cleanup that ends is a step, unless it crashes. -/
theorem Cleaning.exists_goes (timely : env.Timely) {w : Context × Wait}
    (hw : w ∈ waits ctx ⟨s, fleet, c⟩) {e : Event w.2} (he : env.ends s w.1 w.2 e s') :
    ∃ new y, Goes env.still ctx ⟨s, fleet, c⟩ new y ∧ y.around = s' := by
  unfold waits at hw
  cases hc : c.phase with
  | waiting until_ =>
    simp only [hc] at hw
    obtain rfl := List.mem_singleton.mp hw
    cases e with
    | result r => exact ⟨_, _, .waited hc he, rfl⟩
    | stopped reason => exact ⟨_, _, .interrupted hc he, rfl⟩
    | crashed text => exact (timely.ends he).2.elim
  | retrying r =>
    simp only [hc] at hw
    have he' : env.still.ends s w.1 w.2 e s' := he
    obtain ⟨new, ⟨around, fleet', phase⟩, hh, rfl⟩ := Scene.exists_hears hw he'
    obtain ⟨⟨r', rfl⟩, -⟩ := hh.failureCount_eq
    exact ⟨new, _, .hears hc hh, rfl⟩
  | ended result => simp only [hc] at hw; cases hw
  | crashed text => simp only [hc] at hw; cases hw

/-- A cleanup that is not over can go on, whatever hangs. -/
theorem Cleaning.exists_advances (timely : env.Timely) (live : env.Live)
    (hover : y.cleanup.phase.isOver = false) : ∃ new z, y.Advances env ctx new z := by
  obtain ⟨s, fleet, c⟩ := y
  by_cases hwaiting : c.phase.isWaiting = true
  · by_cases hdue : ∃ w ∈ waits ctx ⟨s, fleet, c⟩, ∃ t,
        w.1.latest (env.moment s) w.2 = some t ∧ t ≤ (env.moment s).now
    · obtain ⟨w, hw, t, ht, hle⟩ := hdue
      obtain ⟨e, s', he, hnow⟩ := live.ends ht hle
      obtain ⟨new, y, hg, rfl⟩ := exists_goes timely hw he
      exact ⟨new, y, .goes (.inl rfl) hg hnow⟩
    -- No wait is due, so that some time can pass.
    · have hlt := Nat.lt_succ_self (env.moment s).now
      obtain ⟨s', hpass, hnow⟩ := live.passes hlt
      refine ⟨[], _, .rests hwaiting hpass (hnow ▸ hlt) fun w hw t ht => ?_⟩
      rw [hnow]
      exact Nat.lt_of_not_le fun hle => hdue ⟨w, hw, t, ht, hle⟩
  · cases hc : c.phase with
    | waiting until_ => rw [hc] at hwaiting; exact absurd rfl hwaiting
    | ended result => rw [hc] at hover; cases hover
    | crashed text => rw [hc] at hover; cases hover
    | retrying r =>
      cases hr : r.isOver with
      | true => exact ⟨_, _, .goes (.inl rfl) (.passed hc hr) rfl⟩
      | false =>
        -- Some attempt is not under way, so that it begins or is accounted for.
        obtain ⟨a, ha, hflight⟩ : ∃ a ∈ r.attempts, a.flight?.isSome = false := by
          simpa [hc, CleanupPhase.isWaiting, hr] using hwaiting
        obtain ⟨at_, hat⟩ := List.getElem?_of_mem ha
        cases a with
        | queued index inner =>
          obtain ⟨source, hsource⟩ := live.opens s
          exact ⟨_, _, .goes (.inl rfl) (.acts hc hr (.takeOffAgain hat hsource)) rfl⟩
        | flying f => cases hflight
        | landed index failed =>
          exact ⟨_, _, .goes (.inl rfl) (.acts hc hr (.accountAgain hat rfl)) rfl⟩

end Progress

/-! ## Remaining steps -/

/-- The waits and passes that a cleanup still has before it, after `made` of `passes`. -/
def CleanupPhase.left (passes made : Nat) : CleanupPhase → Nat
  | waiting _ => 2 * (passes - made) + 1
  | retrying _ => 2 * (passes - made) + 2
  | _ => 0

/-- The pass of a cleanup, if it makes one. -/
def CleanupPhase.pass : CleanupPhase → Phase
  | retrying r => .retry r
  | _ => .idle

/-- How far from its end a cleanup of a fleet with `k` canaries is that ends by some point of time:
first the time that is left, then the waits and passes, and then the rank of the pass. -/
def Cleaning.remaining {σ : Type} (env : Surroundings σ) (k passes : Nat) (last : Instant)
    (y : Cleaning σ) : Nat ×ₗ Nat ×ₗ Nat ×ₗ Nat ×ₗ Nat ×ₗ Nat :=
  toLex (last - (env.moment y.around).now, toLex (y.cleanup.phase.left passes y.cleanup.made,
    y.cleanup.phase.pass.rank k (env.moment y.around).now))

section Remaining

variable {σ : Type} {env : Surroundings σ} {ctx : Context} {fleet₀ fleet : Fleet} {s : σ}
  {k passes : Nat} {delay : Duration} {t₀ last : Instant} {x y z : Cleaning σ}
  {hs new : List Happening}

theorem Cleanup.left_proceed (fleet : Fleet) (ctx : Context) (m : Moment) (passes : Nat)
    (delay : Duration) (made : Nat) :
    (proceed fleet ctx m passes delay made).phase.left passes made ≤ 2 * (passes - made) + 1 := by
  unfold proceed
  split
  · exact Nat.zero_le _
  split
  · exact Nat.zero_le _
  split
  · exact Nat.zero_le _
  · exact Nat.le_refl _

theorem Cleanup.left_waited (c : Cleanup) (fleet : Fleet) (ctx : Context) (m : Moment)
    (passes : Nat) : (c.waited fleet ctx m).phase.left passes (c.waited fleet ctx m).made ≤
      2 * (passes - (c.made + 1)) + 2 := by
  unfold waited
  cases Retry.start? fleet ctx m.now with
  | none => exact Nat.zero_le _
  | some r => exact Nat.le_refl _

namespace Cleaning

theorem remaining_lt_of_left (hnow : (env.moment z.around).now = (env.moment y.around).now)
    (h : z.cleanup.phase.left passes z.cleanup.made < y.cleanup.phase.left passes y.cleanup.made) :
    z.remaining env k passes last < y.remaining env k passes last :=
  Prod.Lex.toLex_lt_toLex.mpr (.inr ⟨by rw [hnow], Prod.Lex.toLex_lt_toLex.mpr (.inl h)⟩)

/-- The pass of a cleanup goes on. -/
theorem remaining_lt_of_pass (hnow : (env.moment z.around).now = (env.moment y.around).now)
    (hleft : z.cleanup.phase.left passes z.cleanup.made =
      y.cleanup.phase.left passes y.cleanup.made)
    (h : z.cleanup.phase.pass.rank k (env.moment z.around).now <
      y.cleanup.phase.pass.rank k (env.moment z.around).now) :
    z.remaining env k passes last < y.remaining env k passes last := by
  rw [hnow] at h
  refine Prod.Lex.toLex_lt_toLex.mpr (.inr ⟨by rw [hnow], ?_⟩)
  rw [hnow]
  exact Prod.Lex.toLex_lt_toLex.mpr (.inr ⟨hleft, h⟩)

/-- A step of a cleanup at once leaves less to do. -/
theorem Goes.remaining_lt (g : y.Goes env.still ctx new z) (timely : env.Timely)
    (horderly : ∀ r, y.cleanup.phase = .retrying r → r.Orderly y.fleet)
    (hpoll : 0 < fleet₀.timeouts.pollInterval.nanos)
    (hnow : (env.moment z.around).now = (env.moment y.around).now)
    (h : InTime env fleet₀ passes delay t₀ y) :
    z.remaining env fleet₀.canaries passes last < y.remaining env fleet₀.canaries passes last := by
  obtain ⟨⟨hpasses, -⟩, hkeeps, hphase⟩ := h
  cases g with
  | later hp => exact hp.elim
  | @waited s s' fleet c until_ hw he =>
    refine remaining_lt_of_left hnow ?_
    simp only [hw] at hphase
    have hmade := hphase.1
    have hleft := c.left_waited fleet ctx (env.moment s') passes
    refine Nat.lt_of_le_of_lt hleft ?_
    rw [hw]
    show 2 * (passes - (c.made + 1)) + 2 < 2 * (passes - c.made) + 1
    omega
  | interrupted hw _ =>
    refine remaining_lt_of_left hnow ?_
    rw [hw]
    exact Nat.succ_pos _
  | acts hr ho ha =>
    refine remaining_lt_of_pass hnow (by rw [hr]; rfl) ?_
    rw [hr]
    exact ha.rank_lt ho hkeeps.canaries
  | hears hr hh =>
    simp only [hr] at hphase
    refine remaining_lt_of_pass hnow (by rw [hr]; rfl) ?_
    rw [hr]
    rw [← hkeeps.timeouts] at hpoll
    exact hh.rank_lt timely.still hpoll (hphase.2.2.stands (horderly _ hr)) fun f hf => by cases hf
  | @passed s fleet c r hr _ =>
    refine remaining_lt_of_left hnow ?_
    subst hpasses
    rw [hr]
    exact Nat.lt_succ_of_le (Cleanup.left_proceed fleet ctx _ c.passes c.delay c.made)

/-- Each step brings a cleanup that is in time nearer to its end. -/
theorem Advances.remaining_lt (g : y.Advances env ctx new z) (timely : env.Timely)
    (horderly : ∀ r, y.cleanup.phase = .retrying r → r.Orderly y.fleet)
    (hpoll : 0 < fleet₀.timeouts.pollInterval.nanos)
    (hlast : (env.moment z.around).now ≤ last)
    (h : InTime env fleet₀ passes delay t₀ y) :
    z.remaining env fleet₀.canaries passes last < y.remaining env fleet₀.canaries passes last := by
  cases g with
  | @goes s s' fleet c new _ ht hg hnow =>
    have hlt : z.remaining env fleet₀.canaries passes last <
        remaining env fleet₀.canaries passes last ⟨s', fleet, c⟩ :=
      hg.remaining_lt timely horderly hpoll (hnow.trans ht.now_eq.symm) (h.turn ht)
    simpa only [remaining, ht.now_eq] using hlt
  | rests _ _ hlt _ =>
    exact Prod.Lex.toLex_lt_toLex.mpr
      (.inl (Nat.sub_lt_sub_left (Nat.lt_of_lt_of_le hlt hlast) hlt))

end Cleaning

/-! ## The end -/

/-- The end of a cleanup: it has come there by its steps, and returned by some point of time. -/
structure Cleaning.Returned (env : Surroundings σ) (ctx : Context) (last : Instant)
    (x : Cleaning σ) (hs : List Happening) (y : Cleaning σ) : Prop where
  runs : x.Runs env ctx hs y
  ended : ∃ result, y.cleanup.phase = .ended result
  elapsed : (env.moment y.around).now ≤ last

/-- A cleanup returns, and no later than all its waits and passes may last. -/
theorem Cleaning.inevitable (timely : env.Timely) (live : env.Live)
    (hclock : (env.moment s).now.Shows (fleet.longestCleanup passes delay))
    (hpoll : 0 < fleet.timeouts.pollInterval.nanos)
    (horderly : ∀ {hs : List Happening} {y : Cleaning σ} {r : Retry},
      Runs env ctx (start env ctx s fleet passes delay) hs y → y.cleanup.phase = .retrying r →
        r.Orderly y.fleet) :
    Inevitable (Advances env ctx)
      (Returned env ctx ((env.moment s).now.after (fleet.longestCleanup passes delay))
        (start env ctx s fleet passes delay)) [] (start env ctx s fleet passes delay) := by
  have begins : InTime env fleet passes delay (env.moment s).now
      (start env ctx s fleet passes delay) :=
    ⟨⟨rfl, rfl⟩, .refl fleet, Cleanup.inTime_proceed hclock (Nat.zero_le _) (Nat.le_add_right _ _)⟩
  refine Inevitable.of_lt (P := fun hs y => Runs env ctx (start env ctx s fleet passes delay) hs y ∧
      InTime env fleet passes delay (env.moment s).now y)
    (remaining env fleet.canaries passes ((env.moment s).now.after
      (fleet.longestCleanup passes delay))) (fun {hs y} h => ?_) ⟨.here, begins⟩
  obtain ⟨hruns, htime⟩ := h
  cases hover : y.cleanup.phase.isOver with
  | true => exact .inl ⟨hruns, htime.ended hover, htime.le_longest⟩
  | false =>
    refine .inr ⟨exists_advances timely live hover, fun new z hg => ?_⟩
    have htime' := hg.inTime timely hclock (fun _ => horderly hruns) htime
    exact ⟨⟨hg.runs hruns, htime'⟩,
      hg.remaining_lt timely (fun _ => horderly hruns) hpoll htime'.le_longest htime⟩

end Remaining

end Rollout
