import Mathlib.Algebra.Order.BigOperators.Group.List
import Mathlib.Data.List.Chain
import Rollout.Proofs.Fleet.Passes

/-!
# What a cleanup does

A cleanup makes passes until no upgrade has an error, and no more of them than it may.

- **Between passes** (`Tending.settled`): where no pass is under way, no run is, and the count of
  failures is right, so that a pass may begin.
- **The log** (`Cleaning.Passed`): the passes of a cleanup, each from where the one before it ended.
  `Cleaning.Passed.begin` is one more pass, `Cleaning.Passed.grow` a step of the last one.
- **A step** (`Cleaning.Goes.accounted`): by the kind of the step, what is told of a cleanup stays
  right; `Cleanup.accounted_proceed` is the decision between passes, at the start and behind each of
  them.
- **The law** (`cleanup_exact`): what a cleanup has done, wherever it comes to (`Cleaning.Exact`),
  by induction over the steps; and that it returns.
-/

namespace Rollout

/-! ## Failing upgrades -/

namespace Fleet

variable {fleet : Fleet} {i : Nat}

theorem mem_failedAt : i ∈ fleet.failedAt ↔ (fleet.upgrade? i).any (·.err.isSome) = true := by
  rw [failedAt, index_failures, List.mem_filter, List.mem_range]
  refine and_iff_right_of_imp fun h => ?_
  by_contra hi
  have hnone : fleet.upgrade? i = none := List.getElem?_eq_none (Nat.le_of_not_lt hi)
  rw [hnone] at h
  cases h

theorem isEmpty_failures : fleet.failures.isEmpty = true ↔ fleet.failedAt = [] := by
  simp [failedAt]

theorem length_failedAt : fleet.failedAt.length = fleet.failures.length := List.length_map _

end Fleet

/-! ## Between passes -/

/-- Where a pass may begin: no run is under way, and the failures are counted. -/
def Fleet.Settled (fleet : Fleet) : Prop :=
  (∀ {i : Nat} {u : Upgrade}, fleet.upgrade? i = some u → u.AtRest) ∧
    fleet.failures.length = fleet.failureCount

section Idle

variable {σ : Type} {env : Surroundings σ} {ctx inner : Context} {c : Config}
  {timeouts : StageTimeouts} {fleet fleet₁ : Fleet} {s s₁ : σ} {hs hs' : List Happening}

/-- Where no pass is under way after a rollout that succeeded, a pass may begin. -/
theorem Tending.settled {y : Tended σ} (hc : Fleet.ofConfig c timeouts = .ok fleet)
    (calm : env.Calm)
    (h : Course env ctx ⟨s, fleet, .idle⟩ hs ⟨s₁, fleet₁, .rollout (.ended (.ok ()))⟩)
    (ht : Tending env ⟨s₁, fleet₁, .rest⟩ hs' y) (hi : y.care.isIdle = true) :
    y.fleet.Settled := by
  obtain ⟨-, -, hnew⟩ := Fleet.config_of_ofConfig hc
  obtain ⟨p, hcourse, hmeets, hsuccess⟩ := ht.course h.restless rfl (h.endState_success hc calm)
  have calm' : env.restless.Calm := calm
  have ho : p.Orderly y.fleet := hcourse.orderly calm' hnew
  have hcounted : p.Counted y.fleet := hcourse.counted calm' hnew trivial
  have hover := hmeets.isOver hi
  exact ⟨fun hu => ho.settled hover hu, hcounted.settled hover hsuccess⟩

/-- The upgrades of a pass of a cleanup are in order. -/
theorem Tending.orderly {y : σ} {fleet' : Fleet} {cl : Cleanup} {r : Retry}
    (hc : Fleet.ofConfig c timeouts = .ok fleet) (calm : env.Calm)
    (h : Course env ctx ⟨s, fleet, .idle⟩ hs ⟨s₁, fleet₁, .rollout (.ended (.ok ()))⟩)
    (ht : Tending env ⟨s₁, fleet₁, .rest⟩ hs' ⟨y, fleet', .cleanup inner cl⟩)
    (hr : cl.phase = .retrying r) : r.Orderly fleet' := by
  obtain ⟨-, -, hnew⟩ := Fleet.config_of_ofConfig hc
  obtain ⟨p, hcourse, hmeets, -⟩ := ht.course h.restless rfl (h.endState_success hc calm)
  have calm' : env.restless.Calm := calm
  have ho : p.Orderly fleet' := hcourse.orderly calm' hnew
  have hmeets : cl.phase.Meets p := hmeets
  rw [hr] at hmeets
  obtain rfl : p = .retry r := hmeets
  exact ho

/-- A cleanup that is asked for is part of what becomes of the fleet. -/
theorem Cleaning.Runs.tending {x y : Cleaning σ} {z : Tended σ} (h : x.Runs env inner hs' y)
    (hz : Tending env z hs ⟨x.around, x.fleet, .cleanup inner x.cleanup⟩) :
    Tending env z (hs ++ hs') ⟨y.around, y.fleet, .cleanup inner y.cleanup⟩ := by
  induction h with
  | here =>
    rw [List.append_nil]
    exact hz
  | step _ _ hgoes ih =>
    rw [← List.append_assoc]
    exact ih.step (.cleaning hgoes)

end Idle

/-! ## The log -/

namespace Cleaning

variable {σ : Type} {env : Surroundings σ} {ctx : Context} {delay : Duration} {x y : Cleaning σ}
  {log done : List (Pass σ)} {p p' q : Pass σ}

/-- The passes of a cleanup: each goes as it should, and takes over where the one before it
ended. -/
structure Passed (env : Surroundings σ) (ctx : Context) (delay : Duration) (x : Cleaning σ)
    (log : List (Pass σ)) : Prop where
  first : ∀ p ∈ log.head?, p.waits = x.around ∧ p.before = x.fleet
  chain : log.IsChain Pass.Precedes
  made : ∀ p ∈ log, p.Made env ctx delay ∧ p.retry.Reruns p.before p.after p.happenings

/-- No pass is under way. -/
def Between (log : List (Pass σ)) : Prop := ∀ p ∈ log.getLast?, p.retry.isOver = true

/-- One more pass begins. -/
theorem Passed.begin (h : x.Passed env ctx delay log) (hover : Between log)
    (hwaits : q.waits = (x.standing log).1) (hbefore : q.before = (x.standing log).2)
    (hq : q.Made env ctx delay ∧ q.retry.Reruns q.before q.after q.happenings) :
    x.Passed env ctx delay (log ++ [q]) where
  first p hp := by
    cases log with
    | nil =>
      obtain rfl : q = p := by simpa using hp
      exact ⟨hwaits, hbefore⟩
    | cons first rest => exact h.first p (by simpa using hp)
  chain := by
    refine List.isChain_append.mpr ⟨h.chain, .singleton q, fun p hp q' hq' => ?_⟩
    obtain rfl : q = q' := by simpa using hq'
    refine ⟨hover p hp, ?_, ?_⟩
    · simpa [standing, Option.mem_def.mp hp] using hwaits
    · simpa [standing, Option.mem_def.mp hp] using hbefore
  made p hp := by
    rcases List.mem_append.mp hp with hp | hp
    · exact h.made p hp
    · rw [List.mem_singleton.mp hp]
      exact hq

/-- The last pass goes on. -/
theorem Passed.grow (h : x.Passed env ctx delay (done ++ [p])) (hwaits : p'.waits = p.waits)
    (hbefore : p'.before = p.before)
    (hp' : p'.Made env ctx delay ∧ p'.retry.Reruns p'.before p'.after p'.happenings) :
    x.Passed env ctx delay (done ++ [p']) := by
  obtain ⟨hdone, -, hlast⟩ := List.isChain_append.mp h.chain
  refine ⟨fun q hq => ?_, List.isChain_append.mpr ⟨hdone, .singleton p', fun q hq r hr => ?_⟩,
    fun q hq => ?_⟩
  · cases done with
    | nil =>
      obtain rfl : p' = q := by simpa using hq
      rw [hwaits, hbefore]
      exact h.first p (by simp)
    | cons first rest => exact h.first q (by simpa using hq)
  · obtain rfl : p' = r := by simpa using hr
    have hprecedes := hlast q hq p (by simp)
    exact ⟨hprecedes.ended, hwaits.trans hprecedes.waits, hbefore.trans hprecedes.before⟩
  · rcases List.mem_append.mp hq with hq | hq
    · exact h.made q (List.mem_append_left _ hq)
    · rw [List.mem_singleton.mp hq]
      exact hp'

/-! ## What is told of a cleanup -/

variable {passes : Nat}

/-- What the result of a cleanup that has just ended says: that no upgrade has an error, or that all
passes were made and some upgrades have, or that some have and the context stopped before the wait
for the next pass was over. -/
def Returns (env : Surroundings σ) (ctx : Context) (passes : Nat) (delay : Duration)
    (x : Cleaning σ) (log : List (Pass σ)) (y : Cleaning σ) : Except RunError Unit → Prop
  | .ok () => y.fleet.failedAt = []
  | .error (.retryExhausted remaining n) =>
    n = passes ∧ log.length = passes ∧ remaining = y.fleet.failedAt.length ∧ 0 < remaining
  | .error (.interrupted reason) =>
    y.fleet.failedAt ≠ [] ∧ log.length < passes ∧
      ctx.stopped (env.moment y.around) = some reason ∧
      (env.moment (x.standing log).1).Precedes (env.moment y.around) ∧
      (y.around = (x.standing log).1 ∨
        (env.moment y.around).now < (env.moment (x.standing log).1).now.wakeAfter delay)
  | .error _ => False

/-- What is told of a cleanup with a log that waits for its next pass. -/
structure Awaits (env : Surroundings σ) (ctx : Context) (passes : Nat) (delay : Duration)
    (x : Cleaning σ) (log : List (Pass σ)) (y : Cleaning σ) (until_ : Instant) : Prop where
  between : Between log
  fleet : y.fleet = (x.standing log).2
  made : y.cleanup.made = log.length
  left : log.length < passes
  failing : y.fleet.failedAt ≠ []
  until_ : until_ = (env.moment (x.standing log).1).now.wakeAfter delay
  unstopped : ctx.stopped (env.moment (x.standing log).1) = none
  precedes : (env.moment (x.standing log).1).Precedes (env.moment y.around)

/-- What is told of the phase of a cleanup with a log. -/
def Tells (env : Surroundings σ) (ctx : Context) (passes : Nat) (delay : Duration)
    (x : Cleaning σ) (log : List (Pass σ)) (y : Cleaning σ) : Prop :=
  match y.cleanup.phase with
  | .waiting until_ => Awaits env ctx passes delay x log y until_
  | .retrying r => ∃ done p, log = done ++ [p] ∧ p.retry = r ∧ p.now = y.around ∧
    p.after = y.fleet ∧ y.cleanup.made = log.length
  | .ended result => Between log ∧ y.fleet = (x.standing log).2 ∧
    Returns env ctx passes delay x log y result
  | .crashed _ => Between log ∧ y.fleet = (x.standing log).2 ∧
    ¬ (env.moment y.around).now.Shows y.fleet.config.actionTimeout

/-- What is told of a cleanup: the log of its passes, no more than there may be, and its phase. -/
structure Accounted (env : Surroundings σ) (ctx : Context) (passes : Nat) (delay : Duration)
    (x : Cleaning σ) (hs : List Happening) (log : List (Pass σ)) (y : Cleaning σ) : Prop where
  passed : x.Passed env ctx delay log
  happened : hs = log.flatMap (·.happenings)
  bounded : log.length ≤ passes
  asked : y.cleanup.passes = passes ∧ y.cleanup.delay = delay
  phase : Tells env ctx passes delay x log y

end Cleaning

section Steps

variable {σ : Type} {env : Surroundings σ} {ctx : Context} {passes : Nat} {delay : Duration}
  {x y z : Cleaning σ} {hs new : List Happening} {log : List (Pass σ)}

open Cleaning

/-- The decision between passes, at the start and behind each of them. -/
theorem Cleanup.accounted_proceed {s : σ} {fleet : Fleet} (hpassed : x.Passed env ctx delay log)
    (hhappened : hs = log.flatMap (·.happenings)) (hbounded : log.length ≤ passes)
    (hover : Between log) (hs' : (x.standing log).1 = s) (hfleet : (x.standing log).2 = fleet) :
    Accounted env ctx passes delay x hs log
      ⟨s, fleet, proceed fleet ctx (env.moment s) passes delay log.length⟩ := by
  refine ⟨hpassed, hhappened, hbounded, ⟨rfl, rfl⟩, ?_⟩
  subst hs' hfleet
  simp only [proceed]
  by_cases hclean : (x.standing log).2.failures.isEmpty = true
  · simp only [hclean, if_true]
    exact ⟨hover, rfl, Fleet.isEmpty_failures.mp hclean⟩
  have hdirty : (x.standing log).2.failedAt ≠ [] := fun h => hclean (Fleet.isEmpty_failures.mpr h)
  by_cases hused : passes ≤ log.length
  · simp only [hclean, hused, if_true]
    exact ⟨hover, rfl, rfl, by omega, Fleet.length_failedAt.symm,
      Fleet.length_failedAt ▸ List.length_pos_iff.mpr hdirty⟩
  cases hstopped : ctx.stopped (env.moment (x.standing log).1) with
  | some reason =>
    simp only [hclean, hused]
    exact ⟨hover, rfl, hdirty, by omega, hstopped, .refl _, .inl rfl⟩
  | none =>
    simp only [hclean, hused]
    exact ⟨hover, rfl, rfl, by omega, hdirty, rfl, hstopped, .refl _⟩

/-- What is told of a cleanup that makes a pass, when the pass goes on. -/
theorem Cleaning.Accounted.grow {r r' : Retry} {s' : σ} {fleet' : Fleet} {c : Cleanup}
    (h : Accounted env ctx passes delay x hs log y) (hr : y.cleanup.phase = .retrying r)
    (hc : c = { y.cleanup with phase := .retrying r' })
    (hleg : ∀ {s₀ : σ} {fleet₀ : Fleet} {r₀ : Retry} {hs₀ : List Happening},
      Leg env ctx ⟨s₀, fleet₀, .retry r₀⟩ hs₀ ⟨y.around, y.fleet, .retry r⟩ →
        Leg env ctx ⟨s₀, fleet₀, .retry r₀⟩ (hs₀ ++ new) ⟨s', fleet', .retry r'⟩)
    (hreruns : ∀ {fleet₀ : Fleet} {hs₀ : List Happening}, r.Reruns fleet₀ y.fleet hs₀ →
      r'.Reruns fleet₀ fleet' (hs₀ ++ new)) :
    ∃ log', Accounted env ctx passes delay x (hs ++ new) log' ⟨s', fleet', c⟩ := by
  obtain ⟨hpassed, hhappened, hbounded, hasked, hphase⟩ := h
  rw [Tells, hr] at hphase
  obtain ⟨done, p, rfl, rfl, hnow, hafter, hmade⟩ := hphase
  obtain ⟨⟨hfailing, hunstopped, hwaited, r₀, hstart, hp⟩, hp'⟩ := hpassed.made p (by simp)
  rw [hnow, hafter] at hp
  rw [hafter] at hp'
  subst hc
  refine ⟨done ++ [{ p with
    happenings := p.happenings ++ new, retry := r', now := s', after := fleet' }],
    hpassed.grow rfl rfl ⟨⟨hfailing, hunstopped, hwaited, r₀, hstart, hleg hp⟩, hreruns hp'⟩, ?_,
    by simpa using hbounded, hasked, done, _, rfl, rfl, rfl, rfl, by simpa using hmade⟩
  rw [hhappened]
  simp

/-- Nothing is seen of a step, and the log stays. -/
theorem Cleaning.Accounted.stay (h : Accounted env ctx passes delay x hs log y)
    (hasked : z.cleanup.passes = passes ∧ z.cleanup.delay = delay)
    (hphase : Tells env ctx passes delay x log z) :
    ∃ log', Accounted env ctx passes delay x (hs ++ []) log' z :=
  ⟨log, h.passed, (List.append_nil hs).trans h.happened, h.bounded, hasked, hphase⟩

section Idle

variable {s s' : σ} {fleet : Fleet} {c : Cleanup} {until_ : Instant}

theorem Cleaning.Tells.awaits (h : Tells env ctx passes delay x log y)
    (hc : y.cleanup.phase = .waiting until_) : Awaits env ctx passes delay x log y until_ := by
  rw [Tells, hc] at h
  exact h

/-- What is told of a cleanup that waits for its next pass stays right while time passes. -/
theorem Cleaning.Awaits.later (h : Awaits env ctx passes delay x log ⟨s, fleet, c⟩ until_)
    (hm : (env.moment s).Precedes (env.moment s')) :
    Awaits env ctx passes delay x log ⟨s', fleet, c⟩ until_ :=
  { h with precedes := h.precedes.trans hm }

/-- Where some upgrade has an error, the next pass begins when the clock can show its end. -/
theorem Fleet.exists_start (ctx : Context) (hfailing : fleet.failedAt ≠ []) {now : Instant}
    (hshows : now.Shows fleet.config.actionTimeout) :
    ∃ r, Retry.start? fleet ctx now = some r := by
  have hfailures : ¬ fleet.failures.isEmpty = true := fun h =>
    hfailing (Fleet.isEmpty_failures.mp h)
  cases hstart : Retry.start? fleet ctx now with
  | some r => exact ⟨r, rfl⟩
  | none =>
    rw [Retry.start?, if_neg hfailures, Option.map_eq_none_iff] at hstart
    exact absurd hshows (Context.not_shows_of_within? hstart)

/-- The wait for the next pass is over: the pass begins, or the clock overflows. -/
theorem Cleaning.Accounted.waited (h : Accounted env ctx passes delay x hs log ⟨s, fleet, c⟩)
    (hc : c.phase = .waiting until_) (huntil : until_ ≤ (env.moment s').now)
    (hsettled : fleet.Settled) : ∃ log', Accounted env ctx passes delay x (hs ++ []) log'
      ⟨s', fleet, c.waited fleet ctx (env.moment s')⟩ := by
  have ha := h.phase.awaits hc
  cases hstart : Retry.start? fleet ctx (env.moment s').now with
  | none =>
    refine h.stay h.asked ?_
    simp only [Tells, Cleanup.waited, hstart]
    refine ⟨ha.between, ha.fleet, fun hshows => ?_⟩
    obtain ⟨r, hr⟩ := Fleet.exists_start ctx ha.failing hshows
    rw [hr] at hstart
    cases hstart
  | some r =>
    obtain ⟨hrest, hcount⟩ := hsettled
    have hq := h.passed.begin ha.between
      (q := ⟨(x.standing log).1, s', fleet, [], r, s', fleet⟩) rfl ha.fleet
      ⟨⟨ha.failing, ha.unstopped, ha.until_ ▸ huntil, r, hstart, .here⟩,
        .start hstart hrest hcount⟩
    have hleft := ha.left
    refine ⟨_, hq, by simpa using h.happened, by simp; omega, h.asked, ?_⟩
    simp only [Tells, Cleanup.waited, hstart]
    exact ⟨log, _, rfl, rfl, rfl, rfl, by simpa using ha.made⟩

end Idle

/-- A step of a cleanup keeps what is told of it right. -/
theorem Cleaning.Goes.accounted (g : y.Goes env ctx new z) (calm : env.Calm)
    (punctual : env.Punctual) (hopen : y.cleanup.phase.isOver = false)
    (hsettled : ∀ {until_ : Instant}, y.cleanup.phase = .waiting until_ → y.fleet.Settled)
    (h : Accounted env ctx passes delay x hs log y) :
    ∃ log', Accounted env ctx passes delay x (hs ++ new) log' z := by
  cases g with
  | @later s s' fleet c hlater =>
    cases hc : c.phase with
    | retrying r =>
      refine h.grow hc (by rw [← hc]) (fun hleg => ?_) (fun hreruns => ?_)
      · rw [List.append_nil]
        exact hleg.later hlater
      · rw [List.append_nil]
        exact hreruns
    | waiting until_ =>
      have ha := (h.phase.awaits hc).later (punctual.passes hlater)
      exact h.stay h.asked (by simpa only [Tells, hc] using ha)
    | ended result => rw [hc] at hopen; cases hopen
    | crashed text => rw [hc] at hopen; cases hopen
  | waited hwaiting hends => exact h.waited hwaiting (punctual.ends hends).2 (hsettled hwaiting)
  | @interrupted s s' fleet c until_ reason hwaiting hends =>
    have ha := h.phase.awaits hwaiting
    obtain ⟨hlater, hstopped⟩ := punctual.ends hends
    refine h.stay h.asked ?_
    exact ⟨ha.between, ha.fleet, ha.failing, ha.left, hstopped, ha.precedes.trans hlater,
      .inr (ha.until_ ▸ punctual.pause hends)⟩
  | @acts s s' fleet fleet' c r r' new hretrying hover hacts =>
    refine h.grow hretrying rfl (fun hleg => hleg.act hover hacts) (fun hreruns => ?_)
    obtain ⟨r'', hr'', hreruns'⟩ := hacts.reruns hover hreruns
    cases hr''
    exact hreruns'
  | @hears s s' fleet fleet' c r r' new hretrying hhears =>
    refine h.grow hretrying rfl (fun hleg => hleg.hear hhears) (fun hreruns => ?_)
    obtain ⟨r'', hr'', hreruns'⟩ := hhears.reruns calm hreruns
    cases hr''
    exact hreruns'
  | @passed s fleet c r hretrying hover =>
    obtain ⟨hpassed, hhappened, hbounded, ⟨rfl, rfl⟩, hphase⟩ := h
    simp only [Tells, hretrying] at hphase
    obtain ⟨done, p, rfl, rfl, rfl, rfl, hmade⟩ := hphase
    refine ⟨done ++ [p], ?_⟩
    rw [List.append_nil, Cleanup.passed, hmade]
    have hbetween : Between (done ++ [p]) := fun q hq => by
      obtain rfl : p = q := by simpa using hq
      exact hover
    have hnow : (x.standing (done ++ [p])).1 = p.now := by simp [standing]
    have hafter : (x.standing (done ++ [p])).2 = p.after := by simp [standing]
    exact Cleanup.accounted_proceed hpassed hhappened hbounded hbetween hnow hafter

/-- What is told of a cleanup, wherever it comes to. -/
theorem Cleaning.Runs.accounted {fleet : Fleet} {s : σ} (calm : env.Calm)
    (punctual : env.Punctual) (hy : Runs env ctx (start env ctx s fleet passes delay) new y)
    (hsettled : ∀ {hs : List Happening} {z : Cleaning σ} {until_ : Instant},
      Runs env ctx (start env ctx s fleet passes delay) hs z →
        z.cleanup.phase = .waiting until_ → z.fleet.Settled) :
    ∃ log, Accounted env ctx passes delay (start env ctx s fleet passes delay) new log y := by
  induction hy with
  | here =>
    refine ⟨[], Cleanup.accounted_proceed ⟨by simp, .nil, by simp⟩ rfl (Nat.zero_le _) ?_ rfl rfl⟩
    simp [Between]
  | @step hs new y z hruns hopen hgoes ih =>
    obtain ⟨log, hlog⟩ := ih
    exact hgoes.accounted calm punctual hopen (hsettled hruns) hlog

end Steps

/-! ## The law -/

section Law

variable {σ : Type} {env : Surroundings σ} {ctx : Context} {delay : Duration} {x : Cleaning σ}
  {log : List (Pass σ)}

namespace Cleaning.Passed

/-- An upgrade without an error has none behind a pass. -/
theorem subset_before (h : x.Passed env ctx delay log) {p : Pass σ} (hp : p ∈ log) {i : Nat}
    (hi : i ∈ p.after.failedAt) : i ∈ p.before.failedAt := by
  have hruns : (⟨p.now, p.after, .retry p.retry⟩ : Scene σ).RunsAgain p.before p.happenings :=
    (h.made p hp).2.runsAgain rfl
  by_contra hnot
  rw [Fleet.mem_failedAt, (hruns.others i hnot).1, ← Fleet.mem_failedAt] at hi
  exact hnot hi

/-- An upgrade without an error behind a pass has none in any later pass. -/
theorem pairwise (h : x.Passed env ctx delay log) :
    log.Pairwise fun p q => ∀ i ∈ q.before.failedAt, i ∈ p.after.failedAt := by
  have hsubset : ∀ q ∈ log, ∀ i ∈ q.after.failedAt, i ∈ q.before.failedAt :=
    fun q hq i hi => h.subset_before hq hi
  have hchain := h.chain
  clear h
  induction log with
  | nil => exact .nil
  | cons p rest ih =>
    refine .cons (fun q hq i hi => ?_)
      (ih (fun q hq => hsubset q (List.mem_cons_of_mem _ hq)) hchain.tail)
    have hlater := ih (fun q hq => hsubset q (List.mem_cons_of_mem _ hq)) hchain.tail
    cases rest with
    | nil => simp at hq
    | cons next rest =>
      have hnext : next.before = p.after := (List.isChain_cons_cons.mp hchain).1.before
      rw [← hnext]
      rcases List.mem_cons.mp hq with rfl | hq
      · exact hi
      · exact hsubset next (by simp) i ((List.pairwise_cons.mp hlater).1 q hq i hi)

/-- Each pass enters an upgrade once at most. -/
theorem count_entries_le (h : x.Passed env ctx delay log) (i : Nat) :
    (entries (log.flatMap (·.happenings))).count i ≤ log.length := by
  have honce : ∀ n ∈ log.map fun p => (entries p.happenings).count i, n ≤ 1 := by
    intro n hn
    obtain ⟨p, hp, rfl⟩ := List.mem_map.mp hn
    have hruns : (⟨p.now, p.after, .retry p.retry⟩ : Scene σ).RunsAgain p.before p.happenings :=
      (h.made p hp).2.runsAgain rfl
    exact List.nodup_iff_count_le_one.mp hruns.once.1 i
  have hsum : (log.map fun p => (entries p.happenings).count i).sum ≤ log.length := by
    simpa using List.sum_le_card_nsmul _ _ honce
  rw [entries, List.filterMap_flatMap, List.count_flatMap]
  exact hsum

end Cleaning.Passed

/-- What a cleanup has done wherever it has come to, with the log of its passes. -/
structure Cleaning.Exact (env : Surroundings σ) (ctx : Context) (passes : Nat) (delay : Duration)
    (x : Cleaning σ) (hs : List Happening) (log : List (Pass σ)) (y : Cleaning σ) : Prop where
  /-- All that happened, happened in its passes, one after the other. -/
  happened : hs = log.flatMap (·.happenings)
  first : ∀ p ∈ log.head?, p.waits = x.around ∧ p.before = x.fleet
  chain : log.IsChain Pass.Precedes
  /-- There are no more passes than there may be. -/
  bounded : log.length ≤ passes
  /-- Each is behind the full delay, only while some upgrade has an error, and runs exactly the
  upgrades that have one, each once. -/
  made : ∀ p ∈ log, p.Made env ctx delay ∧
    (⟨p.now, p.after, .retry p.retry⟩ : Scene σ).RunsAgain p.before p.happenings
  /-- What has no error behind a pass has none before any later one. -/
  never : log.Pairwise fun p q => ∀ i ∈ q.before.failedAt, i ∈ p.after.failedAt
  /-- No upgrade is run in more than all passes. -/
  runs : ∀ i, (entries hs).count i ≤ passes
  /-- Where no pass is under way, the fleet is as the last one left it. -/
  between : y.cleanup.phase.isRetrying = false → Between log ∧ y.fleet = (x.standing log).2
  /-- The pass under way is the last one. -/
  within : ∀ r, y.cleanup.phase = .retrying r →
    ∃ p ∈ log.getLast?, p.retry = r ∧ p.now = y.around ∧ p.after = y.fleet
  /-- Where the delay before a pass is over, the pass begins. -/
  next : ∀ until_, y.cleanup.phase = .waiting until_ →
    Awaits env ctx passes delay x log y until_ ∧
    ∀ s', env.ends y.around ctx (.pause until_) (.result ()) s' →
      (env.moment s').now.Shows y.fleet.config.actionTimeout →
      ∃ r, Retry.start? y.fleet ctx (env.moment s').now = some r ∧
        y.Goes env ctx [] ⟨s', y.fleet, ⟨passes, delay, log.length + 1, .retrying r⟩⟩
  /-- It succeeds exactly when no upgrade has an error, gives up only when all passes were made, and
  is interrupted only when the context stopped before the delay was over. -/
  returns : ∀ result, y.cleanup.phase = .ended result →
    (result = .ok () ↔ y.fleet.failedAt = []) ∧ Returns env ctx passes delay x log y result
  crashes : ∀ text, y.cleanup.phase = .crashed text →
    ¬ (env.moment y.around).now.Shows y.fleet.config.actionTimeout

namespace Cleaning

variable {passes : Nat} {y : Cleaning σ} {hs : List Happening}

theorem Returns.ok_iff {result : Except RunError Unit}
    (h : Returns env ctx passes delay x log y result) :
    result = .ok () ↔ y.fleet.failedAt = [] := by
  constructor
  · rintro rfl
    exact h
  · intro hclean
    match result, h with
    | .ok (), _ => rfl
    | .error (.retryExhausted remaining n), ⟨_, _, hremaining, hpos⟩ =>
      rw [hremaining, hclean] at hpos
      cases hpos
    | .error (.interrupted reason), ⟨hfailing, _⟩ => exact absurd hclean hfailing

/-- Where the delay before a pass is over, the pass begins. -/
theorem Accounted.next (h : Accounted env ctx passes delay x hs log y) {until_ : Instant}
    (hc : y.cleanup.phase = .waiting until_) {s' : σ}
    (he : env.ends y.around ctx (.pause until_) (.result ()) s')
    (hshows : (env.moment s').now.Shows y.fleet.config.actionTimeout) :
    ∃ r, Retry.start? y.fleet ctx (env.moment s').now = some r ∧
      y.Goes env ctx [] ⟨s', y.fleet, ⟨passes, delay, log.length + 1, .retrying r⟩⟩ := by
  have ha := h.phase.awaits hc
  obtain ⟨r, hr⟩ := Fleet.exists_start ctx ha.failing hshows
  obtain ⟨around, fleet, ⟨p, d, made, phase⟩⟩ := y
  obtain ⟨rfl, rfl⟩ : p = passes ∧ d = delay := h.asked
  obtain rfl : made = log.length := ha.made
  have hgoes : Goes env ctx ⟨around, fleet, ⟨p, d, log.length, phase⟩⟩ _ _ := .waited hc he
  simp only [Cleanup.waited, hr] at hgoes
  exact ⟨r, hr, hgoes⟩

/-- What is told of a cleanup is all that is to be shown of it. -/
theorem Accounted.exact (h : Accounted env ctx passes delay x hs log y) :
    Exact env ctx passes delay x hs log y where
  happened := h.happened
  first := h.passed.first
  chain := h.passed.chain
  bounded := h.bounded
  made p hp := ⟨(h.passed.made p hp).1, (h.passed.made p hp).2.runsAgain rfl⟩
  never := h.passed.pairwise
  runs i := by
    rw [h.happened]
    exact (h.passed.count_entries_le i).trans h.bounded
  between hidle := by
    have hphase := h.phase
    unfold Tells at hphase
    cases hc : y.cleanup.phase with
    | waiting until_ =>
      have ha := h.phase.awaits hc
      exact ⟨ha.between, ha.fleet⟩
    | retrying r => rw [hc] at hidle; cases hidle
    | ended result => rw [hc] at hphase; exact ⟨hphase.1, hphase.2.1⟩
    | crashed text => rw [hc] at hphase; exact ⟨hphase.1, hphase.2.1⟩
  within r hc := by
    have hphase := h.phase
    rw [Tells, hc] at hphase
    obtain ⟨done, p, rfl, hretry, hnow, hafter, -⟩ := hphase
    exact ⟨p, by simp, hretry, hnow, hafter⟩
  next until_ hc := ⟨h.phase.awaits hc, fun s' he hshows => h.next hc he hshows⟩
  returns result hc := by
    have hphase := h.phase
    rw [Tells, hc] at hphase
    exact ⟨hphase.2.2.ok_iff, hphase.2.2⟩
  crashes text hc := by
    have hphase := h.phase
    rw [Tells, hc] at hphase
    exact hphase.2.2

end Cleaning

variable {inner : Context} {c : Config} {timeouts : StageTimeouts} {fleet fleet₁ fleet₂ : Fleet}
  {s s₁ s₂ : σ} {hs hs' : List Happening}

/-- **A cleanup is exact and bounded, and returns.** It may be asked for after a rollout that
succeeded, and after other passes and cleanups. Wherever it comes to, it has made its passes as it
should (`Cleaning.Exact`). And where nothing stands in its way and the clock can show the end of all
its passes, it returns, no later than these and the waits before them may last. -/
theorem cleanup_exact (hc : Fleet.ofConfig c timeouts = .ok fleet) (calm : env.Calm)
    (punctual : env.Punctual)
    (h : Course env ctx ⟨s, fleet, .idle⟩ hs ⟨s₁, fleet₁, .rollout (.ended (.ok ()))⟩)
    (ht : Tending env ⟨s₁, fleet₁, .rest⟩ hs' ⟨s₂, fleet₂, .rest⟩) (inner : Context)
    (passes : Nat) (delay : Duration) :
    fleet₂.mayRetry "retry_until_clean" = .ok () ∧
    (∀ new y, Cleaning.Runs env inner (.start env inner s₂ fleet₂ passes delay) new y →
      ∃ log, Cleaning.Exact env inner passes delay (.start env inner s₂ fleet₂ passes delay) new
        log y) ∧
    (env.Live → 0 < timeouts.pollInterval.nanos →
      (env.moment s₂).now.Shows (fleet₂.longestCleanup passes delay) →
      Inevitable (Cleaning.Advances env inner)
        (Cleaning.Returned env inner
          ((env.moment s₂).now.after (fleet₂.longestCleanup passes delay))
          (.start env inner s₂ fleet₂ passes delay))
        [] (.start env inner s₂ fleet₂ passes delay)) := by
  obtain ⟨p, hcourse, hmeets, hsuccess⟩ := ht.course h.restless rfl (h.endState_success hc calm)
  have hmay := Fleet.mayRetry_of_success hsuccess "retry_until_clean"
  have hbegun : Tending env ⟨s₁, fleet₁, .rest⟩ _
      ⟨s₂, fleet₂, .cleanup inner (.start fleet₂ inner (env.moment s₂) passes delay)⟩ :=
    ht.step (.cleans hmay)
  refine ⟨hmay, fun new y hy => ?_, fun live hpoll hclock => ?_⟩
  · obtain ⟨log, hlog⟩ := hy.accounted calm punctual fun hruns hwaiting =>
      Tending.settled hc calm h (hruns.tending hbegun) (by simp [Care.isIdle, hwaiting])
    exact ⟨log, hlog.exact⟩
  · have hkeeps : fleet.Keeps fleet₂ := hcourse.keeps
    rw [← (Fleet.targets_of_ofConfig hc).1, ← hkeeps.timeouts] at hpoll
    exact Cleaning.inevitable punctual.toTimely live hclock hpoll fun hruns hretrying =>
      Tending.orderly hc calm h (hruns.tending hbegun) hretrying

end Law

/-! ## A cleanup of one upgrade -/

/-- The one after its rollout, with a cleanup of one pass after a second. -/
def soloCleaning : Cleaning (Table × Moment) :=
  .start .punctual .background soloAround (soloFailed 1 .success) 1 (.ofSecs 1)

/-- A second later. -/
def soloLater : Table × Moment := (soloAround.1, ⟨1000000000, []⟩)

/-- The context of an upgrade that begins a second later. -/
def soloLaterContext : Context := ⟨some 601000000000, none⟩

/-- The cleanup does not find the binary again, and gives up. -/
theorem runs_solo : ∃ hs y, Cleaning.Runs .punctual .background soloCleaning hs y ∧
    y.cleanup.phase = .ended (.error (.retryExhausted 1 1)) := by
  have waited : Surroundings.punctual.ends soloAround .background (.pause 1000000000) (.result ())
      soloLater := ⟨⟨trivial, rfl, ⟨by decide, fun _ h => h⟩, Nat.le_refl _⟩, trivial⟩
  have begun : Cleaning.Runs .punctual .background soloCleaning _
      ⟨soloLater, soloFailed 1 .success,
        ⟨1, .ofSecs 1, 1, .retrying ⟨[.queued 0 soloLaterContext]⟩⟩⟩ :=
    .step .here rfl (.waited rfl waited)
  have missing : Surroundings.punctual.opens soloLater (.error (.code 2)) := trivial
  have at₀ : [Attempt.queued 0 soloLaterContext][0]? = some (.queued 0 soloLaterContext) := rfl
  have lands : Scene.Acts .punctual .background
      ⟨soloLater, soloFailed 1 .success, .retry ⟨[.queued 0 soloLaterContext]⟩⟩ _
      ⟨soloLater, soloFailed 1 .success, .retry ⟨[.landed 0 true]⟩⟩ :=
    @Scene.Acts.takeOffAgain _ .punctual .background soloLater (soloFailed 1 .success)
      ⟨[.queued 0 soloLaterContext]⟩ 0 0 soloLaterContext _ at₀ missing
  have at₀ : [Attempt.landed 0 true][0]? = some (.landed 0 true) := rfl
  have ends : Scene.Acts .punctual .background
      ⟨soloLater, soloFailed 1 .success, .retry ⟨[.landed 0 true]⟩⟩ _
      ⟨soloLater, soloFailed 1 .success, .retry ⟨[]⟩⟩ :=
    @Scene.Acts.accountAgain _ .punctual .background soloLater (soloFailed 1 .success)
      ⟨[.landed 0 true]⟩ 0 _ at₀ rfl
  have ended : Cleaning.Runs .punctual .background soloCleaning _
      ⟨soloLater, soloFailed 1 .success, ⟨1, .ofSecs 1, 1, .retrying ⟨[]⟩⟩⟩ :=
    .step (.step begun rfl (.acts rfl rfl lands)) rfl (.acts rfl rfl ends)
  exact ⟨_, _, .step ended rfl (.passed rfl rfl), rfl⟩

/-- It returns within ten minutes and a second, and has made its one pass when it gives up. -/
theorem cleanup_exact_solo :
    (soloFailed 1 .success).longestCleanup 1 (.ofSecs 1) = .ofSecs 601 ∧
    Inevitable (Cleaning.Advances .punctual .background)
      (Cleaning.Returned .punctual .background 601000000000 soloCleaning) [] soloCleaning ∧
    ∃ hs y log, Cleaning.Runs .punctual .background soloCleaning hs y ∧
      Cleaning.Exact .punctual .background 1 (.ofSecs 1) soloCleaning hs log y ∧
      log.length = 1 ∧ y.fleet.failedAt.length = 1 ∧
      y.cleanup.phase = .ended (.error (.retryExhausted 1 1)) := by
  obtain ⟨_, course⟩ := course_solo_punctual
  have hpoll : 0 < StageTimeouts.standard.pollInterval.nanos := by decide
  have hclock : (Surroundings.punctual.moment soloAround).now.Shows
      ((soloFailed 1 .success).longestCleanup 1 (.ofSecs 1)) :=
    show 0 + 601000000000 < 0x8000000000000000 * 1000000000 by decide
  obtain ⟨-, hexact, hreturns⟩ :=
    cleanup_exact ofConfig_solo Surroundings.punctual_calm Surroundings.punctual_punctual course
      .here .background 1 (.ofSecs 1)
  obtain ⟨hs, y, runs, hended⟩ := runs_solo
  obtain ⟨log, hlog⟩ := hexact hs y runs
  obtain ⟨-, hlength, hremaining, -⟩ := (hlog.returns _ hended).2
  exact ⟨rfl, hreturns Surroundings.punctual_live hpoll hclock, hs, y, log, runs, hlog, hlength,
    hremaining.symm, hended⟩

end Rollout
