import Mathlib.Algebra.Order.Floor.Div
import Mathlib.Tactic.Ring
import Rollout.Proofs.Upgrade.Stint

/-!
# The wait for health

How long a run waits for a started binary to become healthy, and how often it probes.

- **Paced calls** (`Paced`): calls that are a period apart, and how many of them fit into a time
  (`Paced.length_le`).
- **Probes** (`Probing`): each probe and each pause keeps them paced (`Probing.probed`,
  `Probing.paused`), and so all of the wait does (`Stint.probing`).
- **The wait** (`HealthWait`): it ends in time, and with success where a probe is answered in time
  that the endpoint is healthy (`health_wait`). A pause that no clock shows is cut short, and a late
  answer does not count.
-/

namespace Rollout

/-! ## Paced calls -/

/-- Calls that were made a period apart, the first of them no earlier than a time, each of them a
period before the next that is due. -/
structure Paced (period : Nat) (t₀ due : Instant) (calls : List (Instant × Call)) : Prop where
  apart : calls.Pairwise fun x y => x.1 + period ≤ y.1
  past : ∀ x ∈ calls, x.1 + period ≤ due
  fit : t₀ + calls.length * period ≤ due

namespace Paced

variable {period : Nat} {t₀ due due' t : Instant} {calls : List (Instant × Call)} {c : Call}

theorem nil (t₀ : Instant) : Paced period t₀ t₀ [] :=
  ⟨.nil, by simp, by simp⟩

theorem mono (h : Paced period t₀ due calls) (hle : due ≤ due') : Paced period t₀ due' calls :=
  ⟨h.apart, fun x hx => Nat.le_trans (h.past x hx) hle, Nat.le_trans h.fit hle⟩

/-- The next call is due a period after this one. -/
theorem snoc (h : Paced period t₀ due calls) (hdue : due ≤ t) :
    Paced period t₀ (t + period) (calls ++ [(t, c)]) where
  apart := List.pairwise_append.mpr ⟨h.apart, List.pairwise_singleton _ _, fun x hx y hy => by
    obtain rfl := List.mem_singleton.mp hy
    exact Nat.le_trans (h.past x hx) hdue⟩
  past x hx := by
    rcases List.mem_append.mp hx with hx | hx
    · exact Nat.le_trans (h.past x hx) (Nat.le_add_right_of_le hdue)
    · obtain rfl := List.mem_singleton.mp hx
      exact Nat.le_refl _
  fit := by
    rw [List.length_append, List.length_singleton, Nat.add_mul, Nat.one_mul, ← Nat.add_assoc]
    exact Nat.add_le_add_right (Nat.le_trans h.fit hdue) _

/-- So many calls fit into a time. -/
theorem length_le {window : Nat} (h : Paced period t₀ due calls) (hperiod : 0 < period)
    (hdue : due < t₀ + window + 2 * period) : calls.length ≤ window ⌈/⌉ period + 1 := by
  by_contra hlt
  refine absurd hdue (Nat.not_lt_of_le ?_)
  have hmore : window ⌈/⌉ period + 2 ≤ calls.length := by omega
  have hceil : window ≤ period * (window ⌈/⌉ period) := le_smul_ceilDiv hperiod
  calc t₀ + window + 2 * period
    _ ≤ t₀ + period * (window ⌈/⌉ period) + 2 * period := by gcongr
    _ = t₀ + (window ⌈/⌉ period + 2) * period := by ring
    _ ≤ t₀ + calls.length * period := by gcongr
    _ ≤ due := h.fit

end Paced

/-! ## Probes -/

/-- After a probe the wait for health is over, or it pauses. -/
theorem Position.resume_probing (j : Job) (now limit : Instant) (r : Option ProbeResult) :
    r = some .healthy ∧ resume j now (probing limit) r = .passed ∨
    r ≠ some .healthy ∧ limit ≤ now ∧ resume j now (probing limit) r =
      .failed (.unhealthy j.endpoint j.timeouts.healthWindow) ∨
    r ≠ some .healthy ∧ now < limit ∧ resume j now (probing limit) r =
      .stay (probePause limit (now.wakeAfter j.timeouts.pollInterval)) := by
  have other (hr : r ≠ some .healthy) :
      resume j now (probing limit) r = notHealthy j now limit := by
    rcases r with _ | ⟨_ | _ | _⟩
    · rfl
    · exact absurd rfl hr
    · rfl
    · rfl
  by_cases hr : r = some .healthy
  · exact .inl ⟨hr, by rw [hr]; rfl⟩
  · rw [other hr, notHealthy]
    by_cases hlimit : limit ≤ now
    · exact .inr (.inl ⟨hr, hlimit, if_pos hlimit⟩)
    · exact .inr (.inr ⟨hr, Nat.lt_of_not_le hlimit, if_neg hlimit⟩)

/-- Where a wait for health that began at `t₀` stands, with the next call no earlier than `due`. -/
def Step.Awaits (j : Job) (t₀ now due : Instant) : Step → Prop
  | .stay (.probing limit) => limit = t₀ + j.timeouts.healthWindow.nanos ∧
    now < t₀ + j.timeouts.healthWindow.nanos + j.timeouts.pollInterval.nanos ∧
    due = now + j.timeouts.pollInterval.nanos
  | .stay (.probePause limit until_) => limit = t₀ + j.timeouts.healthWindow.nanos ∧
    now < t₀ + j.timeouts.healthWindow.nanos ∧
    until_ = now + j.timeouts.pollInterval.nanos ∧ due = until_
  | .stay _ => False
  | .passed => now < t₀ + j.timeouts.healthWindow.nanos + j.timeouts.pollInterval.nanos
  | .failed e => e = .unhealthy j.endpoint j.timeouts.healthWindow ∧
    t₀ + j.timeouts.healthWindow.nanos ≤ now ∧
    now < t₀ + j.timeouts.healthWindow.nanos + j.timeouts.pollInterval.nanos

/-- The calls of a wait for health are paced probes, and the next one is due in time. -/
structure Probing (j : Job) (t₀ now : Instant) (calls : List (Instant × Call)) (step : Step) :
    Prop where
  probes : ∀ x ∈ calls, x.2 = .probe j.endpoint
  paced : ∃ due, Paced j.timeouts.pollInterval.nanos t₀ due calls ∧
    due < t₀ + j.timeouts.healthWindow.nanos + 2 * j.timeouts.pollInterval.nanos ∧
    step.Awaits j t₀ now due

namespace Probing

variable {j : Job} {t₀ now t : Instant} {calls : List (Instant × Call)} {step : Step}

theorem lt (h : Probing j t₀ now calls step) :
    now < t₀ + j.timeouts.healthWindow.nanos + j.timeouts.pollInterval.nanos := by
  obtain ⟨due, -, -, hawaits⟩ := h.paced
  cases step with
  | passed => exact hawaits
  | failed e => exact hawaits.2.2
  | stay p =>
    cases p with
    | probing limit => exact hawaits.2.1
    | probePause limit until_ => exact Nat.lt_add_right _ hawaits.2.1
    | _ => exact hawaits.elim

/-- One more probe. -/
theorem probe {limit due : Instant} (hprobes : ∀ x ∈ calls, x.2 = .probe j.endpoint)
    (hpaced : Paced j.timeouts.pollInterval.nanos t₀ due calls) (hdue : due ≤ now)
    (hlimit : limit = t₀ + j.timeouts.healthWindow.nanos)
    (hnow : now < t₀ + j.timeouts.healthWindow.nanos + j.timeouts.pollInterval.nanos) :
    Probing j t₀ now (calls ++ [(now, .probe j.endpoint)]) (.stay (.probing limit)) where
  probes x hx := by
    rcases List.mem_append.mp hx with hx | hx
    · exact hprobes x hx
    · rw [List.mem_singleton.mp hx]
  paced := by
    refine ⟨_, hpaced.snoc hdue, ?_, hlimit, hnow, rfl⟩
    rw [Nat.two_mul, ← Nat.add_assoc]
    exact Nat.add_lt_add_right hnow _

/-- After a probe the wait is over, or its time is not up and it pauses. -/
theorem probed {limit : Instant} {r : Option ProbeResult}
    (hpoll : 0 < j.timeouts.pollInterval.nanos)
    (hclock : t₀.Shows ⟨j.timeouts.healthWindow.nanos + j.timeouts.pollInterval.nanos⟩)
    (h : Probing j t₀ now calls (.stay (.probing limit))) (hle : now ≤ t)
    (hlast : t ≤ max now limit) :
    Probing j t₀ t calls (Position.resume j t (.probing limit) r) := by
  obtain ⟨_, hpaced, hdue, rfl, hnow, rfl⟩ := h.paced
  have ht : t < t₀ + j.timeouts.healthWindow.nanos + j.timeouts.pollInterval.nanos :=
    Nat.lt_of_le_of_lt hlast (Nat.max_lt.mpr ⟨hnow, Nat.lt_add_of_pos_right hpoll⟩)
  refine ⟨h.probes, ?_⟩
  obtain ⟨-, hstep⟩ | ⟨-, hover, hstep⟩ | ⟨-, hearly, hstep⟩ :=
    Position.resume_probing j t (t₀ + j.timeouts.healthWindow.nanos) r
  · rw [hstep]
    exact ⟨_, hpaced, hdue, ht⟩
  · rw [hstep]
    exact ⟨_, hpaced, hdue, rfl, hover, ht⟩
  · have hwake : t.wakeAfter j.timeouts.pollInterval = t + j.timeouts.pollInterval.nanos :=
      (hclock.before (by
        rw [← Nat.add_assoc]
        exact Nat.add_le_add_right (Nat.le_of_lt hearly) _)).wakeAfter
    rw [hstep]
    refine ⟨t + j.timeouts.pollInterval.nanos, hpaced.mono (Nat.add_le_add_right hle _), ?_,
      rfl, hearly, hwake, hwake.symm⟩
    rw [Nat.two_mul, ← Nat.add_assoc]
    exact Nat.add_lt_add_right ht _

/-- After a pause the endpoint is probed again. -/
theorem paused {limit until_ : Instant}
    (h : Probing j t₀ now calls (.stay (.probePause limit until_))) :
    Probing j t₀ (max now until_) (calls ++ [(max now until_, .probe j.endpoint)])
      (.stay (.probing limit)) := by
  obtain ⟨_, hpaced, -, rfl, hearly, rfl, rfl⟩ := h.paced
  have hmax : max now (now + j.timeouts.pollInterval.nanos) = now + j.timeouts.pollInterval.nanos :=
    Nat.max_eq_right (Nat.le_add_right _ _)
  rw [hmax]
  exact .probe h.probes hpaced (Nat.le_refl _) rfl (Nat.add_lt_add_right hearly _)

end Probing

namespace Stint

variable {j : Job} {t₀ now : Instant} {replies : Replies} {spans : List Span} {step : Step}
  {p : Position}

/-- Where the wait for health stands, the limit of a probe is the end of the window. -/
theorem stands (h : Stint j .waitHealthy t₀ replies spans now (.stay p)) :
    p = .probing (t₀ + j.timeouts.healthWindow.nanos) ∨
      ∃ until_, p = .probePause (t₀ + j.timeouts.healthWindow.nanos) until_ := by
  generalize hstep : Step.stay p = step at h
  induction h generalizing p with
  | enter hp =>
    cases hp
    cases hstep
    exact .inl rfl
  | @hear spans now t q r _ _ ih =>
    obtain rfl | ⟨until_, rfl⟩ := ih rfl
    · obtain ⟨-, h⟩ | ⟨-, -, h⟩ | ⟨-, -, h⟩ :=
        Position.resume_probing j t (t₀ + j.timeouts.healthWindow.nanos) r
      · cases hstep.trans h
      · cases hstep.trans h
      · cases hstep.trans h
        exact .inr ⟨_, rfl⟩
    · cases hstep
      exact .inl rfl

/-- By induction on the stint: all of it keeps the probes paced. -/
theorem probing (h : Stint j .waitHealthy t₀ replies spans now step)
    (hpoll : 0 < j.timeouts.pollInterval.nanos)
    (hclock : t₀.Shows ⟨j.timeouts.healthWindow.nanos + j.timeouts.pollInterval.nanos⟩) :
    Probing j t₀ now (Stint.calls j spans now step) step := by
  induction h with
  | enter hp =>
    cases hp
    exact .probe (by simp) (.nil t₀) (Nat.le_refl _) rfl (by
      rw [Nat.add_assoc]
      exact Nat.lt_add_of_pos_right (Nat.lt_add_left _ hpoll))
  | @hear spans now t p r h hready ih =>
    have hle : now ≤ t := Wait.le_of_ready (fun _ => Wait.le_of_due) hready
    rw [calls_hear]
    cases p with
    | probing limit =>
      have hnext := ih.probed (r := r) hpoll hclock hle (Wait.le_of_limited hready)
      have hcall : (Position.resume j t (.probing limit) r).call? j = none := by
        obtain ⟨-, hstep⟩ | ⟨-, -, hstep⟩ | ⟨-, -, hstep⟩ := Position.resume_probing j t limit r
        all_goals rw [hstep]; rfl
      rw [hcall]
      simpa using hnext
    | probePause limit until_ =>
      obtain rfl := Wait.ready_pause hready
      exact ih.paused
    | _ => cases h.stage_eq

/-- The wait for health is over with success where a probe is answered in time that the endpoint is
healthy, and at that time. -/
theorem passed_of_probe {n : Nat} {last t : Instant} {p : Position} {r : (p.wait j).Result}
    (hp : p = .probing last ∨ ∃ until_, p = .probePause last until_)
    (hready : (p.wait j).ready now (replies.due n now (p.wait j)) = some (t, .result r)) :
    (p.resume j t r = .passed ↔ ∃ after, replies.HealthyAfter last n ⟨now, t, p.wait j, r⟩ after) ∧
      ∀ after, replies.HealthyAfter last n ⟨now, t, p.wait j, r⟩ after → t = now.after after := by
  obtain rfl | ⟨until_, rfl⟩ := hp
  · -- A healthy answer in time is the one that ends the wait.
    have answered {after : Duration}
        (h : replies.HealthyAfter last n ⟨now, t, .limited (.probe j.endpoint) last, r⟩ after) :
        t = now.after after ∧ r = some ProbeResult.healthy := by
      obtain ⟨endpoint, limit, hwait, hreply, hle⟩ := h
      cases hwait
      cases hready.symm.trans (Wait.ready_limited_iff.mpr ⟨after, hreply, rfl, hle⟩)
      exact ⟨rfl, rfl⟩
    refine ⟨⟨fun h => ?_, fun ⟨after, h⟩ => ?_⟩, fun after h => (answered h).1⟩
    · obtain ⟨hr, -⟩ | ⟨-, -, hstep⟩ | ⟨-, -, hstep⟩ := Position.resume_probing j t last r
      · subst hr
        obtain ⟨after, hreply, rfl, hle⟩ := Wait.ready_limited_iff.mp hready
        exact ⟨after, j.endpoint, last, rfl, hreply, hle⟩
      · cases hstep.symm.trans h
      · cases hstep.symm.trans h
    · rw [(answered h).2]
      rfl
  · have unanswered {after : Duration} :
        ¬ replies.HealthyAfter last n ⟨now, t, .pause until_, r⟩ after := by
      rintro ⟨_, _, hwait, -⟩
      cases hwait
    refine ⟨⟨fun h => ?_, ?_⟩, fun _ h => absurd h unanswered⟩
    · cases h
    · rintro ⟨_, h⟩
      exact absurd h unanswered

/-- A healthy answer in time is the end of the wait for health. -/
theorem over_of_healthy {n : Nat} {x : Span} {after : Duration}
    (h : Stint j .waitHealthy t₀ replies spans now step) (hx : spans[n]? = some x)
    (hhealthy : replies.HealthyAfter (t₀ + j.timeouts.healthWindow.nanos) n x after) :
    n + 1 = spans.length ∧ now = x.begun.after after ∧ step = .passed := by
  obtain ⟨begun, t, p, r, rfl, hbefore, hready, -, hnext⟩ := h.of_getElem? hx
  obtain ⟨hpassed, hat⟩ := passed_of_probe hbefore.stands hready
  have hstep := hpassed.mpr ⟨after, hhealthy⟩
  rcases hnext with ⟨hlen, rfl, rfl⟩ | ⟨-, q, hstay⟩
  · exact ⟨hlen, hat after hhealthy, hstep⟩
  · cases hstep.symm.trans hstay

/-- The wait for health is over with success only where a probe was answered so. -/
theorem healthy_of_passed (h : Stint j .waitHealthy t₀ replies spans now .passed) :
    ∃ n x after, spans[n]? = some x ∧
      replies.HealthyAfter (t₀ + j.timeouts.healthWindow.nanos) n x after := by
  generalize hstep : Step.passed = step at h
  cases h with
  | enter _ => cases hstep
  | @hear spans begun t p r hbefore hready =>
    obtain ⟨after, hhealthy⟩ := (passed_of_probe hbefore.stands hready).1.mp hstep.symm
    exact ⟨spans.length, _, after, by simp, hhealthy⟩

end Stint

/-! ## The wait -/

/-- What is known of a wait for health that began at `t₀`, from its beginning to its end. -/
structure HealthWait (j : Job) (t₀ : Instant) (replies : Replies) (spans : List Span)
    (now : Instant) (step : Step) : Prop where
  /-- It makes no call but probes of its endpoint, -/
  probes : ∀ x ∈ Stint.calls j spans now step, x.2 = .probe j.endpoint
  /-- at most one more than the pauses that the window takes, -/
  count : (Stint.calls j spans now step).length ≤
    j.timeouts.healthWindow.nanos ⌈/⌉ j.timeouts.pollInterval.nanos + 1
  /-- each a pause or more after the one before. -/
  apart : (Stint.calls j spans now step).Pairwise fun x y =>
    x.1 + j.timeouts.pollInterval.nanos ≤ y.1
  /-- It lasts no longer than the window and less than a pause. -/
  time : now < t₀ + j.timeouts.healthWindow.nanos + j.timeouts.pollInterval.nanos
  /-- It succeeds where a probe is answered in time that the endpoint is healthy, -/
  succeeds : step = .passed ↔ ∃ n x after, spans[n]? = some x ∧
    replies.HealthyAfter (t₀ + j.timeouts.healthWindow.nanos) n x after
  /-- at the time of that answer, and it does not probe again. -/
  first : ∀ n x after, spans[n]? = some x →
    replies.HealthyAfter (t₀ + j.timeouts.healthWindow.nanos) n x after →
      n + 1 = spans.length ∧ now = x.begun.after after
  /-- It fails only when the window is over, where no probe was answered so. -/
  fails : ∀ e, step = .failed e → e = .unhealthy j.endpoint j.timeouts.healthWindow ∧
    t₀ + j.timeouts.healthWindow.nanos ≤ now ∧ ∀ n x after, spans[n]? = some x →
      ¬ replies.HealthyAfter (t₀ + j.timeouts.healthWindow.nanos) n x after

/-- **The wait for health ends, neither early nor late.** Within a context that goes on, for any
replies and however late they come, if they come, a run that waits for health does what
`HealthWait` says until its stage is over, and that it is once. All that it is on the way there is a
beginning of this one course, since the replies settle it. The clock must show the end of the last
pause: where it cannot, a sleeper sleeps for another time than the pause. -/
theorem health_wait (j : Job) (t₀ : Instant) (replies : Replies)
    (hpoll : 0 < j.timeouts.pollInterval.nanos)
    (hclock : t₀.Shows ⟨j.timeouts.healthWindow.nanos + j.timeouts.pollInterval.nanos⟩) :
    (∀ spans now step, Stint j .waitHealthy t₀ replies spans now step →
      HealthWait j t₀ replies spans now step) ∧
    ∃ spans now step, Stint j .waitHealthy t₀ replies spans now step ∧ step.isOver = true ∧
      ∀ spans' now' step', Stint j .waitHealthy t₀ replies spans' now' step' →
        spans' <+: spans := by
  refine ⟨fun spans now step h => ?_, ?_⟩
  · have hprobing := h.probing hpoll hclock
    obtain ⟨due, hpaced, hdue, hawaits⟩ := hprobing.paced
    exact {
      probes := hprobing.probes
      count := hpaced.length_le hpoll hdue
      apart := hpaced.apart
      time := hprobing.lt
      succeeds := ⟨fun hstep => (hstep ▸ h).healthy_of_passed,
        fun ⟨_, _, _, hx, hhealthy⟩ => (h.over_of_healthy hx hhealthy).2.2⟩
      first := fun n x after hx hhealthy =>
        let ⟨hlen, hnow, _⟩ := h.over_of_healthy hx hhealthy
        ⟨hlen, hnow⟩
      fails := by
        rintro e rfl
        refine ⟨hawaits.1, hawaits.2.1, fun n x after hx hhealthy => ?_⟩
        cases (h.over_of_healthy hx hhealthy).2.2 }
  · obtain ⟨spans, now, step, hover, hisOver⟩ := Stint.exists_isOver hpoll
      (fun h => Nat.le_of_lt (h.probing hpoll hclock).lt)
      (fun {spans now p} h => Wait.exists_ready replies spans.length now (p.wait j) fun c hc => by
        -- Neither a probe nor a pause waits without a limit.
        obtain rfl | ⟨until_, rfl⟩ := h.stands
        · cases hc
        · cases hc)
      (.enter rfl : Stint j .waitHealthy t₀ replies [] t₀ _)
    exact ⟨spans, now, step, hover, hisOver, fun _ _ _ h => hover.prefix_of_isOver hisOver h⟩

/-- Replies to the probes of a wait for health, some time after each or never. -/
def Replies.ofProbes (probe : Nat → Option (Duration × ProbeResult)) : Replies
  | n, .limited (.probe _) _ => probe n
  | _, _ => none

/-- With a window of three and a pause of two, a probe is refused, the next one says too late that
the endpoint is not healthy yet, and a last one after the window that it is. -/
theorem health_wait_last_probe : ∃ (j : Job) (replies : Replies) (spans : List Span),
    0 < j.timeouts.pollInterval.nanos ∧
    Instant.Shows 0 ⟨j.timeouts.healthWindow.nanos + j.timeouts.pollInterval.nanos⟩ ∧
    Stint j .waitHealthy 0 replies spans 45 .passed ∧
    (Stint.calls j spans 45 .passed).map Prod.fst = [0, 20, 45] ∧
    HealthWait j 0 replies spans 45 .passed := by
  let j : Job := ⟨default, ⟨⟨300⟩, ⟨100⟩, ⟨30⟩, ⟨20⟩⟩, "10.0.0.1:80", default, .directory⟩
  let replies : Replies := .ofProbes fun n =>
    if n = 0 then some (⟨0⟩, .failed) else if n = 2 then some (⟨5⟩, .unhealthy)
    else some (⟨0⟩, .healthy)
  have hclock : Instant.Shows 0
      ⟨j.timeouts.healthWindow.nanos + j.timeouts.pollInterval.nanos⟩ := by
    unfold Instant.Shows
    decide +kernel
  have first : Stint j .waitHealthy 0 replies _ 0 (.stay (.probePause 30 20)) :=
    .hear (p := .probing 30) (r := some ProbeResult.failed) (.enter rfl) rfl
  have second : Stint j .waitHealthy 0 replies _ 25 (.stay (.probePause 30 45)) :=
    .hear (p := .probing 30) (r := some ProbeResult.unhealthy)
      (.hear (p := .probePause 30 20) (r := ()) first rfl) rfl
  have third : Stint j .waitHealthy 0 replies _ 45 .passed :=
    .hear (p := .probing 30) (r := some ProbeResult.healthy)
      (.hear (p := .probePause 30 45) (r := ()) second rfl) rfl
  exact ⟨j, replies, _, by decide, hclock, third, rfl,
    (health_wait j 0 replies (by decide) hclock).1 _ _ _ third⟩

/-- Two limits of the wait for health. Before a pause whose end no clock shows, a sleeper wakes after
thirty years, and probes again before the pause is over. And a probe that is answered after the
window is not waited for, even if it would say that the endpoint is healthy. -/
theorem early_probe_and_late_answer :
    (¬ ∀ (j : Job) (t₀ : Instant) (replies : Replies) (spans : List Span) (now : Instant)
      (step : Step), 0 < j.timeouts.pollInterval.nanos →
      Stint j .waitHealthy t₀ replies spans now step →
      (Stint.calls j spans now step).Pairwise fun x y =>
        x.1 + j.timeouts.pollInterval.nanos ≤ y.1) ∧
    ¬ ∀ (j : Job) (t₀ : Instant) (replies : Replies) (spans : List Span) (now : Instant)
      (e : UpgradeError), 0 < j.timeouts.pollInterval.nanos →
      Stint j .waitHealthy t₀ replies spans now (.failed e) →
      ∀ n x endpoint limit after, spans[n]? = some x → x.wait = .limited (.probe endpoint) limit →
        replies n (.limited (.probe endpoint) limit) ≠ some (after, ProbeResult.healthy) := by
  constructor
  · intro apart
    let j : Job := ⟨default, ⟨⟨300⟩, ⟨100⟩, ⟨30⟩, ⟨Instant.limit⟩⟩, "10.0.0.1:80", default,
      .directory⟩
    let replies : Replies := .ofProbes fun _ => some (⟨0⟩, .failed)
    -- The sleeper does not wake at the end of its pause.
    obtain ⟨woken, hwoken, hearly⟩ : ∃ woken, Instant.wakeAfter 0 ⟨Instant.limit⟩ = woken ∧
        woken < Instant.limit := by
      refine ⟨_, Instant.wakeAfter_of_not_shows (Nat.not_lt_of_le (Nat.le_add_left _ 0)), ?_⟩
      rw [Instant.after, Nat.zero_add, Instant.longestSleep, Duration.ofSecs, Instant.limit]
      exact Nat.mul_lt_mul_of_pos_right (by decide) (by decide)
    have asleep : Stint j .waitHealthy 0 replies _ 0
        (.stay (.probePause 30 (Instant.wakeAfter 0 ⟨Instant.limit⟩))) :=
      .hear (p := .probing 30) (r := some ProbeResult.failed) (.enter rfl) rfl
    rw [hwoken] at asleep
    have again : Stint j .waitHealthy 0 replies _ (max 0 woken) (.stay (.probing 30)) :=
      .hear (p := .probePause 30 woken) (r := ()) asleep rfl
    have hapart : [((0 : Instant), Call.probe j.endpoint), (max 0 woken, .probe j.endpoint)].Pairwise
        fun x y => x.1 + Instant.limit ≤ y.1 := apart j 0 replies _ _ _ (by decide) again
    have hlate := List.pairwise_pair.mp hapart
    rw [Nat.zero_add, Nat.zero_max] at hlate
    exact absurd hlate (Nat.not_le_of_lt hearly)
  · intro unheard
    let j : Job := ⟨default, ⟨⟨300⟩, ⟨100⟩, ⟨30⟩, ⟨20⟩⟩, "10.0.0.1:80", default, .directory⟩
    let replies : Replies := .ofProbes fun _ => some (⟨45⟩, .healthy)
    have cut : Stint j .waitHealthy 0 replies _ 30
        (.failed (.unhealthy j.endpoint j.timeouts.healthWindow)) :=
      .hear (p := .probing 30) (r := none) (.enter rfl) rfl
    exact unheard j 0 replies _ 30 _ (by decide) cut 0 _ _ _ ⟨45⟩ rfl rfl rfl

end Rollout
