import Rollout.Proofs.Fleet.Length

/-!
# Rollouts return

- **Ranks** (`Phase.rank`): how far from its end a rollout or a pass is while the clock stands
  still: first by its phase, then by the steps that are left besides the ends of waits, then by the
  levels and the loads of its runs. Each step makes the rank less (`Scene.Acts.rank_lt`,
  `Scene.Hears.rank_lt`).
- **Progress** (`Scene.exists_goes`): a rollout under way can go on, whatever hangs. A table of
  pools and a clock never stand in its way (`Surroundings.timed_live`).
- **Remaining steps** (`Scene.Goes.remaining_lt`): the time that is left, and then the rank. What
  gets nearer to its end with each step comes to it (`Inevitable.of_lt`).
- **The law** (`rollout_returns`): a rollout returns within the length of its fleet.
-/

namespace Rollout

/-! ## Ranks -/

/-- The steps that are left of an attempt, besides the ends of its waits. -/
def Attempt.work : Attempt → Nat
  | queued _ _ => 4
  | flying _ => 3
  | landed _ _ => 2

/-- The steps that are left of a pass, besides the ends of waits. -/
def Retry.work (r : Retry) : Nat := (r.attempts.map Attempt.work).sum

namespace Phase

/-- The phases that a rollout with `k` canaries still has before it. -/
def left (k : Nat) : Phase → Nat
  | idle => 2 * k + 5
  | rollout (.gate _) => 2 * k + 4
  | rollout (.canaryDue index) => 2 * (k - index) + 3
  | rollout (.canary f) => 2 * (k - f.index) + 2
  | rollout (.cooldown _) => 2
  | rollout (.bulk _) => 1
  | _ => 0

/-- The steps that are left in a phase, besides the ends of waits. -/
def work : Phase → Nat
  | rollout (.bulk b) => b.work + b.crashes
  | retry r => r.work
  | _ => 0

/-- The levels of the runs under way at a point of time. -/
def level (now : Instant) (p : Phase) : Nat := (p.flights.map fun f => f.position.level now).sum

/-- The steps left on these levels. -/
def load (p : Phase) : Nat := (p.flights.map fun f => f.position.load).sum

/-- How far from its end a rollout with `k` canaries is at a point of time, or a pass. -/
def rank (k : Nat) (now : Instant) (p : Phase) : Nat ×ₗ Nat ×ₗ Nat ×ₗ Nat :=
  toLex (p.left k, toLex (p.work, toLex (p.level now, p.load)))

variable {k : Nat} {now : Instant} {p q : Phase}

theorem rank_lt_of_left (h : q.left k < p.left k) : q.rank k now < p.rank k now :=
  Prod.Lex.toLex_lt_toLex.mpr (.inl h)

theorem rank_lt_of_work (hk : q.left k = p.left k) (h : q.work < p.work) :
    q.rank k now < p.rank k now :=
  Prod.Lex.toLex_lt_toLex.mpr (.inr ⟨hk, Prod.Lex.toLex_lt_toLex.mpr (.inl h)⟩)

/-- A run under way waits again, and all others stay as they are. -/
theorem rank_lt_of_flight {α : Type} {flight? : α → Option Flight} {l : List α} {at_ : Nat}
    {a a' : α} {f f' : Flight} (ha : l[at_]? = some a) (hf : flight? a = some f)
    (hf' : flight? a' = some f') (hp : p.flights = l.filterMap flight?)
    (hq : q.flights = (l.set at_ a').filterMap flight?) (hk : q.left k = p.left k)
    (hw : q.work = p.work) (h : f'.position.rank now < f.position.rank now) :
    q.rank k now < p.rank k now := by
  have hperm := filterMap_set_perm ha a' flight?
  rw [hf, hf', ← hp, ← hq] at hperm
  have hlevel : f.position.level now + q.level now = f'.position.level now + p.level now := by
    simpa [level] using (hperm.map fun f => f.position.level now).sum_nat
  have hload : f.position.load + q.load = f'.position.load + p.load := by
    simpa [load] using (hperm.map fun f => f.position.load).sum_nat
  refine Prod.Lex.toLex_lt_toLex.mpr (.inr ⟨hk, Prod.Lex.toLex_lt_toLex.mpr (.inr ⟨hw, ?_⟩)⟩)
  refine Prod.Lex.toLex_lt_toLex.mpr ?_
  rcases Prod.Lex.toLex_lt_toLex.mp h with h | ⟨h, hl⟩ <;> dsimp only at h ⊢ <;> omega

end Phase

section Ranks

variable {k : Nat} {now : Instant} {fleet fleet' : Fleet} {b b' : Bulk} {r : Retry}
  {at_ index : Nat} {landing : Landing} {f : Flight}

namespace Bulk

/-- The run of an admitted upgrade begins. -/
theorem rank_lt_takeOff {inner : Context} (ha : b.admitted[at_]? = some (.queued index inner))
    (landing : Landing) :
    (Phase.rollout (.bulk (b.settle at_ index landing))).rank k now <
      (Phase.rollout (.bulk b)).rank k now := by
  obtain ⟨-, hwork⟩ := work_settle ha index landing
  have hle := landing.work_le
  simp only [Admitted.work] at hwork
  refine Phase.rank_lt_of_work rfl ?_
  simp only [Phase.work]
  omega

/-- A wait of an admitted upgrade ends. -/
theorem rank_lt_resume (ha : b.admitted[at_]? = some (.flying f))
    (hf : ∀ f', landing = .flying f' → f'.position.rank now < f.position.rank now) :
    (Phase.rollout (.bulk (b.settle at_ index landing))).rank k now <
      (Phase.rollout (.bulk b)).rank k now := by
  have hwork : _ + 3 = _ := (work_settle ha index landing).2
  cases landing with
  | flying f' =>
    exact Phase.rank_lt_of_flight ha rfl rfl rfl rfl rfl (Nat.add_right_cancel hwork) (hf f' rfl)
  | _ =>
    -- It does not wait again, so that the work gets less.
    refine Phase.rank_lt_of_work rfl ?_
    simp only [Phase.work, Landing.work] at hwork ⊢
    omega

theorem rank_lt_accounts (h : b.Accounts fleet fleet' b') :
    (Phase.rollout (.bulk b')).rank k now < (Phase.rollout (.bulk b)).rank k now := by
  obtain ⟨hcrashes, hwork⟩ := work_accounts h
  refine Phase.rank_lt_of_work rfl ?_
  simp only [Phase.work]
  omega

end Bulk

namespace Retry

theorem work_place {a : Attempt} (ha : r.attempts[at_]? = some a) (a' : Attempt) :
    (r.place at_ a').work + a.work = r.work + a'.work := sum_set_add ha a' Attempt.work

theorem work_eraseIdx {a : Attempt} (ha : r.attempts[at_]? = some a) :
    work ⟨r.attempts.eraseIdx at_⟩ + a.work = r.work := sum_eraseIdx_add ha Attempt.work

/-- A step of the run of an attempt leaves what its landing does, or less. -/
theorem work_settle {a : Attempt} (ha : r.attempts[at_]? = some a) (index : Nat)
    (landing : Landing) : (r.settle at_ index landing).work + a.work ≤ r.work + landing.work := by
  cases landing with
  | flying f => exact Nat.le_of_eq (work_place ha (.flying f))
  | landed result => cases result <;> exact Nat.le_of_eq (work_place ha (.landed index _))
  | crashed text => exact Nat.le_trans (Nat.le_of_eq (work_eraseIdx ha)) (Nat.le_add_right _ _)

/-- The run of an attempt begins. -/
theorem rank_lt_takeOff {inner : Context} (ha : r.attempts[at_]? = some (.queued index inner))
    (landing : Landing) :
    (Phase.retry (r.settle at_ index landing)).rank k now < (Phase.retry r).rank k now := by
  have hwork : _ + 4 ≤ _ := work_settle ha index landing
  have hle := landing.work_le
  refine Phase.rank_lt_of_work rfl ?_
  simp only [Phase.work]
  omega

/-- A wait of an attempt ends. -/
theorem rank_lt_resume (ha : r.attempts[at_]? = some (.flying f))
    (hf : ∀ f', landing = .flying f' → f'.position.rank now < f.position.rank now) :
    (Phase.retry (r.settle at_ index landing)).rank k now < (Phase.retry r).rank k now := by
  have hwork : _ + 3 ≤ _ := work_settle ha index landing
  cases landing with
  | flying f' =>
    exact Phase.rank_lt_of_flight ha rfl rfl rfl rfl rfl
      (Nat.add_right_cancel (work_place ha (.flying f'))) (hf f' rfl)
  | _ =>
    -- It does not wait again, so that the work gets less.
    refine Phase.rank_lt_of_work rfl ?_
    simp only [Phase.work, Landing.work] at hwork ⊢
    omega

theorem rank_lt_accounts {r' : Retry} (h : r.Accounts fleet fleet' r') :
    (Phase.retry r').rank k now < (Phase.retry r).rank k now := by
  cases h with
  | ends ha =>
    have hwork : _ + 2 = _ := work_eraseIdx ha
    refine Phase.rank_lt_of_work rfl ?_
    simp only [Phase.work]
    omega

end Retry

/-- A step of the run of the canary at an index. -/
theorem Run.rank_lt_landed {p : Phase} (x : Fleet × Landing) (hlt : index < k)
    (hp : 2 * (k - index) + 2 ≤ p.left k)
    (hf : ∀ f, x.2 = .flying f → (Phase.rollout (.canary f)).rank k now < p.rank k now) :
    (Phase.rollout (canaryLanded index x).2).rank k now < p.rank k now := by
  obtain ⟨fleet, landing⟩ := x
  cases landing with
  | flying f => exact hf f rfl
  | landed r =>
    refine Phase.rank_lt_of_left (Nat.lt_of_lt_of_le ?_ hp)
    cases r with
    | ok a =>
      simp only [canaryLanded, Phase.left]
      omega
    | error e => exact Nat.succ_pos _
  | crashed text => exact Phase.rank_lt_of_left (Nat.lt_of_lt_of_le (Nat.succ_pos _) hp)

/-- A run that waits again is nearer to its end. -/
theorem Flight.rank_lt_of_resume {f f' : Flight} (hs : f.Stands fleet)
    (hpoll : 0 < fleet.timeouts.pollInterval.nanos) {m : Moment} {e : Event f.wait}
    (ht : f.ctx.Times m e) (h : (f.resume fleet m e).2 = .flying f') :
    f'.position.rank m.now < f.position.rank m.now := by
  obtain ⟨u, hu, hstage⟩ := hs.stage
  rw [resume_eq hu] at h
  obtain ⟨q, hp, rfl⟩ := waiting_of_landing h
  rw [← hs.timeouts] at hpoll
  exact Upgrade.rank_lt_of_waiting hpoll hstage ht hp

end Ranks

section Steps

variable {σ : Type} {env : Surroundings σ} {ctx : Context} {x y : Scene σ} {new : List Happening}
  {k : Nat} {now : Instant}

/-- A step that a rollout or a pass takes by itself makes its rank less. -/
theorem Scene.Acts.rank_lt (h : x.Acts env ctx new y) (ho : x.phase.isOver = false)
    (hk : x.fleet.canaries = k) : y.phase.rank k now < x.phase.rank k now := by
  cases h with
  | @start s fleet =>
    refine Phase.rank_lt_of_left ?_
    rw [Scene.ofRun_phase]
    have hs := Run.starts fleet ctx (env.moment s)
    generalize Run.start fleet ctx (env.moment s) = x at hs ⊢
    cases hs with
    | overflows _ => exact Nat.succ_pos _
    | halts _ _ => exact Nat.succ_pos _
    | asks _ _ => exact Nat.lt_succ_self _
  | @canaryDue s fleet index source _ =>
    rw [Scene.ofRun_phase]
    have hn := Run.nexts fleet ctx source (env.moment s) index
    generalize Run.canaryHappenings fleet ctx source (env.moment s) index = seen,
      Run.nextCanary fleet ctx source (env.moment s) index = x at hn ⊢
    cases hn with
    | overflows _ _ => exact Phase.rank_lt_of_left (Nat.succ_pos _)
    | @begins inner hlt _ =>
      have hlt' : index < k := hk ▸ hlt
      refine Run.rank_lt_landed _ hlt' (Nat.le_succ _) fun f hf => Phase.rank_lt_of_left ?_
      have hi := ((Flight.from_start fleet index inner source _).flying f hf).1
      simp only [Phase.left, hi]
      omega
    | skips _ _ => exact Phase.rank_lt_of_left (by simp only [Phase.left]; omega)
    | rests _ _ _ => exact Phase.rank_lt_of_left (by simp only [Phase.left]; omega)
  | lead hl => exact Phase.rank_lt_of_work rfl (Bulk.work_leads (Bulk.leads_of_moved hl))
  | conclude _ => exact Phase.rank_lt_of_left Nat.one_pos
  | overflow _ => exact Phase.rank_lt_of_left Nat.one_pos
  | takeOff ha _ =>
    rw [Bulk.takeOff_eq ha]
    exact Bulk.rank_lt_takeOff ha _
  | account ha hl => exact Bulk.rank_lt_accounts (Bulk.accounts ha hl)
  | again hover _ _ => exact absurd (ho.symm.trans hover) Bool.false_ne_true
  | takeOffAgain ha _ =>
    rw [Retry.takeOff_eq ha]
    exact Retry.rank_lt_takeOff ha _
  | accountAgain ha hl => exact Retry.rank_lt_accounts (Retry.accounts ha hl)

/-- A wait that ends makes the rank of a rollout or of a pass less. -/
theorem Scene.Hears.rank_lt (h : x.Hears env ctx new y) (timely : env.Timely)
    (hpoll : 0 < x.fleet.timeouts.pollInterval.nanos)
    (hs : ∀ f ∈ x.phase.flights, f.Stands x.fleet)
    (hlt : ∀ f, x.phase = .rollout (.canary f) → f.index < k) :
    y.phase.rank k (env.moment y.around).now < x.phase.rank k (env.moment y.around).now := by
  cases h with
  | @gate s s' fleet inner e _ =>
    refine Phase.rank_lt_of_left ?_
    rw [Scene.ofRun_phase]
    have ha := Run.answers fleet e
    generalize Run.gateAnswered fleet e = x at ha ⊢
    cases ha with
    | admits _ => exact Nat.lt_succ_self _
    | denies _ => exact Nat.succ_pos _
    | halts => exact Nat.succ_pos _
    | crashes => exact Nat.succ_pos _
  | @canary s s' fleet f e he =>
    have hf : f ∈ (Phase.rollout (.canary f)).flights := List.mem_cons_self
    refine Run.rank_lt_landed _ (hlt f rfl) (Nat.le_refl _) fun f' hf' => ?_
    have hi := ((Flight.from_resume (hs f hf) (env.moment s') e).flying f' hf').1
    have hleft : (Phase.rollout (.canary f')).left k = (Phase.rollout (.canary f)).left k := by
      rw [Phase.left, Phase.left, hi]
    have ha : [f][0]? = some f := rfl
    exact Phase.rank_lt_of_flight ha rfl rfl rfl rfl hleft rfl
      (Flight.rank_lt_of_resume (hs f hf) hpoll (timely.ends he).2 hf')
  | cooldown _ => exact Phase.rank_lt_of_left Nat.one_lt_two
  | @bulk s s' fleet b at_ f e ha he =>
    have hf : f ∈ (Phase.rollout (.bulk b)).flights :=
      List.mem_filterMap.mpr ⟨_, List.mem_of_getElem? ha, rfl⟩
    exact Bulk.rank_lt_resume ha fun f' hf' =>
      Flight.rank_lt_of_resume (hs f hf) hpoll (timely.ends he).2 hf'
  | @retry s s' fleet r at_ f e ha he =>
    have hf : f ∈ (Phase.retry r).flights :=
      List.mem_filterMap.mpr ⟨_, List.mem_of_getElem? ha, rfl⟩
    exact Retry.rank_lt_resume ha fun f' hf' =>
      Flight.rank_lt_of_resume (hs f hf) hpoll (timely.ends he).2 hf'

end Steps

/-! ## Progress -/

/-- A wait that is due can end unanswered: for its context where that has stopped, and by itself
otherwise. -/
theorem Context.exists_event {ctx : Context} {m : Moment} {w : Wait} {t : Instant}
    (h : ctx.latest m w = some t) (hle : t ≤ m.now) :
    ∃ e : Event w, e.IsCalm ∧ ctx.Times m e ∧ ∀ table : Table, table.Answers e table := by
  obtain ⟨⟨t, e⟩, he, rfl⟩ := Option.map_eq_some_iff.mp h
  rcases scope_cases he with ⟨hready, -⟩ | ⟨-, reason, -, hcauses⟩
  · cases w with
    | call c => cases hready
    | limited c limit => exact ⟨.result none, trivial, trivial, fun _ => rfl⟩
    | pause until_ =>
      cases hready
      exact ⟨.result (), trivial, Nat.le_trans (Nat.le_max_right _ _) hle, fun _ => rfl⟩
  · have hstopped : (ctx.stopped m).isSome := by
      rw [isSome_stopped, Bool.or_eq_true]
      cases reason with
      | cancelled =>
        obtain ⟨t', ht', -⟩ := hcauses
        split at ht'
        · exact .inl ‹_›
        · cases ht'
      | deadlineExceeded =>
        obtain ⟨t', ht', hle'⟩ := hcauses
        exact .inr (isExpired_iff.mpr ⟨t', ht', Nat.le_trans hle' hle⟩)
    obtain ⟨reason', hr⟩ := Option.isSome_iff_exists.mp hstopped
    refine ⟨.stopped reason', trivial, ?_, fun table => ?_⟩
    · cases w <;> exact hr
    · cases w with
      | call c => cases c <;> rfl
      | _ => rfl

theorem Surroundings.timed_live : timed.Live where
  passes {s t} h := ⟨(s.1, { s.2 with now := t }), ⟨rfl, Nat.le_of_lt h, fun _ hc => hc⟩, rfl⟩
  opens _ := ⟨.error (.code 2), trivial⟩
  ends {s ctx w t} h hle := by
    obtain ⟨e, hcalm, htimes, hanswers⟩ := Context.exists_event h hle
    exact ⟨e, s, ⟨hcalm, hanswers _, .refl _, htimes⟩, rfl⟩

section Progress

variable {σ : Type} {env : Surroundings σ} {ctx : Context} {x y : Scene σ}
  {hs new : List Happening} {fleet : Fleet} {phase : Phase} {s s' : σ}

/-- A wait under way that ends is a step. -/
theorem Scene.exists_hears {w : Context × Wait} (hw : w ∈ Scene.waits ctx ⟨s, fleet, phase⟩)
    {e : Event w.2} (he : env.ends s w.1 w.2 e s') :
    ∃ new y, Scene.Hears env ctx ⟨s, fleet, phase⟩ new y ∧ y.around = s' := by
  cases phase with
  | idle => cases hw
  | retry r =>
    obtain ⟨f, hf, rfl⟩ := List.mem_map.mp hw
    obtain ⟨a, ha, haf⟩ := List.mem_filterMap.mp hf
    obtain ⟨at_, hat⟩ := List.getElem?_of_mem ha
    cases a <;> cases haf
    exact ⟨_, _, .retry hat he, rfl⟩
  | rollout run =>
    cases run with
    | gate inner =>
      obtain rfl := List.mem_singleton.mp hw
      exact ⟨_, _, .gate he, rfl⟩
    | canary f =>
      obtain rfl := List.mem_singleton.mp hw
      exact ⟨_, _, .canary he, rfl⟩
    | cooldown until_ =>
      obtain rfl := List.mem_singleton.mp hw
      exact ⟨_, _, .cooldown he, rfl⟩
    | bulk b =>
      obtain ⟨f, hf, rfl⟩ := List.mem_map.mp hw
      obtain ⟨a, ha, haf⟩ := List.mem_filterMap.mp hf
      obtain ⟨at_, hat⟩ := List.getElem?_of_mem ha
      cases a <;> cases haf
      exact ⟨_, _, .bulk hat he, rfl⟩
    | _ => cases hw

/-- A rollout under way can go on, whatever hangs. -/
theorem Scene.exists_goes (live : env.Live) (hu : x.phase.isUnderWay = true) :
    ∃ new y, x.Goes env ctx new y := by
  obtain ⟨s, fleet, phase⟩ := x
  by_cases hacts : ∃ new y, Scene.Acts env ctx ⟨s, fleet, phase⟩ new y
  · obtain ⟨new, y, ha⟩ := hacts
    exact ⟨new, y, .acts hu (.inl rfl) ha⟩
  by_cases hdue : ∃ w ∈ Scene.waits ctx ⟨s, fleet, phase⟩, ∃ t,
      w.1.latest (env.moment s) w.2 = some t ∧ t ≤ (env.moment s).now
  · obtain ⟨w, hw, t, ht, hle⟩ := hdue
    obtain ⟨e, s', he, hnow⟩ := live.ends ht hle
    obtain ⟨new, y, hh, rfl⟩ := exists_hears hw he
    exact ⟨new, y, .hears hu hh hnow⟩
  -- Nobody can go on and no wait is due, so that some time can pass.
  · have hlt := Nat.lt_succ_self (env.moment s).now
    obtain ⟨s', hpass, hnow⟩ := live.passes hlt
    refine ⟨[], _, .rests hu (fun new y ha => hacts ⟨new, y, ha⟩) hpass (hnow ▸ hlt)
      fun w hw t ht => ?_⟩
    rw [hnow]
    exact Nat.lt_of_not_le fun hle => hdue ⟨w, hw, t, ht, hle⟩

/-! ## Remaining steps -/

/-- How far from its end a rollout with `k` canaries is that ends by some point of time: first the
time that is left, and then its rank. -/
def Scene.remaining (env : Surroundings σ) (k : Nat) (last : Instant) (x : Scene σ) :
    Nat ×ₗ Nat ×ₗ Nat ×ₗ Nat ×ₗ Nat :=
  toLex (last - (env.moment x.around).now, x.phase.rank k (env.moment x.around).now)

/-- Each step brings a rollout that is in time nearer to its end. -/
theorem Scene.Goes.remaining_lt {fleet₀ : Fleet} {t₀ : Instant} (h : x.Goes env ctx new y)
    (timely : env.Timely) (hk : fleet₀.Keeps x.fleet)
    (hpoll : 0 < x.fleet.timeouts.pollInterval.nanos)
    (ht : x.phase.InTime env.Calm fleet₀ t₀ (env.moment x.around).now x.fleet)
    (ht' : y.phase.InTime env.Calm fleet₀ t₀ (env.moment y.around).now y.fleet) :
    y.remaining env fleet₀.canaries (t₀ + fleet₀.longest.nanos) <
      x.remaining env fleet₀.canaries (t₀ + fleet₀.longest.nanos) := by
  cases h with
  | acts hu hturns ha =>
    refine Prod.Lex.toLex_lt_toLex.mpr (.inr ?_)
    rw [ha.around, hturns.now_eq]
    exact ⟨rfl, ha.rank_lt (Phase.isOver_of_isUnderWay hu) hk.canaries⟩
  | hears _ hh hnow =>
    refine Prod.Lex.toLex_lt_toLex.mpr (.inr ⟨by rw [hnow], ?_⟩)
    rw [← hnow]
    refine hh.rank_lt timely hpoll ht.stands fun f hf => ?_
    rw [hf] at ht
    exact ht.2.2.2.1
  | rests _ _ _ hlt _ =>
    exact Prod.Lex.toLex_lt_toLex.mpr (.inl (Nat.sub_lt_sub_left
      (Nat.lt_of_lt_of_le hlt ht'.le_longest) hlt))

/-- What can always go on, and gets nearer to its end with each step, comes to be as wanted. -/
theorem Inevitable.of_lt {α β : Type} [Preorder β] [WellFoundedLT β]
    {Goes : α → List Happening → α → Prop} {Wanted P : List Happening → α → Prop} (rank : α → β)
    (hstep : ∀ {hs : List Happening} {x : α}, P hs x → Wanted hs x ∨ (∃ new y, Goes x new y) ∧
      ∀ new y, Goes x new y → P (hs ++ new) y ∧ rank y < rank x)
    {hs : List Happening} {x : α} (h : P hs x) : Inevitable Goes Wanted hs x := by
  induction hr : rank x using WellFoundedLT.induction generalizing x hs with
  | ind r ih =>
    rcases hstep h with hwanted | ⟨hgoes, hnext⟩
    · exact .now hwanted
    · refine .later hgoes fun new y hg => ?_
      obtain ⟨hy, hlt⟩ := hnext new y hg
      exact ih _ (hr ▸ hlt) hy rfl

/-! ## The law -/

/-- What is true wherever a rollout comes to that began at `t₀`: it has not taken longer than its
fleet may, no run has taken longer than its limit, and the clock stands still while an upgrade has
got its context and not begun. -/
structure Scene.OnTime (env : Surroundings σ) (ctx : Context) (fleet₀ : Fleet) (t₀ : Instant)
    (hs : List Happening) (y : Scene σ) : Prop where
  elapsed : (env.moment y.around).now ≤ t₀.after fleet₀.longest
  paced : y.phase.Paced env fleet₀.config.actionTimeout (env.moment y.around).now hs
  stands : y.phase.given ≠ [] → ∀ {new : List Happening} {z : Scene σ}, y.Goes env ctx new z →
    (env.moment z.around).now = (env.moment y.around).now

/-- The end of a rollout that began at `t₀`: it has returned, and so has each run that was entered;
or work has crashed. -/
structure Scene.Returned (env : Surroundings σ) (fleet₀ : Fleet) (t₀ : Instant)
    (hs : List Happening) (y : Scene σ) : Prop where
  elapsed : (env.moment y.around).now ≤ t₀.after fleet₀.longest
  phase : (∃ result, y.phase = .rollout (.ended result)) ∨
    (y.phase.hasCrashed = true ∧ ¬ env.Calm)
  runs : env.Calm → ∀ {m : Moment} {i : Nat}, .entered m i ∈ hs →
    ∃ m' r, .returned m' i r ∈ hs ∧ m.now ≤ m'.now ∧
      m'.now ≤ m.now.after fleet₀.config.actionTimeout

theorem Prompt.onTime (h : Prompt env ctx ⟨s, fleet, .idle⟩ hs y) (live : env.Live)
    (hnew : fleet.IsNew) (hclock : (env.moment s).now.Shows fleet.longest) :
    y.OnTime env ctx fleet (env.moment s).now hs where
  elapsed := (h.inTime live hnew hclock).le_longest
  paced := h.paced live hnew hclock
  stands hgiven new z hg := by
    cases hg with
    | acts _ hturns ha => rw [ha.around, hturns.now_eq]
    | hears _ _ hnow => exact hnow
    | rests _ hrest _ _ _ => exact absurd (live.given_eq_nil hrest) hgiven

/-- A rollout that is in time and not under way has returned. -/
theorem Prompt.returned (h : Prompt env ctx ⟨s, fleet, .idle⟩ hs y) (live : env.Live)
    (hnew : fleet.IsNew) (hclock : (env.moment s).now.Shows fleet.longest)
    (hu : y.phase.isUnderWay = false) : y.Returned env fleet (env.moment s).now hs := by
  have ht := h.inTime live hnew hclock
  have hflights : y.phase.flights = [] ∧ ((∃ result, y.phase = .rollout (.ended result)) ∨
      (y.phase.hasCrashed = true ∧ ¬ env.Calm)) := by
    cases hp : y.phase with
    | idle => rw [hp] at hu; cases hu
    | retry r => rw [hp] at ht; exact ht.elim
    | rollout run =>
      rw [hp] at hu ht
      cases run with
      | ended result => exact ⟨rfl, .inl ⟨result, rfl⟩⟩
      | crashed text => exact ⟨rfl, .inr ⟨rfl, ht.2⟩⟩
      | _ => cases hu
  refine ⟨ht.le_longest, hflights.2, fun calm m i he => ?_⟩
  rcases (h.paced live hnew hclock).entered calm he with hr | ⟨f, hf, -⟩
  · exact hr
  · rw [hflights.1] at hf
    cases hf

/-- Wherever a rollout comes to, it returns in the end. -/
theorem Prompt.inevitable (h : Prompt env ctx ⟨s, fleet, .idle⟩ hs x) (timely : env.Timely)
    (live : env.Live) (hnew : fleet.IsNew)
    (hclock : (env.moment s).now.Shows fleet.longest)
    (hpoll : 0 < fleet.timeouts.pollInterval.nanos) :
    x.Inevitable env ctx (Scene.Returned env fleet (env.moment s).now) hs := by
  refine Inevitable.of_lt (P := fun hs y => Prompt env ctx ⟨s, fleet, .idle⟩ hs y)
    (Scene.remaining env fleet.canaries ((env.moment s).now + fleet.longest.nanos))
    (fun {hs x} h => ?_) h
  cases hu : x.phase.isUnderWay with
  | false => exact .inl (h.returned live hnew hclock hu)
  | true =>
    refine .inr ⟨Scene.exists_goes live hu, fun new y hg => ⟨h.step hg, ?_⟩⟩
    exact hg.remaining_lt timely h.keeps (by rw [h.keeps.timeouts]; exact hpoll)
      (h.inTime live hnew hclock) ((h.step hg).inTime live hnew hclock)

end Progress

/-- A rollout returns, whatever hangs, and takes no longer than the limits of its configuration
allow: that for the check of the pool, those of its canaries, the wait after them and those of all
rounds of the others. No run takes longer than its limit. -/
theorem rollout_returns {σ : Type} {env : Surroundings σ} {c : Config} {timeouts : StageTimeouts}
    {fleet : Fleet} (hc : Fleet.ofConfig c timeouts = .ok fleet) (timely : env.Timely)
    (live : env.Live) {s : σ} (hclock : (env.moment s).now.Shows fleet.longest) (ctx : Context) :
    (∀ hs y, Prompt env ctx ⟨s, fleet, .idle⟩ hs y →
      y.OnTime env ctx fleet (env.moment s).now hs) ∧
    (0 < timeouts.pollInterval.nanos → Scene.Inevitable env ctx
      (Scene.Returned env fleet (env.moment s).now) [] ⟨s, fleet, .idle⟩) := by
  obtain ⟨-, -, hnew⟩ := Fleet.config_of_ofConfig hc
  refine ⟨fun hs y h => h.onTime live hnew hclock, fun hpoll => ?_⟩
  rw [← (Fleet.targets_of_ofConfig hc).1] at hpoll
  exact Prompt.here.inevitable timely live hnew hclock hpoll

/-- The rollout of one backend has ten minutes for its upgrade and half a minute for the check of
its pool. -/
theorem rollout_returns_solo :
    Fleet.ofConfig soloConfig .standard = .ok soloFleet ∧ Surroundings.timed.Timely ∧
    Surroundings.timed.Live ∧ soloFleet.longest = .ofSecs 630 ∧
    (Surroundings.timed.moment soloAround).now.Shows soloFleet.longest ∧
    0 < StageTimeouts.standard.pollInterval.nanos ∧
    (∀ hs y, Prompt .timed .background ⟨soloAround, soloFleet, .idle⟩ hs y →
      y.OnTime .timed .background soloFleet 0 hs) ∧
    Scene.Inevitable .timed .background (Scene.Returned .timed soloFleet 0) []
      ⟨soloAround, soloFleet, .idle⟩ := by
  have hclock : (Surroundings.timed.moment soloAround).now.Shows soloFleet.longest :=
    show 0 + 630000000000 < 0x8000000000000000 * 1000000000 by decide
  have hpoll : 0 < StageTimeouts.standard.pollInterval.nanos := by decide
  obtain ⟨hall, hreturns⟩ := rollout_returns ofConfig_solo Surroundings.timed_timely
    Surroundings.timed_live hclock .background
  exact ⟨ofConfig_solo, Surroundings.timed_timely, Surroundings.timed_live, rfl, hclock, hpoll,
    hall, hreturns hpoll⟩

end Rollout
