import Rollout.Proofs.Upgrade.Resume
import Rollout.Upgrade.Timed

/-!
# A context that stops

No run outlasts its context.

* **How a wait ends** (`Context.scope_cases`, `Context.exists_scope`): by itself and no later than
  its context stops, or exactly then.
* **Moments** (`Context.Sees.le`, `Context.Sees.isSome_stopped`): what a moment shows of a context
  says on which side of its stop it lies.
* **Chains** (`Context.Bounds`): a context made by one limit after the other stops with the first of
  them.
* **The law** (`Upgrade.stopped_work`): a run waits and calls only within a context that goes on
  (`Upgrade.stopped_of_waiting`), a wait that its context ends is the end of the run
  (`Upgrade.Halted`), and so for a whole run by induction (`Timed.stopsWith`).
-/

namespace Rollout

/-! ## What is ready first -/

section Sooner

variable {α : Type} {a b : Due α} {x y : Instant × α}

theorem sooner_cases (h : sooner a b = some x) :
    (a = some x ∧ ∀ y ∈ b, x.1 ≤ y.1) ∨ (b = some x ∧ ∀ y ∈ a, x.1 < y.1) := by
  cases a with
  | none => exact .inr ⟨h, nofun⟩
  | some a =>
    cases b with
    | none => exact .inl ⟨h, nofun⟩
    | some b =>
      simp only [sooner] at h
      split at h
      · obtain rfl := Option.some.inj h
        refine .inl ⟨rfl, fun y hy => ?_⟩
        obtain rfl := Option.some.inj hy
        assumption
      · obtain rfl := Option.some.inj h
        refine .inr ⟨rfl, fun y hy => ?_⟩
        obtain rfl := Option.some.inj hy
        exact Nat.lt_of_not_le ‹_›

/-- One of two is ready when the first of them is. -/
theorem time_sooner (a b : Due α) :
    (sooner a b).map Prod.fst = (a.map Prod.fst).merge min (b.map Prod.fst) := by
  cases a with
  | none => cases b <;> rfl
  | some a =>
    cases b with
    | none => rfl
    | some b =>
      simp only [sooner, Option.map_some, Option.merge_some_some]
      split
      · rw [Option.map_some, Nat.min_eq_left ‹_›]
      · rw [Option.map_some, Nat.min_eq_right (Nat.le_of_not_le ‹_›)]

end Sooner

namespace Context

variable {ctx root : Context} {cancel : Option Instant} {cancelFirst : Bool} {m m' : Moment}
  {t stop begun : Instant}

/-- A context stops when its source is cancelled or its deadline comes, whichever is first. -/
theorem mem_stopsAt : stop ∈ ctx.stopsAt cancel ↔
    (cancel = some stop ∧ ∀ t ∈ ctx.deadline, stop ≤ t) ∨
      (ctx.deadline = some stop ∧ ∀ t ∈ cancel, stop ≤ t) := by
  unfold stopsAt
  cases ctx.deadline with
  | none => cases cancel <;> simp
  | some deadline =>
    cases cancel with
    | none => simp
    | some at_ =>
      simp only [Option.merge_some_some, Option.mem_def, Option.some.injEq, forall_eq']
      constructor
      · rintro rfl
        by_cases h : deadline ≤ at_
        · exact .inr ⟨(Nat.min_eq_left h).symm, Nat.min_le_right _ _⟩
        · exact .inl ⟨(Nat.min_eq_right (Nat.le_of_not_le h)).symm, Nat.min_le_left _ _⟩
      · rintro (⟨rfl, h⟩ | ⟨rfl, h⟩)
        · exact Nat.min_eq_right h
        · exact Nat.min_eq_left h

theorem time_done (ctx : Context) (cancel : Option Instant) (cancelFirst : Bool) :
    (ctx.done cancel cancelFirst).map Prod.fst = ctx.stopsAt cancel := by
  have hc : (cancel.map (·, StopReason.cancelled)).map Prod.fst = cancel := by
    cases cancel <;> rfl
  have hd : (ctx.deadline.map (·, StopReason.deadlineExceeded)).map Prod.fst = ctx.deadline := by
    cases ctx.deadline <;> rfl
  unfold done stopsAt
  cases cancelFirst with
  | false => rw [if_neg nofun, time_sooner, hc, hd]
  | true =>
    rw [if_pos rfl, time_sooner, hc, hd]
    cases cancel <;> cases ctx.deadline <;> simp [Nat.min_comm]

/-- What stopped a context by a time, where it gives that reason. -/
def Causes (ctx : Context) (cancel : Option Instant) (now : Instant) : StopReason → Prop
  | .cancelled => ∃ t ∈ cancel, t ≤ now
  | .deadlineExceeded => ∃ t ∈ ctx.deadline, t ≤ now

/-- A context that stops gives a reason that holds. -/
theorem causes_of_done {reason : StopReason} (h : ctx.done cancel cancelFirst = some (t, reason)) :
    ctx.Causes cancel t reason := by
  have hc : ∀ {x : Instant × StopReason}, cancel.map (·, .cancelled) = some x →
      ctx.Causes cancel x.1 x.2 := fun h => by
    obtain ⟨at_, hat, rfl⟩ := Option.map_eq_some_iff.mp h
    exact ⟨at_, hat, Nat.le_refl _⟩
  have hd : ∀ {x : Instant × StopReason}, ctx.deadline.map (·, .deadlineExceeded) = some x →
      ctx.Causes cancel x.1 x.2 := fun h => by
    obtain ⟨deadline, hdeadline, rfl⟩ := Option.map_eq_some_iff.mp h
    exact ⟨deadline, hdeadline, Nat.le_refl _⟩
  unfold done at h
  split at h <;> rcases sooner_cases h with ⟨h, -⟩ | ⟨h, -⟩
  · exact hc h
  · exact hd h
  · exact hd h
  · exact hc h

end Context

namespace Wait

variable {w : Wait} {begun : Instant} {reply : Due (Except String w.Reply)}
  {x : Instant × Event w}

/-- A wait that ends by itself does not end for its context. -/
theorem ne_stopped_of_ready (h : w.ready begun reply = some x) (reason : StopReason) :
    x.2 ≠ .stopped reason := by
  cases w with
  | call c =>
    obtain ⟨⟨t, r⟩, hy, rfl⟩ := Option.map_eq_some_iff.mp h
    cases r <;> exact nofun
  | limited c limit =>
    rcases sooner_cases h with ⟨h, -⟩ | ⟨h, -⟩
    · obtain ⟨⟨t, r⟩, hy, rfl⟩ := Option.map_eq_some_iff.mp h
      cases r <;> exact nofun
    · obtain rfl := Option.some.inj h
      exact nofun
  | pause until_ =>
    obtain rfl := Option.some.inj h
    exact nofun

end Wait

namespace Context

variable {ctx root : Context} {cancel : Option Instant} {cancelFirst : Bool} {m m' : Moment}
  {t stop begun : Instant} {w : Wait} {reply : Due (Except String w.Reply)} {e : Event w}

/-- A wait ends by itself and no later than its context stops, or when that stops. -/
theorem scope_cases (h : ctx.scope cancel cancelFirst begun w reply = some (t, e)) :
    (w.ready begun reply = some (t, e) ∧ ∀ stop ∈ ctx.stopsAt cancel, t ≤ stop) ∨
      (t ∈ ctx.stopsAt cancel ∧ ∃ reason, e = .stopped reason ∧ ctx.Causes cancel t reason) := by
  rcases sooner_cases h with ⟨h, hle⟩ | ⟨h, -⟩
  · refine .inl ⟨h, fun stop hstop => ?_⟩
    rw [← time_done ctx cancel cancelFirst] at hstop
    obtain ⟨⟨at_, reason⟩, hd, rfl⟩ := Option.map_eq_some_iff.mp hstop
    exact hle (at_, .stopped reason) (by rw [hd]; rfl)
  · obtain ⟨⟨t', reason⟩, hd, he⟩ := Option.map_eq_some_iff.mp h
    obtain ⟨rfl, rfl⟩ := Prod.mk.inj he
    refine .inr ⟨?_, reason, rfl, causes_of_done hd⟩
    rw [← time_done ctx cancel cancelFirst, hd]
    rfl

/-- A wait ends when it would by itself or when its context stops, whichever is first. -/
theorem time_scope (ctx : Context) (cancel : Option Instant) (cancelFirst : Bool) (begun : Instant)
    (w : Wait) (reply : Due (Except String w.Reply)) :
    (ctx.scope cancel cancelFirst begun w reply).map Prod.fst =
      ((w.ready begun reply).map Prod.fst).merge min (ctx.stopsAt cancel) := by
  rw [scope, time_sooner, Option.map_map, ← time_done ctx cancel cancelFirst]
  rfl

/-- A wait within a context that stops has ended by then, whatever is answered. -/
theorem exists_scope (hstop : stop ∈ ctx.stopsAt cancel) (cancelFirst : Bool) (begun : Instant)
    (w : Wait) (reply : Due (Except String w.Reply)) :
    ∃ t e, ctx.scope cancel cancelFirst begun w reply = some (t, e) ∧ t ≤ stop := by
  have ht := time_scope ctx cancel cancelFirst begun w reply
  rw [show ctx.stopsAt cancel = some stop from hstop] at ht
  cases hr : w.ready begun reply with
  | none =>
    rw [hr] at ht
    obtain ⟨⟨t, e⟩, he, rfl⟩ := Option.map_eq_some_iff.mp ht
    exact ⟨_, e, he, Nat.le_refl _⟩
  | some x =>
    rw [hr] at ht
    obtain ⟨⟨t, e⟩, he, rfl⟩ := Option.map_eq_some_iff.mp ht
    exact ⟨_, e, he, Nat.min_le_right _ _⟩

/-! ## Moments -/

theorem isExpired_iff : ctx.isExpired m = true ↔ ∃ t ∈ ctx.deadline, t ≤ m.now := by
  unfold isExpired
  cases ctx.deadline <;> simp

/-- Where a context has stopped by a moment, its stop is no later. -/
theorem Sees.le (h : ctx.Sees cancel m) (hs : (ctx.stopped m).isSome)
    (hstop : stop ∈ ctx.stopsAt cancel) : stop ≤ m.now := by
  have hle : ∀ t, t ∈ cancel ∨ t ∈ ctx.deadline → stop ≤ t := by
    intro t ht
    rcases mem_stopsAt.mp hstop with ⟨hc, hd⟩ | ⟨hd, hc⟩ <;> rcases ht with ht | ht
    · exact Nat.le_of_eq (Option.some.inj (hc.symm.trans ht))
    · exact hd t ht
    · exact hc t ht
    · exact Nat.le_of_eq (Option.some.inj (hd.symm.trans ht))
  rw [Context.isSome_stopped, Bool.or_eq_true] at hs
  rcases hs with hs | hs
  · obtain ⟨t, ht, hnow⟩ := h.cancelled hs
    exact Nat.le_trans (hle t (.inl ht)) hnow
  · obtain ⟨t, ht, hnow⟩ := isExpired_iff.mp hs
    exact Nat.le_trans (hle t (.inr ht)) hnow

/-- A context has stopped by any moment after its stop. -/
theorem Sees.isSome_stopped (h : ctx.Sees cancel m) (hstop : stop ∈ ctx.stopsAt cancel)
    (hlt : stop < m.now) : (ctx.stopped m).isSome := by
  rw [Context.isSome_stopped, Bool.or_eq_true]
  rcases mem_stopsAt.mp hstop with ⟨hc, -⟩ | ⟨hd, -⟩
  · exact .inl (h.later stop hc hlt)
  · exact .inr (isExpired_iff.mpr ⟨stop, hd, Nat.le_of_lt hlt⟩)

/-- A context goes on at a moment no later than its stop. -/
theorem Sees.le_of_stopped (h : ctx.Sees cancel m) (hlive : ctx.stopped m = none)
    (hstop : stop ∈ ctx.stopsAt cancel) : m.now ≤ stop := by
  refine Nat.le_of_not_lt fun hlt => ?_
  have := h.isSome_stopped hstop hlt
  rw [hlive] at this
  cases this

/-- What a context says that it has stopped for has come. -/
theorem Sees.causes {reason : StopReason} (h : ctx.Sees cancel m)
    (hs : ctx.stopped m = some reason) : ctx.Causes cancel m.now reason := by
  unfold stopped at hs
  split at hs
  · cases hs
    exact h.cancelled ‹_›
  · split at hs
    · cases hs
      exact isExpired_iff.mp ‹_›
    · cases hs

/-- A context that has stopped by a moment stops at a time. -/
theorem Sees.exists_stop (h : ctx.Sees cancel m) (hs : (ctx.stopped m).isSome) :
    ∃ stop ∈ ctx.stopsAt cancel, stop ≤ m.now := by
  have hex : ∃ stop, stop ∈ ctx.stopsAt cancel := by
    unfold stopsAt
    obtain ⟨reason, hr⟩ := Option.isSome_iff_exists.mp hs
    have hc := h.causes hr
    cases reason with
    | cancelled =>
      obtain ⟨t, ht, -⟩ := hc
      rw [show cancel = some t from ht]
      cases ctx.deadline <;> exact ⟨_, rfl⟩
    | deadlineExceeded =>
      obtain ⟨t, ht, -⟩ := hc
      rw [show ctx.deadline = some t from ht]
      cases cancel <;> exact ⟨_, rfl⟩
  obtain ⟨stop, hstop⟩ := hex
  exact ⟨stop, hstop, h.le hs hstop⟩

/-! ## Chains -/

/-- What a context has of the one that it was made from by one limit after the other: the same
source, and the first of all deadlines, so that it stops as soon as any of them does. -/
structure Bounds (root : Context) (links : List (Instant × Duration)) (ctx : Context) : Prop where
  source : ctx.source = root.source
  deadline : ctx.deadline = (root.deadline.toList ++ links.map fun l => l.1.after l.2).min?
  stopped : ∀ m, (ctx.stopped m).isSome ↔
    (root.stopped m).isSome ∨ ∃ l ∈ links, l.1.after l.2 ≤ m.now

theorem isSome_stopped_bounded_iff {deadline : Instant} :
    ((ctx.bounded deadline).stopped m).isSome ↔ (ctx.stopped m).isSome ∨ deadline ≤ m.now := by
  rw [isSome_stopped, isSome_stopped, Bool.or_eq_true, Bool.or_eq_true, or_assoc]
  refine or_congr Iff.rfl ?_
  rw [isExpired_iff, isExpired_iff]
  cases hd : ctx.deadline with
  | none => simp [bounded, hd]
  | some earlier =>
    simp only [bounded, hd, Option.mem_def, Option.some.injEq, exists_eq_left']
    exact Std.min_le

/-- One limit more. -/
theorem Bounds.cons {now : Instant} {timeout : Duration} {links : List (Instant × Duration)}
    (h : Bounds (root.bounded (now.after timeout)) links ctx) :
    Bounds root ((now, timeout) :: links) ctx where
  source := h.source
  deadline := by
    rw [h.deadline]
    cases hd : root.deadline <;> simp only [bounded, hd] <;> rfl
  stopped m := by
    rw [h.stopped m, isSome_stopped_bounded_iff, or_assoc]
    simp

theorem bounds_of_chain {links : List (Instant × Duration)} (h : root.chain? links = some ctx) :
    Bounds root links ctx := by
  induction links generalizing root with
  | nil =>
    cases h
    exact ⟨rfl, by cases ctx.deadline <;> rfl, fun m => by simp⟩
  | cons l links ih =>
    obtain ⟨mid, hmid, hrest⟩ := Option.bind_eq_some_iff.mp h
    obtain ⟨deadline, hd, rfl⟩ := Option.map_eq_some_iff.mp hmid
    unfold Instant.after? at hd
    split at hd
    · cases hd
      exact (ih hrest).cons
    · cases hd

end Context

/-! ## Steps -/

namespace Upgrade

variable {u v : Upgrade} {j : Job} {ctx : Context} {m : Moment} {c : Call} {p q : Position}

/-- The context of a run goes on where the run begins to wait. -/
theorem stopped_of_guard (h : (u.guard ctx m p).2 = .waiting q) : ctx.stopped m = none := by
  unfold guard at h
  split at h
  · cases h
  · assumption

theorem stopped_of_enter {s : Stage} (h : (u.enter j ctx m s).2 = .waiting q) :
    ctx.stopped m = none := by
  unfold enter at h
  split at h
  · cases h
  · exact stopped_of_guard h

theorem eq_of_guard (h : (u.guard ctx m p).2 = .waiting q) : q = p := by
  unfold guard at h
  split at h
  · cases h
  · cases h; rfl

/-- A run waits again only where its wait ended with a result: in its stage, or in the next. -/
theorem waits_of_resume {e : Event (p.wait j)} (h : (u.resume j ctx m p e).2 = .waiting q) :
    ctx.stopped m = none ∧ ∃ r, e = .result r ∧
      (p.resume j m.now r = .stay q ∨
        p.resume j m.now r = .passed ∧ (u.enter j ctx m u.current.next).2 = .waiting q) := by
  cases e with
  | stopped reason => cases h
  | crashed text => cases h
  | result r =>
    simp only [resume] at h
    cases hr : p.resume j m.now r with
    | stay q' =>
      rw [hr] at h
      obtain rfl := eq_of_guard h
      exact ⟨stopped_of_guard h, r, rfl, .inl hr⟩
    | passed =>
      rw [hr] at h
      exact ⟨stopped_of_enter h, r, rfl, .inr ⟨hr, h⟩⟩
    | failed e =>
      rw [hr] at h
      cases h

theorem stopped_of_waiting {e : Event (p.wait j)} (h : (u.resume j ctx m p e).2 = .waiting q) :
    ctx.stopped m = none := (waits_of_resume h).1

theorem waiting_of_called {x : Progress} (h : .called c ∈ x.deeds j) : ∃ q, x = .waiting q := by
  cases x with
  | waiting q => exact ⟨q, rfl⟩
  | ended r => cases h
  | crashed text => cases h

/-- A run begins with a call only within a context that goes on. -/
theorem stopped_of_called_start (h : .called c ∈ u.startDeeds j ctx m) :
    ctx.stopped m = none := by
  rcases List.mem_cons.mp h with h | h
  · cases h
  · obtain ⟨q, hq⟩ := waiting_of_called h
    exact stopped_of_enter hq

/-- A run goes on with a call only within a context that goes on. -/
theorem stopped_of_called_resume {e : Event (p.wait j)}
    (h : .called c ∈ u.resumeDeeds j ctx m p e) : ctx.stopped m = none := by
  unfold resumeDeeds at h
  rcases List.mem_cons.mp h with h | h
  · cases h
  · rcases List.mem_append.mp h with h | h
    · split at h <;> simp at h
    · obtain ⟨q, hq⟩ := waiting_of_called h
      exact stopped_of_waiting hq

/-- A run that ends at its beginning does so because its context has stopped. -/
theorem reason_of_start {result : Except UpgradeError Unit} (hu : u.entryStage ≠ .done)
    (h : (u.start j ctx m).2 = .ended result) :
    ∃ reason, ctx.stopped m = some reason ∧ result = .error (.context reason) := by
  unfold start enter at h
  split at h
  · exact absurd (Position.enter_eq_none.mp ‹_›) hu
  · unfold guard at h
    split at h
    · cases h
      exact ⟨_, ‹_›, rfl⟩
    · cases h

/-- A run within a context that goes on begins where the last one failed. -/
theorem start_of_failed (hf : u.failed = some u.current) (hd : u.current ≠ .done)
    (hlive : ctx.stopped m = none) :
    ∃ q, q.stage = u.current ∧ u.start j ctx m = ({ u with started := true }, .waiting q) := by
  have hentry : u.entryStage = u.current := by rw [entryStage, hf]; rfl
  unfold start enter
  rw [hentry]
  split
  · exact absurd (Position.enter_eq_none.mp ‹_›) hd
  · refine ⟨_, Position.enter_stage ‹_›, ?_⟩
    simp only [guard, hlive]

end Upgrade

/-! ## Runs -/

namespace Upgrade

/-- A run has ended with the error of its context: that stands in the record, beside the stage that
was entered last, and a later run within a context that goes on begins there. -/
structure Halted (cancel : Option Instant) (ctx : Context) (log : List (Moment × Deed))
    (m : Moment) (v : Upgrade) (result : Except UpgradeError Unit) : Prop where
  reason : ∃ reason, ctx.Causes cancel m.now reason ∧ result = .error (.context reason) ∧
    v.err = some (.context reason)
  failed : v.failed = some v.current
  last : ((log.map Prod.snd).filterMap Deed.entered?).getLast? = some v.current
  again : ∀ j ctx' m', ctx'.stopped m' = none →
    ∃ q, q.stage = v.current ∧ v.start j ctx' m' = ({ v with started := true }, .waiting q)

/-- The last that a run did was to end with the result of a wait, at a moment. -/
def Decided (j : Job) (ctx : Context) (log : List (Moment × Deed)) (m : Moment)
    (x : Upgrade × Progress) : Prop :=
  ∃ (before : List (Moment × Deed)) (v : Upgrade) (p : Position) (r : (p.wait j).Result),
    log = before ++ (v.resumeDeeds j ctx m p (.result r)).map (m, ·) ∧
      x = v.resume j ctx m p (.result r)

/-- How a run stands to the time when its context stops. -/
structure StopsWith (cancel : Option Instant) (j : Job) (ctx : Context) (m₀ : Moment)
    (stop : Instant) (log : List (Moment × Deed)) (m : Moment) (x : Upgrade × Progress) : Prop where
  /-- No call is made later. -/
  calls : ∀ m' c, (m', .called c) ∈ log → ctx.stopped m' = none ∧ m'.now ≤ stop
  /-- Nothing is done later, where the run began no later. -/
  now : m.now ≤ max m₀.now stop ∧ ∀ y ∈ log, y.1.now ≤ max m₀.now stop
  /-- A wait is not begun later, and it is over by then. -/
  waits : ∀ p, x.2 = .waiting p → ctx.stopped m = none ∧ m.now ≤ stop ∧ ∀ cancelFirst reply,
    ∃ t e, ctx.scope cancel cancelFirst m.now (p.wait j) reply = some (t, e) ∧ t ≤ stop
  /-- A run that has ended neither before nor because of the context was decided at that time. -/
  ends : ∀ result, x.2 = .ended result → stop ≤ m.now →
    Halted cancel ctx log m x.1 result ∨ (m.now = stop ∧ Decided j ctx log m x)
  crashes : ∀ text, x.2 = .crashed text → m.now ≤ stop

variable {u v : Upgrade} {j : Job} {ctx : Context} {cancel : Option Instant} {m₀ m : Moment}
  {log : List (Moment × Deed)} {x : Upgrade × Progress} {stop : Instant}

theorem map_snd_map (m : Moment) (deeds : List Deed) :
    (deeds.map (m, ·)).map Prod.snd = deeds := by
  rw [List.map_map]
  exact List.map_id _

/-- A run in time is a run. -/
theorem Timed.walk (h : u.Timed cancel j ctx m₀ log m x) :
    Walk u j ctx (log.map Prod.snd) x := by
  induction h with
  | start _ =>
    rw [map_snd_map]
    exact .start m₀
  | @resume log m m' v p e _ _ _ _ _ _ _ ih =>
    rw [List.map_append, map_snd_map]
    exact .resume m' e ih

/-- A run that ended with the error of its context has halted. -/
theorem Walk.halted {reason : StopReason} (h : Walk u j ctx (log.map Prod.snd) x)
    (hx : x.2 = .ended (.error (.context reason))) (hc : ctx.Causes cancel m.now reason) :
    Halted cancel ctx log m x.1 (.error (.context reason)) := by
  obtain ⟨hw, hfits⟩ := h.walked fun text he => by rw [hx] at he; cases he
  rw [hx] at hfits
  obtain ⟨hd, hf, he⟩ := hfits
  exact ⟨⟨reason, hc, rfl, he⟩, hf, hw.last, fun j ctx' m' => start_of_failed hf hd⟩

theorem mem_map_pair {m' : Moment} {d : Deed} {deeds : List Deed}
    (h : (m', d) ∈ deeds.map (m, ·)) : m' = m ∧ d ∈ deeds := by
  obtain ⟨d', hd, he⟩ := List.mem_map.mp h
  cases he
  exact ⟨rfl, hd⟩

theorem StopsWith.start (hsees : ctx.Sees cancel m₀) (hu : u.entryStage ≠ .done)
    (hstop : stop ∈ ctx.stopsAt cancel) :
    StopsWith cancel j ctx m₀ stop ((u.startDeeds j ctx m₀).map (m₀, ·)) m₀
      (u.start j ctx m₀) where
  calls m' c h := by
    obtain ⟨rfl, hc⟩ := mem_map_pair h
    have hlive := stopped_of_called_start hc
    exact ⟨hlive, hsees.le_of_stopped hlive hstop⟩
  now := by
    refine ⟨Nat.le_max_left _ _, fun y hy => ?_⟩
    obtain ⟨rfl, -⟩ := mem_map_pair hy
    exact Nat.le_max_left _ _
  waits p hp := by
    have hlive := stopped_of_enter hp
    exact ⟨hlive, hsees.le_of_stopped hlive hstop, fun cancelFirst reply =>
      Context.exists_scope hstop cancelFirst _ _ reply⟩
  ends result hr _ := by
    obtain ⟨reason, hs, rfl⟩ := reason_of_start hu hr
    exact .inl ((Timed.start hsees).walk.halted hr (hsees.causes hs))
  crashes text ht := by
    have hs := u.starts j ctx m₀
    generalize u.start j ctx m₀ = x at hs ht
    cases hs <;> cases ht

/-- Once more the run goes on where a wait ended. -/
theorem StopsWith.resume {m' : Moment} {p : Position} {e : Event (p.wait j)} {cancelFirst : Bool}
    {reply : Due (Except String (p.wait j).Reply)}
    (h : StopsWith cancel j ctx m₀ stop log m (v, .waiting p)) (hsees : ctx.Sees cancel m')
    (hstop : stop ∈ ctx.stopsAt cancel)
    (hscope : ctx.scope cancel cancelFirst m.now (p.wait j) reply = some (m'.now, e))
    (hwalk : Walk u j ctx
      ((log ++ (v.resumeDeeds j ctx m' p e).map (m', ·)).map Prod.snd) (v.resume j ctx m' p e)) :
    StopsWith cancel j ctx m₀ stop (log ++ (v.resumeDeeds j ctx m' p e).map (m', ·)) m'
      (v.resume j ctx m' p e) := by
  have hcases := Context.scope_cases hscope
  have hle : m'.now ≤ stop := by
    rcases hcases with ⟨-, hle⟩ | ⟨hnow, -⟩
    · exact hle stop hstop
    · exact Nat.le_of_eq (Option.some.inj (hnow.symm.trans hstop))
  have hmax : m'.now ≤ max m₀.now stop := Nat.le_trans hle (Nat.le_max_right _ _)
  refine ⟨fun m'' c hc => ?_, ⟨hmax, fun y hy => ?_⟩, fun q hq => ?_, fun result hr hnow => ?_,
    fun _ _ => hle⟩
  · rcases List.mem_append.mp hc with hc | hc
    · exact h.calls m'' c hc
    · obtain ⟨rfl, hc⟩ := mem_map_pair hc
      exact ⟨stopped_of_called_resume hc, hle⟩
  · rcases List.mem_append.mp hy with hy | hy
    · exact h.now.2 y hy
    · obtain ⟨rfl, -⟩ := mem_map_pair hy
      exact hmax
  · exact ⟨stopped_of_waiting hq, hle, fun cancelFirst reply =>
      Context.exists_scope hstop cancelFirst _ _ reply⟩
  · rcases hcases with ⟨hready, -⟩ | ⟨-, reason, rfl, hcauses⟩
    · cases e with
      | result r => exact .inr ⟨Nat.le_antisymm hle hnow, log, v, p, r, rfl, rfl⟩
      | stopped reason => exact absurd rfl (Wait.ne_stopped_of_ready hready reason)
      | crashed text => cases hr
    · obtain rfl := (Progress.ended.inj hr).symm
      exact .inl (hwalk.halted hr hcauses)

/-- A run stops with its context. -/
theorem Timed.stopsWith (h : u.Timed cancel j ctx m₀ log m x) (hu : u.entryStage ≠ .done)
    (hstop : stop ∈ ctx.stopsAt cancel) : StopsWith cancel j ctx m₀ stop log m x := by
  induction h with
  | start hsees => exact .start hsees hu hstop
  | resume cancelFirst reply hrun hm hsees hreply hscope ih =>
    exact ih.resume hsees hstop hscope (hrun.resume cancelFirst reply hm hsees hreply hscope).walk

/-! ## Histories -/

/-- No run leaves a record whose next run would have nothing to do. -/
theorem Walk.entryStage_ne_done {deeds : List Deed} (h : Walk u j ctx deeds x)
    (hu : u.entryStage ≠ .done) : x.1.entryStage ≠ .done := by
  induction h with
  | start m =>
    have hs := u.starts j ctx m
    generalize u.start j ctx m = x at hs
    cases hs with
    | waits | halts | finishes => exact hu
  | @resume deeds v p m e hwalk ih =>
    obtain ⟨-, hp, -⟩ := hwalk.walked fun _ => nofun
    have hne : v.current ≠ .done := fun hd => p.stage_ne_done (hp.trans hd)
    cases e with
    | crashed text => exact ih
    | stopped reason => exact hne
    | result r =>
      have hm : v.Moves (p.passes j m.now (.result r)) (v.resume j ctx m p (.result r)) :=
        Upgrade.moves hp trivial
      generalize v.resume j ctx m p (.result r) = x at hm
      generalize p.passes j m.now (.result r) = passed at hm
      cases hm with
      | stays | advances | finishes => exact ih
      | halts reason hn => exact hn
      | fails e => exact hne

theorem History.entryStage_ne_done {c : Config} {timeouts : StageTimeouts} {trials : List Trial}
    (h : History c timeouts u trials v) (hu : u.entryStage ≠ .done) : v.entryStage ≠ .done := by
  induction h with
  | none => exact hu
  | next _ ht ih =>
    cases ht with
    | refused hr =>
      cases hr
      exact ih
    | walked hwalk => exact hwalk.entryStage_ne_done ih

/-- **The law of stopping.** An upgrade had any runs, and its next run is under way in time within a
context that was made by one limit after the other. The context stops as soon as any of the contexts
does that it was made from, for the same cause, and goes on never again. When it stops, no call is
made any more, no wait lasts longer, and the run ends: with the error of the context, which stands
in the record beside the stage that was under way or about to begin and where a later run begins;
or with the result of a wait that ended at that very time. -/
theorem stopped_work {c : Config} {timeouts : StageTimeouts} {endpoint : String} {b : Backend}
    {trials : List Trial} {source : Entry} {root : Context} {links : List (Instant × Duration)}
    (hctx : root.chain? links = some ctx)
    (history : History c timeouts (fresh endpoint b) trials u)
    (run : u.Timed cancel ⟨c, timeouts, u.endpoint, u.backend, source⟩ ctx m₀ log m x) :
    Context.Bounds root links ctx ∧
    (∀ m m', m.Precedes m' → (ctx.stopped m).isSome → (ctx.stopped m').isSome) ∧
    (∀ m, ctx.Sees cancel m → (ctx.stopped m).isSome → ∃ stop ∈ ctx.stopsAt cancel,
      stop ≤ m.now) ∧
    ∀ stop ∈ ctx.stopsAt cancel,
      (∀ m, ctx.Sees cancel m → stop < m.now → (ctx.stopped m).isSome) ∧
      StopsWith cancel ⟨c, timeouts, u.endpoint, u.backend, source⟩ ctx m₀ stop log m x :=
  ⟨Context.bounds_of_chain hctx, fun _ _ hm => Context.isSome_stopped_later hm,
    fun _ hsees => hsees.exists_stop, fun _ hstop =>
      ⟨fun _ hsees => hsees.isSome_stopped hstop,
        run.stopsWith (history.entryStage_ne_done nofun) hstop⟩⟩

/-- A run whose first call is never answered, within a minute of which it gets ten seconds, and
which is cancelled after four. -/
theorem stopped_work_cancelled : ∃ (ctx : Context) (log : List (Moment × Deed)) (v : Upgrade),
    (Context.ofSource 0).chain? [(0, .ofSecs 60), (0, .ofSecs 10)] = some ctx ∧
    (fresh "10.0.0.1:80" default).Timed (some 4000000000)
      ⟨default, .standard, "10.0.0.1:80", default, .directory⟩ ctx ⟨0, []⟩ log ⟨4000000000, [0]⟩
      (v, .ended (.error (.context .cancelled))) ∧
    ctx.deadline = some 10000000000 ∧ v.failed = some .removeFromPool ∧
    StopsWith (some 4000000000) ⟨default, .standard, "10.0.0.1:80", default, .directory⟩ ctx
      ⟨0, []⟩ 4000000000 log ⟨4000000000, [0]⟩ (v, .ended (.error (.context .cancelled))) := by
  let u : Upgrade := .fresh "10.0.0.1:80" default
  let j : Job := ⟨default, .standard, "10.0.0.1:80", default, .directory⟩
  let ctx : Context := ⟨some 10000000000, some 0⟩
  have hctx : (Context.ofSource 0).chain? [(0, .ofSecs 60), (0, .ofSecs 10)] = some ctx := by
    decide +kernel
  have removing : u.Timed (some 4000000000) j ctx ⟨0, []⟩ _ ⟨0, []⟩ (_, .waiting .removing) :=
    .start ⟨fun _ _ => rfl, nofun, fun t _ h => absurd h (Nat.not_lt_zero t)⟩
  have ended : u.Timed (some 4000000000) j ctx ⟨0, []⟩ _ ⟨4000000000, [0]⟩
      (_, .ended (.error (.context .cancelled))) :=
    .resume (p := .removing) (e := .stopped .cancelled) false none removing
      ⟨Nat.zero_le _, nofun⟩
      ⟨fun _ _ => rfl, fun _ => ⟨_, rfl, Nat.le_refl _⟩, fun _ _ _ => rfl⟩ nofun rfl
  have law := stopped_work hctx (.none : History default .standard u [] u) ended
  exact ⟨ctx, _, _, hctx, ended, rfl, rfl, (law.2.2.2 _ rfl).2⟩

end Upgrade

end Rollout
