import Rollout.Fleet.Clock
import Rollout.Proofs.Fleet.Admission
import Rollout.Proofs.Fleet.Away

/-!
# The check before a rollout

A rollout goes on to its upgrades exactly when the load balancer tells in time that the configured
backends are the members of the pool, at full health.

- **The report** (`Config.Allows`, `Config.Refuses`): what it has to say, and what each other report
  leads to. `Fleet.checkAnswer_cases` says that the check agrees.
- **Up to the answer** (`Gated`): how far a course is with the check. `Course.gated` is the
  induction.
- **Past the answer** (`Phase.Unentered`): as long as no upgrade is entered, the rollout has not
  ended, and it goes on by itself (`Phase.Unentered.enters`).
- **The law** (`precondition_exact`): all of this, over every course.
-/

namespace Rollout

/-! ## The report -/

namespace Config

/-- The backend that the configured address at a place names. -/
def Names (c : Config) (i : Nat) (b : Backend) : Prop :=
  ∃ addr, c.backends[i]? = some addr ∧ Backend.read addr = .ok b

/-- Whether one of the configured addresses names a backend. -/
def Has (c : Config) (b : Backend) : Prop := ∃ addr ∈ c.backends, Backend.read addr = .ok b

/-- Whether a report lets a rollout go on: the pool is at full health, and its members are the
configured backends, in any order and any number of times. -/
structure Allows (c : Config) (h : PoolHealth) : Prop where
  full : h.status = .full
  members : ∀ b, b ∈ h.backends ↔ c.Has b

/-- Why a rollout is refused that was answered so. A member that is not configured counts before a
configured backend that is no member, and of several ones the first counts. -/
inductive Refuses (c : Config) : Except PoolError PoolHealth → GateError → Prop
  | failed (e : PoolError) : Refuses c (.error e) (.poolHealth c.pattern e)
  | unhealthy {h : PoolHealth} : h.status = .unknown ∨ h.status = .degraded →
    Refuses c (.ok h) (.poolNotHealthy h.status)
  | empty {h : PoolHealth} : h.status = .empty → Refuses c (.ok h) (.emptyPool c.backends.length)
  | unexpected {h : PoolHealth} {i : Nat} {b : Backend} : h.status = .full →
    h.backends[i]? = some b → ¬ c.Has b →
    (∀ j x, j < i → h.backends[j]? = some x → c.Has x) → Refuses c (.ok h) (.unexpectedBackend b)
  | missing {h : PoolHealth} {i : Nat} {b : Backend} : h.status = .full →
    (∀ x ∈ h.backends, c.Has x) → c.Names i b → b ∉ h.backends →
    (∀ j x, j < i → c.Names j x → x ∈ h.backends) → Refuses c (.ok h) (.missingBackend b)

end Config

namespace Fleet

variable {c : Config} {timeouts : StageTimeouts} {fleet : Fleet}

theorem backends_getElem? (hc : ofConfig c timeouts = .ok fleet) {i : Nat} {b : Backend} :
    fleet.backends[i]? = some b ↔ c.Names i b := by
  obtain ⟨-, -, hb, -⟩ := targets_of_ofConfig hc
  rw [getElem?_mapM hb]
  simp only [ofConfigured_eq_ok, Config.Names]

theorem mem_backends (hc : ofConfig c timeouts = .ok fleet) {b : Backend} :
    b ∈ fleet.backends ↔ c.Has b := by
  simp only [List.mem_iff_getElem?, backends_getElem? hc, Config.Names, Config.Has]
  constructor
  · rintro ⟨i, addr, ha, hb⟩
    exact ⟨addr, ⟨i, ha⟩, hb⟩
  · rintro ⟨addr, ⟨i, ha⟩, hb⟩
    exact ⟨i, addr, ha, hb⟩

theorem length_backends (hc : ofConfig c timeouts = .ok fleet) :
    fleet.backends.length = c.backends.length := length_mapM (targets_of_ofConfig hc).2.2.1

theorem size_pos (hc : ofConfig c timeouts = .ok fleet) : 0 < fleet.size := by
  obtain ⟨-, -, hnew⟩ := config_of_ofConfig hc
  have hlen := length_backends hc
  rw [← hnew.backends, List.length_map] at hlen
  rw [size, hlen]
  exact List.length_pos_iff.mpr (targets_of_ofConfig hc).2.1

/-- A pool at full health is refused for the first member that is not configured, then for the first
configured backend that is no member. -/
theorem checkHealth_full (hc : ofConfig c timeouts = .ok fleet) {h : PoolHealth}
    (hs : h.status = .full) :
    (fleet.checkHealth h = .ok () ∧ c.Allows h) ∨
      ∃ g, fleet.checkHealth h = .error g ∧ c.Refuses (.ok h) g ∧ ¬ c.Allows h := by
  unfold checkHealth
  simp only [hs]
  cases hextra : h.backends.find? fun b => !fleet.backends.contains b with
  | some extra =>
    obtain ⟨hp, i, hi, hb, hfirst⟩ := List.find?_eq_some_iff_getElem.mp hextra
    have hnot : ¬ c.Has extra := by
      rw [← mem_backends hc]
      simpa using hp
    have hat : h.backends[i]? = some extra := List.getElem?_eq_some_iff.mpr ⟨hi, hb⟩
    refine .inr ⟨_, rfl, .unexpected hs hat hnot fun j x hj hx => ?_, fun ha => hnot ?_⟩
    · obtain ⟨hlt, rfl⟩ := List.getElem?_eq_some_iff.mp hx
      rw [← mem_backends hc]
      simpa using hfirst j hj
    · exact (ha.members extra).mp (List.mem_of_getElem? hat)
  | none =>
    have hall : ∀ x ∈ h.backends, c.Has x := fun x hx => by
      have := List.find?_eq_none.mp hextra x hx
      rw [← mem_backends hc]
      simpa using this
    cases hmissing : fleet.backends.find? fun b => !h.backends.contains b with
    | some missing =>
      obtain ⟨hp, i, hi, hb, hfirst⟩ := List.find?_eq_some_iff_getElem.mp hmissing
      have hnot : missing ∉ h.backends := by simpa using hp
      have hat : fleet.backends[i]? = some missing := List.getElem?_eq_some_iff.mpr ⟨hi, hb⟩
      refine .inr ⟨_, rfl, .missing hs hall ((backends_getElem? hc).mp hat) hnot
        fun j x hj hx => ?_, fun ha => hnot ?_⟩
      · obtain ⟨hlt, rfl⟩ := List.getElem?_eq_some_iff.mp ((backends_getElem? hc).mpr hx)
        simpa using hfirst j hj
      · exact (ha.members missing).mpr ((mem_backends hc).mp (List.mem_of_getElem? hat))
    | none =>
      refine .inl ⟨rfl, hs, fun b => ⟨hall b, fun hb => ?_⟩⟩
      have := List.find?_eq_none.mp hmissing b ((mem_backends hc).mpr hb)
      simpa using this

/-- The check of an answer does as the configuration says. -/
theorem checkAnswer_cases (hc : ofConfig c timeouts = .ok fleet)
    (r : Except PoolError PoolHealth) :
    (fleet.checkAnswer r = .ok () ∧ ∃ h, r = .ok h ∧ c.Allows h) ∨
      ∃ g, fleet.checkAnswer r = .error g ∧ c.Refuses r g ∧ ∀ h, r = .ok h → ¬ c.Allows h := by
  obtain ⟨hconfig, -, -⟩ := config_of_ofConfig hc
  cases r with
  | error e => exact .inr ⟨_, rfl, hconfig ▸ .failed e, nofun⟩
  | ok h =>
    by_cases hs : h.status = .full
    · rcases checkHealth_full hc hs with ⟨hok, ha⟩ | ⟨g, hg, hr, hn⟩
      · exact .inl ⟨hok, h, rfl, ha⟩
      · exact .inr ⟨g, hg, hr, fun h' he => by cases he; exact hn⟩
    · have hn : ∀ h', (.ok h : Except PoolError PoolHealth) = .ok h' → ¬ c.Allows h' :=
        fun h' he ha => by cases he; exact hs ha.full
      rw [checkAnswer, checkHealth]
      cases hs' : h.status with
      | full => exact absurd hs' hs
      | unknown => exact .inr ⟨_, rfl, hs' ▸ .unhealthy (.inl hs'), hn⟩
      | degraded => exact .inr ⟨_, rfl, hs' ▸ .unhealthy (.inr hs'), hn⟩
      | empty =>
        have hlen := length_backends hc
        have hne : fleet.backends ≠ [] := fun hnil => (targets_of_ofConfig hc).2.1 <| by
          rw [hnil] at hlen
          exact List.length_eq_zero_iff.mp hlen.symm
        refine .inr ⟨_, if_neg (fun he => hne (List.isEmpty_iff.mp he)), ?_, hn⟩
        rw [hlen]
        exact .empty hs'

end Fleet

/-! ## Up to the answer -/

namespace Config

/-- Whether a rollout that asked for the pool within a context, and gets this reply, goes on. -/
def Admits (c : Config) (inner : Context) (cancel : Option Instant)
    (reply : Option (Instant × Except PoolError PoolHealth)) : Prop :=
  ∃ h, inner.Receives cancel reply (.ok h) ∧ c.Allows h

/-- Why it is refused: for the reply, or because no reply came in time. -/
inductive Denies (c : Config) (inner : Context) (cancel : Option Instant)
    (reply : Option (Instant × Except PoolError PoolHealth)) : GateError → Prop
  | answered {r : Except PoolError PoolHealth} {g : GateError} : inner.Receives cancel reply r →
    c.Refuses r g → Denies c inner cancel reply g
  | silent (reason : StopReason) : (∀ r, ¬ inner.Receives cancel reply r) →
    Denies c inner cancel reply (.context c.pattern reason)

end Config

section Gate

variable {σ : Type} {env : Surroundings σ} {ctx inner : Context} {c : Config}
  {timeouts : StageTimeouts} {fleet : Fleet} {cancel : Option Instant}
  {reply : Option (Instant × Except PoolError PoolHealth)} {m : Moment} {s : σ} {x y : Scene σ}
  {hs new : List Happening}

/-- Where the wait for the pool ends, the rollout goes on or is refused as it ought to. -/
theorem Run.gateAnswered_cases (hc : Fleet.ofConfig c timeouts = .ok fleet)
    {e : Event (Run.gateCall fleet)} (he : inner.Scopes cancel m e reply) :
    (Run.gateAnswered fleet e = (fleet, .canaryDue 0) ∧ c.Admits inner cancel reply) ∨
      ∃ g, Run.gateAnswered fleet e = Run.refuse fleet g ∧ c.Denies inner cancel reply g ∧
        ¬ c.Admits inner cancel reply := by
  cases e with
  | crashed text => exact he.elim
  | stopped reason =>
    obtain ⟨hconfig, -, -⟩ := Fleet.config_of_ofConfig hc
    refine .inr ⟨_, rfl, hconfig ▸ .silent reason he.stopped, ?_⟩
    rintro ⟨h, hr, -⟩
    exact he.stopped _ hr
  | result r =>
    have hr : inner.Receives cancel reply r := he.result
    rcases Fleet.checkAnswer_cases hc r with ⟨hok, h, rfl, ha⟩ | ⟨g, hg, hrefuses, hn⟩
    · refine .inl ⟨?_, h, hr, ha⟩
      simp only [Run.gateAnswered, hok]
    · refine .inr ⟨g, by simp only [Run.gateAnswered, hg], .answered hr hrefuses, ?_⟩
      rintro ⟨h, hh, ha⟩
      exact hn h (hr.eq hh) ha

/-- Whether a rollout that was idle in the surroundings `s` may begin at a moment. -/
def Begins (env : Surroundings σ) (ctx : Context) (fleet : Fleet) (s : σ) (m : Moment) : Prop :=
  ∃ s', Course env ctx ⟨s, fleet, .idle⟩ [] ⟨s', fleet, .idle⟩ ∧ env.moment s' = m

/-- How far a rollout of `fleet` is with the check of its pool, and what happened so far. -/
inductive Gated (env : Surroundings σ) (ctx : Context) (c : Config) (fleet : Fleet)
    (cancel : Option Instant) (reply : Option (Instant × Except PoolError PoolHealth)) (s₀ : σ) :
    List Happening → Scene σ → Prop
  /-- It has not begun. -/
  | idle {s : σ} : Gated env ctx c fleet cancel reply s₀ [] ⟨s, fleet, .idle⟩
  /-- The clock could not show the end of the wait for the pool. -/
  | overflows {s : σ} {m : Moment} : Begins env ctx fleet s₀ m →
    ctx.within? m.now c.preconditionTimeout = none →
    Gated env ctx c fleet cancel reply s₀ [] ⟨s, fleet, .rollout (.crashed Run.clockOverflow)⟩
  /-- The context had stopped when it began. -/
  | halts {s : σ} {m : Moment} {inner : Context} {reason : StopReason} :
    Begins env ctx fleet s₀ m → ctx.within? m.now c.preconditionTimeout = some inner →
    inner.stopped m = some reason →
    Gated env ctx c fleet cancel reply s₀ []
      (.ofRun s (Run.refuse fleet (.context c.pattern reason)))
  /-- It asked for the pool and waits. -/
  | waits {s : σ} {m : Moment} {inner : Context} : Begins env ctx fleet s₀ m →
    ctx.within? m.now c.preconditionTimeout = some inner →
    Gated env ctx c fleet cancel reply s₀ [.asked m] ⟨s, fleet, .rollout (.gate inner)⟩
  /-- It is refused. -/
  | denied {s : σ} {m : Moment} {inner : Context} {g : GateError} : Begins env ctx fleet s₀ m →
    ctx.within? m.now c.preconditionTimeout = some inner → c.Denies inner cancel reply g →
    ¬ c.Admits inner cancel reply →
    Gated env ctx c fleet cancel reply s₀ [.asked m] (.ofRun s (Run.refuse fleet g))
  /-- It went on. -/
  | admitted {s : σ} {m : Moment} {inner : Context} {hs : List Happening} {y : Scene σ} :
    Begins env ctx fleet s₀ m → ctx.within? m.now c.preconditionTimeout = some inner →
    c.Admits inner cancel reply →
    Course env ctx ⟨s, fleet, .rollout (.canaryDue 0)⟩ hs y →
    Gated env ctx c fleet cancel reply s₀ (.asked m :: hs) y

/-- A rollout that was refused does nothing more by itself. -/
theorem Scene.Acts.refused_elim {g : GateError}
    (h : Scene.Acts env ctx (.ofRun s (Run.refuse fleet g)) new y) : False := by
  generalize hx : Scene.ofRun s (Run.refuse fleet g) = x at h
  cases h with
  | again _ hmay _ =>
    cases hx
    exact EndState.noConfusion (Fleet.endState_of_mayRetry hmay)
  | _ => cases hx

theorem Gated.start (hconfig : fleet.config = c) {s₀ : σ} (hb : Begins env ctx fleet s₀ m)
    (s : σ) :
    Gated env ctx c fleet cancel reply s₀ ((Run.start fleet ctx m).2.happenings m)
      (.ofRun s (Run.start fleet ctx m)) := by
  subst hconfig
  have hs := Run.starts fleet ctx m
  generalize Run.start fleet ctx m = x at hs ⊢
  cases hs with
  | overflows hw => exact .overflows hb hw
  | halts hw hstop => exact .halts hb hw hstop
  | asks hw _ => exact .waits hb hw

/-- How far a course is with the check. -/
theorem Course.gated (hc : Fleet.ofConfig c timeouts = .ok fleet)
    (hends : ∀ {s s' : σ} {inner : Context} {e : Event (Run.gateCall fleet)},
      env.ends s inner (Run.gateCall fleet) e s' → inner.Scopes cancel (env.moment s') e reply)
    (h : Course env ctx ⟨s, fleet, .idle⟩ hs x) : Gated env ctx c fleet cancel reply s hs x := by
  obtain ⟨hconfig, -, -⟩ := Fleet.config_of_ofConfig hc
  induction h with
  | here => exact .idle
  | later _ hp ih =>
    cases ih with
    | idle => exact .idle
    | overflows hb hw => exact .overflows hb hw
    | halts hb hw hs => exact .halts hb hw hs
    | waits hb hw => exact .waits hb hw
    | denied hb hw hd hn => exact .denied hb hw hd hn
    | admitted hb hw ha hrest => exact .admitted hb hw ha (hrest.later hp)
  | act h ha ih =>
    cases ih with
    | idle =>
      rw [List.nil_append]
      cases ha with
      | start => exact .start hconfig ⟨_, h, rfl⟩ _
      | again hover _ _ => cases hover
    | overflows _ _ => cases ha with | again hover _ _ => cases hover
    | halts _ _ _ => exact ha.refused_elim.elim
    | waits _ _ => cases ha with | again hover _ _ => cases hover
    | denied _ _ _ _ => exact ha.refused_elim.elim
    | admitted hb hw hadmits hrest => exact .admitted hb hw hadmits (hrest.act ha)
  | hear _ hh ih =>
    cases ih with
    | idle => cases hh
    | overflows _ _ => cases hh
    | halts _ _ _ => cases hh
    | denied _ _ _ _ => cases hh
    | admitted hb hw hadmits hrest => exact .admitted hb hw hadmits (hrest.hear hh)
    | waits hb hw =>
      cases hh with
      | gate he =>
        rcases Run.gateAnswered_cases hc (hends he) with ⟨hgo, hadmits⟩ | ⟨g, hg, hdenies, hn⟩
        · rw [hgo]
          exact .admitted hb hw hadmits .here
        · rw [hg]
          exact .denied hb hw hdenies hn

end Gate

/-! ## Past the answer -/

/-- Upgrades after no canaries, none of which is entered. -/
structure Bulk.Unentered (fleet : Fleet) (b : Bulk) : Prop where
  orderly : b.Orderly fleet
  canaries : fleet.canaries = 0
  failureCount : fleet.failureCount = 0
  queued : ∀ a ∈ b.admitted, ∃ index inner, a = .queued index inner
  kept : b.admitted.length = fleet.admitted
  draining : b.lead = .draining → b.queue = []

namespace Bulk.Unentered

variable {fleet fleet' : Fleet} {b b' : Bulk} {ctx : Context} {now : Instant}

theorem start (h : fleet.Trying 0 []) (hc : fleet.canaries = 0) :
    (Bulk.start fleet).Unentered fleet where
  orderly := Fleet.Trying.bulk (hc.symm ▸ h)
  canaries := hc
  failureCount := h.failureCount
  queued a ha := absurd ha List.not_mem_nil
  kept := h.admitted.symm
  draining hd := by cases hd

theorem lead (h : b.Unentered fleet) (hl : b.Leads fleet fleet' b') : b'.Unentered fleet' := by
  have ho := h.orderly.lead hl
  cases hl with
  | exhausts _ hq => exact ⟨ho, h.canaries, h.failureCount, h.queued, h.kept, fun _ => hq⟩
  | takes _ _ => exact ⟨ho, h.canaries, h.failureCount, h.queued, h.kept, nofun⟩
  | clears _ _ => exact ⟨ho, h.canaries, h.failureCount, h.queued, h.kept, nofun⟩
  | stops _ hlt =>
    rw [h.failureCount] at hlt
    exact absurd hlt (Nat.not_lt_zero _)
  | gathers _ hc => exact absurd h.orderly.crashes (Nat.ne_of_gt hc)
  | admits inner _ _ =>
    refine ⟨ho, h.canaries, h.failureCount, fun a ha => ?_, ?_, nofun⟩
    · rcases List.mem_append.mp ha with ha | ha
      · exact h.queued a ha
      · exact ⟨_, inner, List.mem_singleton.mp ha⟩
    · rw [List.length_append, h.kept]
      rfl

/-- The lead does not wait for the end before all are admitted, and those are not entered. -/
theorem not_ended (h : b.Unentered fleet) (hsize : 0 < fleet.size)
    {result : Except RunError Unit} : b.leadStep fleet ctx now ≠ .ended fleet' result := by
  intro hl
  obtain ⟨hd, -, ha, -⟩ := conclude_of_ended hl
  have hq := h.orderly.queue.symm.trans (h.draining hd)
  have hkept := h.kept
  rw [ha, List.length_nil] at hkept
  rw [h.canaries, ← hkept, List.drop_zero] at hq
  have hlen := congrArg List.length hq
  rw [List.length_range, List.length_nil] at hlen
  omega

theorem not_landed (h : b.Unentered fleet) {at_ : Nat} {a : Admitted}
    (ha : b.admitted[at_]? = some a) : a.hasLanded = false := by
  obtain ⟨index, inner, rfl⟩ := h.queued a (List.mem_of_getElem? ha)
  rfl

theorem not_flying (h : b.Unentered fleet) (f : Flight) : .flying f ∉ b.admitted := fun hf => by
  obtain ⟨index, inner, he⟩ := h.queued _ hf
  cases he

end Bulk.Unentered

/-- The phases of a rollout past the check of its pool that has entered no upgrade. -/
def Phase.Unentered (fleet : Fleet) : Phase → Prop
  | rollout (.canaryDue index) => index = 0 ∧ fleet.Trying 0 []
  | rollout (.bulk b) => b.Unentered fleet
  | rollout (.crashed _) => True
  | _ => False

section Past

variable {σ : Type} {env : Surroundings σ} {ctx : Context} {fleet : Fleet} {s : σ} {x y : Scene σ}
  {hs new : List Happening}

/-- A step of such a rollout enters an upgrade, or leaves it such a rollout. -/
theorem Scene.Acts.unentered (h : x.Acts env ctx new y) (hsize : 0 < x.fleet.size)
    (hu : x.phase.Unentered x.fleet) : entries new ≠ [] ∨ y.phase.Unentered y.fleet := by
  cases h with
  | start => exact hu.elim
  | @canaryDue s fleet index source _ =>
    obtain ⟨rfl, ht⟩ := hu
    rw [Scene.ofRun_fleet, Scene.ofRun_phase]
    have hn := Run.nexts fleet ctx source (env.moment s) 0
    generalize Run.canaryHappenings fleet ctx source (env.moment s) 0 = seen,
      Run.nextCanary fleet ctx source (env.moment s) 0 = z at hn ⊢
    cases hn with
    | overflows _ _ => exact .inr trivial
    | begins _ _ =>
      left
      rw [(Flight.tells_start _ _ _ _ _).entered]
      exact List.cons_ne_nil _ _
    | skips hle _ => exact .inr (Bulk.Unentered.start ht (Nat.le_zero.mp hle))
    | rests hle hpos _ => exact absurd hpos (Nat.not_lt.mpr hle)
  | lead hl => exact .inr (Bulk.Unentered.lead hu (Bulk.leads_of_moved hl))
  | conclude hl => exact absurd hl (Bulk.Unentered.not_ended hu hsize)
  | overflow _ => exact .inr trivial
  | takeOff _ _ =>
    left
    rw [(Flight.tells_start _ _ _ _ _).entered]
    exact List.cons_ne_nil _ _
  | account ha hl =>
    rw [Bulk.Unentered.not_landed hu ha] at hl
    cases hl
  | @again _ _ phase _ _ hover _ _ =>
    cases phase with
    | idle => cases hover
    | retry r => exact hu.elim
    | rollout run => cases run <;> first | exact hu.elim | cases hover
  | takeOffAgain _ _ => exact hu.elim
  | accountAgain _ _ => exact hu.elim

theorem Scene.Hears.entered_before (h : x.Hears env ctx new y) : ¬ x.phase.Unentered x.fleet := by
  intro hu
  cases h with
  | bulk ha _ => exact Bulk.Unentered.not_flying hu _ (List.mem_of_getElem? ha)
  | _ => exact hu.elim

theorem Course.unentered (h : Course env ctx x hs y) (hsize : 0 < x.fleet.size)
    (hu : x.phase.Unentered x.fleet) : entries hs ≠ [] ∨ y.phase.Unentered y.fleet := by
  have before {hs new : List Happening} (h : entries hs ≠ []) : entries (hs ++ new) ≠ [] := by
    rw [entries_append]
    exact List.append_ne_nil_of_left_ne_nil h _
  induction h with
  | here => exact .inr hu
  | later _ _ ih => exact ih
  | act h ha ih =>
    rcases ih with ih | ih
    · exact .inl (before ih)
    · refine (ha.unentered (by rw [h.keeps.size]; exact hsize) ih).imp_left fun hn => ?_
      rw [entries_append]
      exact List.append_ne_nil_of_right_ne_nil _ hn
  | hear h hh ih =>
    rcases ih with ih | ih
    · exact .inl (before ih)
    · exact absurd ih hh.entered_before

/-- Upgrades of which none is entered go on until one is, unless the clock cannot show the end of
its time. -/
theorem Bulk.Unentered.enters {b : Bulk} (hu : b.Unentered fleet)
    (hc : 0 < fleet.config.concurrency.toNat) (hsize : 0 < fleet.size)
    (hopens : ∀ t, ∃ source, env.opens t source)
    (hclock : ctx.within? (env.moment s).now fleet.config.actionTimeout ≠ none) :
    ∃ hs y, Course env ctx ⟨s, fleet, .rollout (.bulk b)⟩ hs y ∧ entries hs ≠ [] := by
  -- The induction is on the work that is left, which each step of the lead makes less.
  induction hw : b.work using Nat.strong_induction_on generalizing fleet b with
  | _ n ih =>
    have hgoes : (∃ new y, Scene.Acts env ctx ⟨s, fleet, .rollout (.bulk b)⟩ new y) ∨
        ∃ f, .flying f ∈ b.admitted := Bulk.goes_on hu.orderly hc hopens
    rcases hgoes with ⟨new, y, ha⟩ | ⟨f, hf⟩
    · rcases ha.unentered hsize hu with hn | hy
      · exact ⟨_, y, .act .here ha, hn⟩
      · have hk : fleet.Keeps y.fleet := ha.keeps
        rcases ha.work rfl hu.orderly with ⟨b', hb', hlt⟩ | ⟨result, hr⟩ | ⟨-, hnone⟩
        · obtain ⟨s', fleet', phase⟩ := y
          obtain rfl : phase = .rollout (.bulk b') := hb'
          obtain rfl : s' = s := ha.around
          have hy : b'.Unentered fleet' := hy
          obtain ⟨hs, z, hz, hn⟩ := ih b'.work (hw ▸ hlt) hy
            (by rw [hk.config]; exact hc) (by rw [hk.size]; exact hsize)
            (by rw [hk.config]; exact hclock) rfl
          refine ⟨_, z, (Course.act .here ha).trans hz, ?_⟩
          rw [entries_append]
          exact List.append_ne_nil_of_right_ne_nil _ hn
        · rw [hr] at hy
          exact hy.elim
        · exact absurd hnone hclock
    · exact absurd hf (hu.not_flying f)

/-- A rollout of which no upgrade is entered comes to enter one by itself, unless it crashed or the
clock cannot show the end of the upgrade's time. -/
theorem Phase.Unentered.enters {phase : Phase} (hu : phase.Unentered fleet)
    (hcrash : phase.hasCrashed = false) (hc : 0 < fleet.config.concurrency.toNat)
    (hsize : 0 < fleet.size) (hopens : ∀ t, ∃ source, env.opens t source)
    (hclock : ctx.within? (env.moment s).now fleet.config.actionTimeout ≠ none) :
    ∃ hs y, Course env ctx ⟨s, fleet, phase⟩ hs y ∧ entries hs ≠ [] := by
  cases phase with
  | idle => exact hu.elim
  | retry r => exact hu.elim
  | rollout run =>
    cases run with
    | bulk b => exact Bulk.Unentered.enters hu hc hsize hopens hclock
    | crashed text => cases hcrash
    | canaryDue index =>
      obtain ⟨source, hsource⟩ := hopens s
      obtain ⟨rfl, ht⟩ := hu
      have hstep : Scene.Acts env ctx ⟨s, fleet, .rollout (.canaryDue 0)⟩ _ _ :=
        .canaryDue hsource
      have hn := Run.nexts fleet ctx source (env.moment s) 0
      generalize Run.canaryHappenings fleet ctx source (env.moment s) 0 = seen,
        Run.nextCanary fleet ctx source (env.moment s) 0 = z at hn hstep
      cases hn with
      | overflows _ hw => exact absurd hw hclock
      | begins _ _ =>
        refine ⟨_, _, .act .here hstep, ?_⟩
        rw [List.nil_append, (Flight.tells_start _ _ _ _ _).entered]
        exact List.cons_ne_nil _ _
      | skips hle _ =>
        obtain ⟨more, y, hy, hne⟩ :=
          Bulk.Unentered.enters (.start ht (Nat.le_zero.mp hle)) hc hsize hopens hclock
        refine ⟨_, y, (Course.act .here hstep).trans hy, ?_⟩
        rw [entries_append]
        exact List.append_ne_nil_of_right_ne_nil _ hne
      | rests hle hpos _ => exact absurd hpos (Nat.not_lt.mpr hle)
    | _ => exact hu.elim

end Past

/-! ## The law -/

section Law

variable {σ : Type} {env : Surroundings σ} {ctx : Context} {c : Config} {timeouts : StageTimeouts}
  {fleet : Fleet} {cancel : Option Instant}
  {reply : Option (Instant × Except PoolError PoolHealth)} {s : σ} {x : Scene σ}
  {hs : List Happening}

/-- A rollout of `fleet` that was refused: it says why, no failure is counted, and no upgrade was
touched. -/
structure Scene.IsRefused (fleet : Fleet) (g : GateError) (x : Scene σ) : Prop where
  phase : x.phase = .rollout (.ended (.error (.gate g)))
  endState : x.fleet.endState = .preconditionFailure
  failureCount : x.fleet.failureCount = 0
  upgrades : x.fleet.upgrades = fleet.upgrades
  fresh : ∀ u ∈ x.fleet.upgrades, u.IsFresh

theorem Fleet.IsNew.isRefused (h : fleet.IsNew) (g : GateError) :
    (Scene.ofRun s (Run.refuse fleet g)).IsRefused fleet g :=
  ⟨rfl, rfl, h.failureCount, rfl, h.fresh⟩

/-- A rollout that goes on to its upgrades: it does not end before one of them is entered, and by
itself it comes to enter one, unless it crashes or the clock cannot show the end of the upgrade's
time. -/
structure Scene.GoesOn (env : Surroundings σ) (ctx : Context) (hs : List Happening)
    (x : Scene σ) : Prop where
  ended : ∀ result, x.phase = .rollout (.ended result) → entries hs ≠ []
  enters : x.phase.hasCrashed = false → (∀ t, ∃ source, env.opens t source) →
    ctx.within? (env.moment x.around).now x.fleet.config.actionTimeout ≠ none →
      ∃ more y, Course env ctx x more y ∧ entries (hs ++ more) ≠ []

theorem Course.goes_on (hc : Fleet.ofConfig c timeouts = .ok fleet)
    (h : Course env ctx ⟨s, fleet, .rollout (.canaryDue 0)⟩ hs x) : x.GoesOn env ctx hs := by
  obtain ⟨-, -, hnew⟩ := Fleet.config_of_ofConfig hc
  have hk : fleet.Keeps x.fleet := h.keeps
  have hsize : 0 < x.fleet.size := by rw [hk.size]; exact Fleet.size_pos hc
  have hconc : 0 < x.fleet.config.concurrency.toNat := by rw [hk.config]; exact hnew.concurrency
  rcases h.unentered (Fleet.size_pos hc) ⟨rfl, hnew.trying⟩ with hn | hu
  · exact ⟨fun _ _ => hn, fun _ _ _ => ⟨[], x, .here, by rw [List.append_nil]; exact hn⟩⟩
  · refine ⟨fun result hr => by rw [hr] at hu; exact hu.elim, fun hcrash hopens hclock => ?_⟩
    obtain ⟨more, y, hy, hn⟩ := hu.enters hcrash hconc hsize hopens hclock
    refine ⟨more, y, hy, ?_⟩
    rw [entries_append]
    exact List.append_ne_nil_of_right_ne_nil _ hn

/-- **The check before a rollout.** The load balancer may be asked at any time, and reply in any way
at any time, or never; and the rollout may be cancelled at any time. A rollout that ended has
entered an upgrade if and only if it asked for the pool, a report came before it gave up or at that
moment, and this report lists the configured backends at full health.

Wherever a rollout comes to, one of these holds:

1. It has not begun.
2. The clock could not show the end of the wait for the pool.
3. Its context had stopped when it began: it is refused, and did not even ask for the pool.
4. It asked for the pool, and did nothing else, and waits.
5. It asked for the pool, and did nothing else, and was refused, for the reply or for want of one;
   the report lets no rollout go on.
6. It asked for the pool and the report lets it go on: it goes on to its upgrades. -/
theorem precondition_exact (hc : Fleet.ofConfig c timeouts = .ok fleet)
    (hends : ∀ {s s' : σ} {inner : Context} {e : Event (Run.gateCall fleet)},
      env.ends s inner (Run.gateCall fleet) e s' → inner.Scopes cancel (env.moment s') e reply)
    (h : Course env ctx ⟨s, fleet, .idle⟩ hs x) :
    (∀ result, x.phase = .rollout (.ended result) →
      (entries hs ≠ [] ↔ ∃ m inner, .asked m ∈ hs ∧
        ctx.within? m.now c.preconditionTimeout = some inner ∧ c.Admits inner cancel reply)) ∧
    ((hs = [] ∧ x.phase = .idle ∧ x.fleet = fleet) ∨
      ∃ m, Begins env ctx fleet s m ∧
        ((hs = [] ∧ ctx.within? m.now c.preconditionTimeout = none ∧
            x.phase = .rollout (.crashed Run.clockOverflow)) ∨
          ∃ inner, ctx.within? m.now c.preconditionTimeout = some inner ∧
            ((hs = [] ∧ ∃ reason, inner.stopped m = some reason ∧
                x.IsRefused fleet (.context c.pattern reason)) ∨
              (hs = [.asked m] ∧ x.phase = .rollout (.gate inner) ∧ x.fleet = fleet) ∨
              (hs = [.asked m] ∧ ¬ c.Admits inner cancel reply ∧
                ∃ g, c.Denies inner cancel reply g ∧ x.IsRefused fleet g) ∨
              ∃ rest, hs = .asked m :: rest ∧ c.Admits inner cancel reply ∧
                x.GoesOn env ctx rest))) := by
  obtain ⟨-, -, hnew⟩ := Fleet.config_of_ofConfig hc
  cases h.gated hc hends with
  | idle => exact ⟨nofun, .inl ⟨rfl, rfl, rfl⟩⟩
  | overflows hb hw => exact ⟨nofun, .inr ⟨_, hb, .inl ⟨rfl, hw, rfl⟩⟩⟩
  | halts hb hw hs =>
    refine ⟨fun _ _ => ⟨fun hn => absurd rfl hn, ?_⟩, ?_⟩
    · rintro ⟨m', inner', hm, -⟩
      cases hm
    · exact .inr ⟨_, hb, .inr ⟨_, hw, .inl ⟨rfl, _, hs, hnew.isRefused _⟩⟩⟩
  | waits hb hw => exact ⟨nofun, .inr ⟨_, hb, .inr ⟨_, hw, .inr (.inl ⟨rfl, rfl, rfl⟩)⟩⟩⟩
  | denied hb hw hd hn =>
    refine ⟨fun _ _ => ⟨fun hn => absurd rfl hn, ?_⟩, ?_⟩
    · rintro ⟨m', inner', hm, hw', ha⟩
      cases List.mem_singleton.mp hm
      rw [hw] at hw'
      cases hw'
      exact absurd ha hn
    · exact .inr ⟨_, hb, .inr ⟨_, hw, .inr (.inr (.inl ⟨rfl, hn, _, hd, hnew.isRefused _⟩))⟩⟩
  | admitted hb hw ha hrest =>
    have hon := hrest.goes_on hc
    refine ⟨fun result hr => ⟨fun _ => ⟨_, _, List.mem_cons_self, hw, ha⟩, fun _ => ?_⟩, ?_⟩
    · exact hon.ended result hr
    · exact .inr ⟨_, hb, .inr ⟨_, hw, .inr (.inr (.inr ⟨_, rfl, ha, hon⟩))⟩⟩

end Law

/-! ## A pool with other spellings -/

/-- A rollout asks for the pool. -/
theorem Course.asks {σ : Type} {env : Surroundings σ} {ctx inner : Context} {fleet : Fleet} {s : σ}
    {m : Moment} (hm : env.moment s = m)
    (hstart : Run.start fleet ctx m = (fleet, .gate inner)) :
    Course env ctx ⟨s, fleet, .idle⟩ [.asked m] ⟨s, fleet, .rollout (.gate inner)⟩ := by
  have hstep : Scene.Acts env ctx ⟨s, fleet, .idle⟩ _ _ := .start
  rw [hm, hstart] at hstep
  exact .act .here hstep

/-- Two backends, the first in brackets, with half a minute for the report of the pool. -/
def spelledConfig : Config :=
  { pairConfig with backends := ["[10.0.0.1]:80", "10.0.0.2:80"], actionTimeoutSecs := 600 }

/-- The fleet of the two. -/
def spelledFleet : Fleet :=
  ⟨spelledConfig, .standard, pairBackends,
    [.fresh "[10.0.0.1]:80" ⟨.v4 ⟨10, 0, 0, 1⟩, 80⟩, .fresh "10.0.0.2:80" ⟨.v4 ⟨10, 0, 0, 2⟩, 80⟩],
    0, .unknown, 0⟩

theorem ofConfig_spelled : Fleet.ofConfig spelledConfig .standard = .ok spelledFleet := rfl

/-- The pool of the two at a point of time, in another order and with repetitions. -/
def spelledReply (t : Instant) : Option (Instant × Except PoolError PoolHealth) :=
  some (t, .ok ⟨.full, pairBackends.reverse ++ pairBackends⟩)

/-- No wait but the one for the pool has a reply. -/
def spelledReplies (t : Instant) : (w : Wait) → Option (Instant × w.Result)
  | .call (.poolHealth _) => spelledReply t
  | _ => none

/-- The rollout of the two at the start of the clock. -/
def spelledStart : Scene Moment := ⟨⟨0, []⟩, spelledFleet, .idle⟩

/-- A report within half a minute lets the rollout go on to its upgrades. -/
theorem course_spelled (t : Instant) (ht : t ≤ 30000000000) :
    Course (.replying none (spelledReplies t)) .background spelledStart [.asked ⟨0, []⟩]
      ⟨⟨t, []⟩, spelledFleet, .rollout (.canaryDue 0)⟩ := by
  have start : Course (.replying none (spelledReplies t)) .background spelledStart [.asked ⟨0, []⟩]
      ⟨⟨0, []⟩, spelledFleet, .rollout (.gate ⟨some 30000000000, none⟩)⟩ := .asks rfl rfl
  have reply : (Surroundings.replying none (spelledReplies t)).ends ⟨0, []⟩
      ⟨some 30000000000, none⟩ (Run.gateCall spelledFleet)
      (.result (Except.ok ⟨.full, pairBackends.reverse ++ pairBackends⟩ :
        Except PoolError PoolHealth)) ⟨t, []⟩ := by
    refine ⟨⟨Nat.zero_le _, fun _ h => h⟩, rfl, fun stop hstop => ?_⟩
    cases hstop
    exact ht
  exact (start.hear (.gate reply) :)

/-- The report of the two after a second lets the rollout go on, which enters an upgrade. -/
theorem precondition_exact_spelled :
    spelledConfig.Admits ⟨some 30000000000, none⟩ none (spelledReply 1000000000) ∧
    ∃ rest x, Course (.replying none (spelledReplies 1000000000)) .background spelledStart
      (.asked ⟨0, []⟩ :: rest) x ∧ entries rest ≠ [] := by
  have course := course_spelled 1000000000 (by decide)
  have hends {s s' : Moment} {inner : Context} {e : Event (Run.gateCall spelledFleet)}
      (h : (Surroundings.replying none (spelledReplies 1000000000)).ends s inner
        (Run.gateCall spelledFleet) e s') :
      inner.Scopes none s' e (spelledReply 1000000000) := h.2
  have law := (precondition_exact ofConfig_spelled hends course).2
  -- Only the last case is about a rollout that asked and does not wait or stand still.
  rcases law with ⟨hnil, -⟩ | ⟨m, -, ⟨hnil, -⟩ | ⟨inner, hw, ⟨hnil, -⟩ | ⟨-, hp, -⟩ |
    ⟨-, -, g, -, hr⟩ | ⟨rest, hrest, hadmits, hon⟩⟩⟩
  · cases hnil
  · cases hnil
  · cases hnil
  · cases hp
  · cases hr.phase
  · obtain ⟨hm, rfl⟩ := List.cons.inj hrest
    cases hm
    cases hw
    obtain ⟨more, y, hy, hn⟩ := hon.enters rfl (fun _ => ⟨.error (.code 2), trivial⟩) (by decide)
    exact ⟨hadmits, more, y, course.trans hy, hn⟩

/-- The same fleet with no time at all for the report. -/
def hastyFleet : Fleet :=
  { spelledFleet with config := { spelledConfig with preconditionTimeoutSecs := 0 } }

/-- A report that comes at the deadline, and so not before it, lets the rollout go on. And without
any time for the report the rollout is refused before it asks for the pool. -/
theorem precondition_at_deadline :
    (Context.background.within? 0 spelledConfig.preconditionTimeout =
        some ⟨some 30000000000, none⟩ ∧
      (∀ t r, spelledReply 30000000000 = some (t, r) → ¬ t < 30000000000) ∧
      ∃ rest x, Course (.replying none (spelledReplies 30000000000)) .background spelledStart
        (.asked ⟨0, []⟩ :: rest) x ∧ entries rest ≠ []) ∧
    (Fleet.ofConfig hastyFleet.config .standard = .ok hastyFleet ∧
      ∃ x, Course (.replying none (spelledReplies 0)) .background ⟨⟨0, []⟩, hastyFleet, .idle⟩
          [] x ∧
        x.phase = .rollout (.ended (.error (.gate (.context "/" .deadlineExceeded))))) := by
  refine ⟨⟨rfl, fun t r h => ?_, ?_⟩, rfl, ?_⟩
  · cases h
    exact Nat.lt_irrefl _
  · have course := course_spelled 30000000000 (Nat.le_refl _)
    have admitted : Course (.replying none (spelledReplies 30000000000)) .background
      ⟨⟨30000000000, []⟩, spelledFleet, .rollout (.canaryDue 0)⟩ [] _ := .here
    obtain ⟨more, y, hy, hn⟩ := (admitted.goes_on ofConfig_spelled).enters rfl
      (fun _ => ⟨.error (.code 2), trivial⟩) (by decide)
    exact ⟨more, y, course.trans hy, hn⟩
  · have refused : Run.start hastyFleet .background ⟨0, []⟩ =
        Run.refuse hastyFleet (.context "/" .deadlineExceeded) := rfl
    have step : Scene.Acts (.replying none (spelledReplies 0)) .background
        ⟨⟨0, []⟩, hastyFleet, .idle⟩
        ((Run.start hastyFleet .background ⟨0, []⟩).2.happenings ⟨0, []⟩)
        (.ofRun ⟨0, []⟩ (Run.start hastyFleet .background ⟨0, []⟩)) := .start
    rw [refused] at step
    exact ⟨_, .act .here step, rfl⟩

end Rollout
