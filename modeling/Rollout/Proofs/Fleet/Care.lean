import Rollout.Fleet.Pass
import Rollout.Proofs.Fleet.Admission

/-!
# What passes over failed upgrades do

A pass runs the upgrades again that failed, and the count of failures stays right.

- **The list of failures** (`Fleet.index_failures`): the upgrades with an error, in their order.
- **A pass** (`Retry.Reruns`): the ledger of a pass is about the upgrades that had an error when it
  began. `Leg.reruns` is the induction.
- **Passes and cleanups** (`Tending.course`): whatever is asked for after a rollout goes on with a
  course, if time may pass in any way between two steps (`Surroundings.restless`).
- **The law** (`retry_accounting`).
-/

namespace Rollout

/-! ## The list of failures -/

namespace Fleet

theorem index_failuresFrom (k : Nat) (us : List Upgrade) :
    (failuresFrom k us).map (·.index) =
      (List.range' k us.length).filter fun i => us[i - k]?.any (·.err.isSome) := by
  induction us generalizing k with
  | nil => rfl
  | cons u rest ih =>
    have later : (List.range' (k + 1) rest.length).filter
        (fun i => (u :: rest)[i - k]?.any (·.err.isSome)) =
        (List.range' (k + 1) rest.length).filter
          fun i => rest[i - (k + 1)]?.any (·.err.isSome) := by
      refine List.filter_congr fun i hi => ?_
      have hle := (List.mem_range'_1.mp hi).1
      rw [show i - k = i - (k + 1) + 1 by omega, List.getElem?_cons_succ]
    rw [failuresFrom, List.length_cons, List.range'_succ, List.filter_cons, later, ← ih]
    cases he : u.err with
    | none => simp [he]
    | some e => simp [he]

/-- The failures are the upgrades with an error, each once and in their order. -/
theorem index_failures (fleet : Fleet) : fleet.failures.map (·.index) =
    (List.range fleet.size).filter fun i => (fleet.upgrade? i).any (·.err.isSome) := by
  rw [List.range_eq_range']
  exact index_failuresFrom 0 fleet.upgrades

end Fleet

/-! ## A pass -/

namespace Attempt

/-- The upgrade that waits for its run. -/
def queued? : Attempt → Option Nat
  | queued index _ => some index
  | _ => none

/-- The upgrade whose run is under way. -/
def flying? : Attempt → Option Nat
  | flying f => some f.index
  | _ => none

end Attempt

namespace Retry

/-- The upgrades of a pass that wait for their runs. -/
def queuedAt (r : Retry) : List Nat := r.attempts.filterMap Attempt.queued?

/-- The upgrades of a pass whose runs are under way. -/
def flyingAt (r : Retry) : List Nat := r.attempts.filterMap Attempt.flying?

variable {fleet₀ fleet fleet' : Fleet} {hs new : List Happening} {r r' : Retry}

/-- What is true in a pass that began with `fleet₀`, with what has happened since. -/
structure Reruns (fleet₀ fleet : Fleet) (hs : List Happening) (r : Retry) : Prop where
  orderly : r.Orderly fleet
  counted : fleet.failures.length + r.cleared = fleet.failureCount
  ledger : Ledger fleet₀ fleet hs (fleet₀.failures.map (·.index)) r.queuedAt r.flyingAt

theorem queuedAt_start {ctx : Context} {now : Instant} (h : start? fleet ctx now = some r) :
    r.queuedAt = fleet.failures.map (·.index) ∧ r.flyingAt = [] := by
  unfold start? at h
  split at h
  · rename_i he
    rw [List.isEmpty_iff.mp he]
    cases h
    exact ⟨rfl, rfl⟩
  · obtain ⟨inner, -, rfl⟩ := Option.map_eq_some_iff.mp h
    constructor
    · rw [queuedAt, List.filterMap_map]
      exact congrFun List.filterMap_eq_map' fleet.failures
    · rw [flyingAt, List.filterMap_map]
      exact List.filterMap_eq_nil_iff.mpr fun f _ => rfl

namespace Reruns

theorem start {ctx : Context} {now : Instant} (hr : start? fleet ctx now = some r)
    (hall : ∀ {i : Nat} {u : Upgrade}, fleet.upgrade? i = some u → u.AtRest)
    (hcount : fleet.failures.length = fleet.failureCount) : r.Reruns fleet fleet [] where
  orderly := Orderly.start hall hr
  counted := by rw [cleared_start hr]; exact hcount
  ledger := by
    obtain ⟨hqueued, hflying⟩ := queuedAt_start hr
    rw [hqueued, hflying]
    exact ⟨Fleet.nodup_failuresFrom 0 fleet.upgrades, .refl _, .refl _,
      fun h => absurd h List.not_mem_nil, fun _ => ⟨rfl, fun _ h => absurd h List.not_mem_nil⟩⟩

/-- The run of an attempt is entered or under way, and goes on or returns. -/
theorem flies {a : Attempt} {landing : Landing} (h : r.Reruns fleet₀ fleet hs)
    (hf : r.Flies fleet a landing fleet' r')
    (ht : Tells new a.index a.queued?.toList landing) : r'.Reruns fleet₀ fleet' (hs ++ new) where
  orderly := h.orderly.flies hf
  counted := counted_flies h.counted hf
  ledger := by
    cases hf with
    | @of at_ u v ha hl hu _ _ hs' =>
      have hbefore : a.queued?.toList ++ a.flying?.toList = [a.index] := by
        cases a with
        | queued index inner => rfl
        | flying f => rfl
        | landed index failed => cases hl
      have hafter : (landing.attempt a.index).flying?.toList = landing.flyingAt := by
        cases landing <;> rfl
      refine h.ledger.place ha ht hbefore (by cases landing <;> rfl) ?_ hu hs'
      rw [hafter]
      exact hs'.returns_flyingAt

theorem accounts (h : r.Reruns fleet₀ fleet hs) (ha : r.Accounts fleet fleet' r') :
    r'.Reruns fleet₀ fleet' (hs ++ []) where
  orderly := h.orderly.accounts ha
  counted := counted_accounts h.counted ha
  ledger := by
    rw [List.append_nil]
    cases ha with
    | @ends at_ index failed ha =>
      have hqueued : (Retry.mk (r.attempts.eraseIdx at_)).queuedAt = r.queuedAt :=
        filterMap_eraseIdx_eq ha rfl
      have hflying : (Retry.mk (r.attempts.eraseIdx at_)).flyingAt = r.flyingAt :=
        filterMap_eraseIdx_eq ha rfl
      rw [hqueued, hflying]
      exact h.ledger.keep fun _ => rfl

/-- The count goes down for an attempt that succeeded, which is still counted then. -/
theorem guarded (h : r.Reruns fleet₀ fleet hs) {index : Nat}
    (ha : .landed index false ∈ r.attempts) : 0 < fleet.failureCount := by
  have hcleared : 0 < r.cleared := List.countP_pos_iff.mpr ⟨_, ha, rfl⟩
  have hcounted := h.counted
  omega

/-- A pass that is over entered the upgrades that had an error when it began, each once; all their
runs returned; and the count is that of the failures left. -/
theorem finished (h : r.Reruns fleet₀ fleet hs) (ho : r.isOver = true) :
    (entries hs).Perm (fleet₀.failures.map (·.index)) ∧
      ((returns hs).map Prod.fst).Perm (entries hs) ∧
      fleet.failures.length = fleet.failureCount := by
  have hnil : r.attempts = [] := List.isEmpty_iff.mp ho
  have hentered := h.ledger.entered
  have hreturned := h.ledger.returned
  have hcounted := h.counted
  rw [queuedAt, hnil, List.filterMap_nil, List.append_nil] at hentered
  rw [flyingAt, hnil, List.filterMap_nil, List.append_nil] at hreturned
  rw [cleared, hnil, List.countP_nil, Nat.add_zero] at hcounted
  exact ⟨hentered, hreturned, hcounted⟩

end Reruns

end Retry

namespace Flight

theorem endState_start (fleet : Fleet) (index : Nat) (ctx : Context)
    (source : Except IoError Entry) (m : Moment) :
    (start fleet index ctx source m).1.endState = fleet.endState := by
  unfold start
  split
  · rfl
  · split <;> rfl

theorem endState_resume (fleet : Fleet) (f : Flight) (m : Moment) (e : Event f.wait) :
    (f.resume fleet m e).1.endState = fleet.endState := by
  unfold resume
  split <;> rfl

end Flight

section Legs

variable {σ : Type} {env : Surroundings σ} {ctx inner : Context} {fleet fleet₀ : Fleet} {s : σ}
  {r : Retry} {y z : Scene σ} {hs new : List Happening}

/-- A step of a pass that goes on. -/
theorem Scene.Acts.reruns (h : Scene.Acts env ctx ⟨s, fleet, .retry r⟩ new y)
    (ho : r.isOver = false) (hr : r.Reruns fleet₀ fleet hs) :
    ∃ r', y.phase = .retry r' ∧ r'.Reruns fleet₀ y.fleet (hs ++ new) := by
  cases h with
  | again hover _ _ =>
    rw [Phase.isOver, ho] at hover
    cases hover
  | takeOffAgain ha _ =>
    exact ⟨_, rfl, hr.flies (hr.orderly.flies_takeOff ha _ _) (Flight.tells_start _ _ _ _ _)⟩
  | accountAgain ha hl => exact ⟨_, rfl, hr.accounts (Retry.accounts ha hl)⟩

theorem Scene.Hears.reruns (h : Scene.Hears env ctx ⟨s, fleet, .retry r⟩ new y)
    (calm : env.Calm) (hr : r.Reruns fleet₀ fleet hs) :
    ∃ r', y.phase = .retry r' ∧ r'.Reruns fleet₀ y.fleet (hs ++ new) := by
  cases h with
  | retry ha he =>
    exact ⟨_, rfl, hr.flies (hr.orderly.flies_resume ha _ (calm he)) (Flight.tells_resume _ _ _ _)⟩

/-- What is true in a pass, wherever it comes to. -/
theorem Leg.reruns (h : Leg env ctx ⟨s, fleet, .retry r⟩ hs y) (calm : env.Calm)
    (hr : r.Reruns fleet fleet []) : ∃ r', y.phase = .retry r' ∧ r'.Reruns fleet y.fleet hs := by
  induction h with
  | here => exact ⟨r, rfl, hr⟩
  | later _ _ ih => exact ih
  | @act hs new y z _ hover ha ih =>
    obtain ⟨r', hp, hr'⟩ := ih
    obtain ⟨s', fleet', phase⟩ := y
    obtain rfl : phase = .retry r' := hp
    exact ha.reruns hover hr'
  | @hear hs new y z _ hh ih =>
    obtain ⟨r', hp, hr'⟩ := ih
    obtain ⟨s', fleet', phase⟩ := y
    obtain rfl : phase = .retry r' := hp
    exact hh.reruns calm hr'

/-- No step of a pass makes the count of failures greater, or changes how the rollout ended. -/
theorem Scene.Acts.failureCount_le (h : Scene.Acts env ctx ⟨s, fleet, .retry r⟩ new y)
    (ho : r.isOver = false) : (∃ r', y.phase = .retry r') ∧
      y.fleet.failureCount ≤ fleet.failureCount ∧ y.fleet.endState = fleet.endState := by
  cases h with
  | again hover _ _ =>
    rw [Phase.isOver, ho] at hover
    cases hover
  | takeOffAgain ha _ =>
    rw [Scene.ofRetry_fleet, Retry.takeOff, ha]
    exact ⟨⟨_, rfl⟩, Nat.le_of_eq (Flight.failureCount_start _ _ _ _ _),
      Flight.endState_start _ _ _ _ _⟩
  | accountAgain ha hl =>
    refine ⟨⟨_, rfl⟩, ?_⟩
    rw [Scene.ofRetry_fleet]
    unfold Retry.account
    split
    · exact ⟨Nat.sub_le _ _, rfl⟩
    · exact ⟨Nat.le_refl _, rfl⟩
    · exact ⟨Nat.le_refl _, rfl⟩

theorem Scene.Hears.failureCount_eq (h : Scene.Hears env ctx ⟨s, fleet, .retry r⟩ new y) :
    (∃ r', y.phase = .retry r') ∧ y.fleet.failureCount = fleet.failureCount ∧
      y.fleet.endState = fleet.endState := by
  cases h with
  | retry _ _ =>
    exact ⟨⟨_, rfl⟩, Flight.failureCount_resume _ _ _ _, Flight.endState_resume _ _ _ _⟩

theorem Leg.failureCount_le (h : Leg env ctx ⟨s, fleet, .retry r⟩ hs y) :
    (∃ r', y.phase = .retry r') ∧ y.fleet.failureCount ≤ fleet.failureCount := by
  induction h with
  | here => exact ⟨⟨r, rfl⟩, Nat.le_refl _⟩
  | later _ _ ih => exact ih
  | @act hs new y z _ hover ha ih =>
    obtain ⟨⟨r', hp⟩, hle⟩ := ih
    obtain ⟨s', fleet', phase⟩ := y
    obtain rfl : phase = .retry r' := hp
    obtain ⟨hr, hle', -⟩ := ha.failureCount_le hover
    exact ⟨hr, Nat.le_trans hle' hle⟩
  | @hear hs new y z _ hh ih =>
    obtain ⟨⟨r', hp⟩, hle⟩ := ih
    obtain ⟨s', fleet', phase⟩ := y
    obtain rfl : phase = .retry r' := hp
    obtain ⟨hr, heq, -⟩ := hh.failureCount_eq
    exact ⟨hr, heq ▸ hle⟩

end Legs

/-! ## Passes and cleanups -/

/-- Surroundings in which no more can happen than in others, at the same moments. -/
structure Surroundings.Within {σ : Type} (env env' : Surroundings σ) : Prop where
  moment : env.moment = env'.moment
  passes : ∀ {s s' : σ}, env.passes s s' → env'.passes s s'
  opens : ∀ {s : σ} {source : Except IoError Entry}, env.opens s source → env'.opens s source
  ends : ∀ {s s' : σ} {ctx : Context} {w : Wait} {e : Event w}, env.ends s ctx w e s' →
    env'.ends s ctx w e s'

/-- The same surroundings, which may change in any way between two steps. -/
def Surroundings.restless {σ : Type} (env : Surroundings σ) : Surroundings σ :=
  { env with passes := fun _ _ => True }

theorem Surroundings.within_restless {σ : Type} (env : Surroundings σ) :
    env.Within env.restless := ⟨rfl, fun _ => trivial, id, id⟩

theorem Fleet.mayRetry_of_success {fleet : Fleet} (h : fleet.endState = .success)
    (operation : String) : fleet.mayRetry operation = .ok () := if_pos h

section Restless

variable {σ : Type} {env env' : Surroundings σ} {ctx ctx' : Context} {fleet : Fleet} {s : σ}
  {r : Retry} {x y : Scene σ} {hs new : List Happening}

theorem Scene.Acts.mono (h : x.Acts env ctx new y) (hle : env.Within env') :
    x.Acts env' ctx new y := by
  obtain ⟨moment, passes, opens, ends⟩ := env
  obtain ⟨moment', passes', opens', ends'⟩ := env'
  obtain rfl : moment = moment' := hle.moment
  cases h with
  | start => exact .start
  | canaryDue ho => exact .canaryDue (hle.opens ho)
  | lead hl => exact .lead hl
  | conclude hl => exact .conclude hl
  | overflow hl => exact .overflow hl
  | takeOff ha ho => exact .takeOff ha (hle.opens ho)
  | account ha hl => exact .account ha hl
  | again hover hmay hr => exact .again hover hmay hr
  | takeOffAgain ha ho => exact .takeOffAgain ha (hle.opens ho)
  | accountAgain ha hl => exact .accountAgain ha hl

theorem Scene.Hears.mono (h : x.Hears env ctx new y) (hle : env.Within env') :
    x.Hears env' ctx new y := by
  obtain ⟨moment, passes, opens, ends⟩ := env
  obtain ⟨moment', passes', opens', ends'⟩ := env'
  obtain rfl : moment = moment' := hle.moment
  cases h with
  | gate he => exact .gate (hle.ends he)
  | canary he => exact .canary (hle.ends he)
  | cooldown he => exact .cooldown (hle.ends he)
  | bulk ha he => exact .bulk ha (hle.ends he)
  | retry ha he => exact .retry ha (hle.ends he)

/-- What can happen in some surroundings can happen in any that allow more. -/
theorem Course.mono (h : Course env ctx x hs y) (hle : env.Within env') :
    Course env' ctx x hs y := by
  induction h with
  | here => exact .here
  | later _ hp ih => exact ih.later (hle.passes hp)
  | act _ ha ih => exact ih.act (ha.mono hle)
  | hear _ hh ih => exact ih.hear (hh.mono hle)

theorem Scene.Acts.restless (h : x.Acts env ctx new y) : x.Acts env.restless ctx new y :=
  h.mono env.within_restless

theorem Scene.Hears.restless (h : x.Hears env ctx new y) : x.Hears env.restless ctx new y :=
  h.mono env.within_restless

theorem Course.restless (h : Course env ctx x hs y) : Course env.restless ctx x hs y :=
  h.mono env.within_restless

/-- The steps of a pass do not depend on the context of the rollout. -/
theorem Scene.Acts.anywhere (h : Scene.Acts env ctx ⟨s, fleet, .retry r⟩ new y)
    (ho : r.isOver = false) : Scene.Acts env ctx' ⟨s, fleet, .retry r⟩ new y := by
  cases h with
  | again hover _ _ =>
    rw [Phase.isOver, ho] at hover
    cases hover
  | takeOffAgain ha ho => exact .takeOffAgain ha ho
  | accountAgain ha hl => exact .accountAgain ha hl

theorem Scene.Hears.anywhere (h : Scene.Hears env ctx ⟨s, fleet, .retry r⟩ new y) :
    Scene.Hears env ctx' ⟨s, fleet, .retry r⟩ new y := by
  cases h with
  | retry ha he => exact .retry ha he

end Restless

/-- The phases in which a fleet is during a cleanup. -/
def CleanupPhase.Meets (p : Phase) : CleanupPhase → Prop
  | retrying r => p = .retry r
  | _ => p.isOver = true

theorem Cleanup.meets_proceed {p : Phase} (hp : p.isOver = true) (fleet : Fleet) (ctx : Context)
    (m : Moment) (passes : Nat) (delay : Duration) (made : Nat) :
    (proceed fleet ctx m passes delay made).phase.Meets p := by
  unfold proceed
  split
  · exact hp
  · split
    · exact hp
    · split <;> exact hp

/-- The phases in which a fleet is after its rollout. -/
def Care.Meets (p : Phase) : Care → Prop
  | rest => p.isOver = true
  | pass r => p = .retry r
  | cleanup _ c => c.phase.Meets p

section Courses

variable {σ : Type} {env : Surroundings σ} {ctx inner : Context} {z : Scene σ} {p : Phase}
  {hs new : List Happening}

/-- A step of a cleanup goes on with a course. -/
theorem Cleaning.Goes.course {x y : Cleaning σ} (g : x.Goes env inner new y)
    (h : Course env.restless ctx z hs ⟨x.around, x.fleet, p⟩) (hp : x.cleanup.phase.Meets p)
    (he : x.fleet.endState = .success) :
    ∃ p', Course env.restless ctx z (hs ++ new) ⟨y.around, y.fleet, p'⟩ ∧
      y.cleanup.phase.Meets p' ∧ y.fleet.endState = .success := by
  cases g with
  | later _ => exact ⟨p, by rw [List.append_nil]; exact h.later trivial, hp, he⟩
  | @waited s s' fleet c until_ hw _ =>
    rw [hw] at hp
    have hlater : Course env.restless ctx z hs ⟨s', fleet, p⟩ := h.later trivial
    cases hr : Retry.start? fleet inner (env.moment s').now with
    | none =>
      refine ⟨p, by rw [List.append_nil]; exact hlater, ?_, he⟩
      simp only [Cleanup.waited, hr]
      exact hp
    | some r =>
      refine ⟨.retry r, hlater.act (.again hp (Fleet.mayRetry_of_success he _) hr), ?_, he⟩
      simp only [Cleanup.waited, hr]
      rfl
  | interrupted hw _ =>
    rw [hw] at hp
    exact ⟨p, by rw [List.append_nil]; exact h.later trivial, hp, he⟩
  | acts hr ho ha =>
    rw [hr] at hp
    obtain rfl : p = .retry _ := hp
    exact ⟨_, h.act (ha.anywhere ho).restless, rfl, (ha.failureCount_le ho).2.2.trans he⟩
  | hears hr hh =>
    rw [hr] at hp
    obtain rfl : p = .retry _ := hp
    exact ⟨_, h.hear hh.anywhere.restless, rfl, hh.failureCount_eq.2.2.trans he⟩
  | @passed _ _ _ r hr ho =>
    rw [hr] at hp
    obtain rfl : p = .retry r := hp
    exact ⟨.retry r, by rw [List.append_nil]; exact h,
      Cleanup.meets_proceed (p := .retry r) ho _ _ _ _ _ _, he⟩

/-- A step after a rollout goes on with its course. -/
theorem Tended.Goes.course {x y : Tended σ} (g : x.Goes env new y)
    (h : Course env.restless ctx z hs ⟨x.around, x.fleet, p⟩) (hp : x.care.Meets p)
    (he : x.fleet.endState = .success) :
    ∃ p', Course env.restless ctx z (hs ++ new) ⟨y.around, y.fleet, p'⟩ ∧ y.care.Meets p' ∧
      y.fleet.endState = .success := by
  cases g with
  | later _ => exact ⟨p, by rw [List.append_nil]; exact h.later trivial, hp, he⟩
  | retries hmay hr => exact ⟨_, h.act (.again hp hmay hr), rfl, he⟩
  | acts ho ha =>
    obtain rfl : p = .retry _ := hp
    exact ⟨_, h.act (ha.anywhere ho).restless, rfl, (ha.failureCount_le ho).2.2.trans he⟩
  | hears hh =>
    obtain rfl : p = .retry _ := hp
    exact ⟨_, h.hear hh.anywhere.restless, rfl, hh.failureCount_eq.2.2.trans he⟩
  | @retried _ _ r ho =>
    obtain rfl : p = .retry r := hp
    exact ⟨.retry r, by rw [List.append_nil]; exact h, ho, he⟩
  | cleans _ =>
    exact ⟨p, by rw [List.append_nil]; exact h, Cleanup.meets_proceed hp _ _ _ _ _ _, he⟩
  | cleaning g => exact g.course h hp he
  | cleaned hc =>
    refine ⟨p, by rw [List.append_nil]; exact h, ?_, he⟩
    have hp : CleanupPhase.Meets p _ := hp
    rw [hc] at hp
    exact hp

/-- Whatever is asked for after a rollout that succeeded goes on with its course. -/
theorem Tending.course {x y : Tended σ} (g : Tending env x new y)
    (h : Course env.restless ctx z hs ⟨x.around, x.fleet, p⟩) (hp : x.care.Meets p)
    (he : x.fleet.endState = .success) :
    ∃ p', Course env.restless ctx z (hs ++ new) ⟨y.around, y.fleet, p'⟩ ∧ y.care.Meets p' ∧
      y.fleet.endState = .success := by
  induction g with
  | here => exact ⟨p, by rw [List.append_nil]; exact h, hp, he⟩
  | step _ g ih =>
    obtain ⟨p', h', hp', he'⟩ := ih
    rw [← List.append_assoc]
    exact g.course h' hp' he'

end Courses

/-! ## The law -/

/-- Whether no pass is under way. -/
def Care.isIdle : Care → Bool
  | rest => true
  | pass _ => false
  | cleanup _ c =>
    match c.phase with
    | .retrying _ => false
    | _ => true

theorem Care.Meets.isOver {care : Care} {p : Phase} (h : care.Meets p) (hi : care.isIdle = true) :
    p.isOver = true := by
  cases care with
  | rest => exact h
  | pass r => cases hi
  | cleanup ctx c =>
    have h : c.phase.Meets p := h
    unfold isIdle at hi
    cases hc : c.phase with
    | retrying r => simp only [hc] at hi; cases hi
    | _ => rw [hc] at h; exact h

/-- What is true in a pass over the failed upgrades of `fleet₀`, with what has happened in it. -/
structure Scene.RunsAgain {σ : Type} (fleet₀ : Fleet) (hs : List Happening) (x : Scene σ) :
    Prop where
  /-- No upgrade is run twice, and only those that had an error when the pass began are run. -/
  once : (entries hs).Nodup ∧ ∀ i ∈ entries hs, i ∈ fleet₀.failures.map (·.index)
  /-- Nothing happens to the others. -/
  others : ∀ i ∉ fleet₀.failures.map (·.index),
    x.fleet.upgrade? i = fleet₀.upgrade? i ∧ ∀ h ∈ hs, h.index? ≠ some i
  /-- An upgrade that is about to be counted no more is still counted. -/
  guarded : ∀ r, x.phase = .retry r → ∀ index, .landed index false ∈ r.attempts →
    0 < x.fleet.failureCount
  /-- When the pass is over, all that had an error have been run, and their runs returned. -/
  all : x.phase.isOver = true → (entries hs).Perm (fleet₀.failures.map (·.index)) ∧
    ((returns hs).map Prod.fst).Perm (entries hs)

theorem Retry.Reruns.runsAgain {σ : Type} {fleet₀ : Fleet} {hs : List Happening} {x : Scene σ}
    {r : Retry} (h : r.Reruns fleet₀ x.fleet hs) (hp : x.phase = .retry r) :
    x.RunsAgain fleet₀ hs where
  once := ⟨(List.nodup_append.mp h.ledger.nodup).1, fun _ hi =>
    h.ledger.entered.mem_iff.mp (List.mem_append_left _ hi)⟩
  others i hi := h.ledger.untouched fun hm =>
    hi (h.ledger.entered.mem_iff.mp (List.mem_append_left _ hm))
  guarded r' hr' index ha := by
    rw [hp] at hr'
    cases hr'
    exact h.guarded ha
  all ho := by
    rw [hp] at ho
    obtain ⟨hentered, hreturned, -⟩ := h.finished ho
    exact ⟨hentered, hreturned⟩

section Law

variable {σ : Type} {env : Surroundings σ} {ctx : Context} {c : Config} {timeouts : StageTimeouts}
  {fleet fleet₁ : Fleet} {s s₁ : σ} {y : Tended σ} {hs hs' : List Happening}

/-- A fleet whose rollout succeeded says so. -/
theorem Course.endState_success (hc : Fleet.ofConfig c timeouts = .ok fleet) (calm : env.Calm)
    (h : Course env ctx ⟨s, fleet, .idle⟩ hs ⟨s₁, fleet₁, .rollout (.ended (.ok ()))⟩) :
    fleet₁.endState = .success := by
  obtain ⟨-, -, hnew⟩ := Fleet.config_of_ofConfig hc
  have hend : Concluded fleet fleet₁ hs (.ok ()) := h.told calm hnew
  rcases Nat.lt_or_ge fleet.maxFailures (failedRuns fleet.canaries hs) with hlt | hle
  · cases (hend.exceeded hlt).1
  · exact (hend.success.mpr hle).2

end Law

/-! ## A pass over one upgrade -/

/-- One backend, which may fail, with ten minutes for its upgrade. -/
def soloConfig : Config :=
  { pairConfig with backends := ["10.0.0.1:80"], maxFailures := 1, actionTimeoutSecs := 600 }

/-- The fleet of the one. -/
def soloFleet : Fleet :=
  ⟨soloConfig, .standard, [⟨.v4 ⟨10, 0, 0, 1⟩, 80⟩],
    [.fresh "10.0.0.1:80" ⟨.v4 ⟨10, 0, 0, 1⟩, 80⟩], 0, .unknown, 0⟩

/-- The one in its pool, at the start of the clock. -/
def soloAround : Table × Moment :=
  (Table.empty.seed "/" [⟨.v4 ⟨10, 0, 0, 1⟩, 80⟩], ⟨0, []⟩)

theorem ofConfig_solo : Fleet.ofConfig soloConfig .standard = .ok soloFleet := rfl

/-- The fleet of the one after it did not find its binary, with its failure counted or not. -/
def soloFailed (failureCount : Nat) (endState : EndState) : Fleet :=
  { soloFleet with
    upgrades := soloFleet.upgrades.map fun u => (u.refuse "web" (.code 2)).1
    failureCount, endState, admitted := 1 }

/-- The context of an upgrade that begins at the start of the clock. -/
def soloContext : Context := ⟨some 600000000000, none⟩

/-- The rollout of the one, which does not find its binary, succeeds all the same. -/
theorem course_solo_punctual : ∃ hs,
    Course .punctual .background ⟨soloAround, soloFleet, .idle⟩ hs
      ⟨soloAround, soloFailed 1 .success, .rollout (.ended (.ok ()))⟩ := by
  have missing : Surroundings.punctual.opens soloAround (.error (.code 2)) := trivial
  have answered : Surroundings.punctual.ends soloAround ⟨some 30000000000, none⟩
      (Run.gateCall soloFleet) (.result (soloAround.1.health "/")) soloAround :=
    ⟨⟨trivial, ⟨rfl, rfl⟩, .refl _, trivial⟩, trivial⟩
  have start : Course .punctual .background ⟨soloAround, soloFleet, .idle⟩ _
      ⟨soloAround, soloFleet, .rollout (.gate ⟨some 30000000000, none⟩)⟩ := .act .here .start
  have canaries : Course .punctual .background ⟨soloAround, soloFleet, .idle⟩ _
      ⟨soloAround, soloFleet, .rollout (.canaryDue 0)⟩ :=
    .hear start (.gate (e := .result (soloAround.1.health "/")) answered)
  have bulk : Course .punctual .background ⟨soloAround, soloFleet, .idle⟩ _
      ⟨soloAround, soloFleet, .rollout (.bulk (.start soloFleet))⟩ :=
    .act canaries (.canaryDue missing)
  have admitted : Course .punctual .background ⟨soloAround, soloFleet, .idle⟩ _
      ⟨soloAround, { soloFleet with admitted := 1 },
        .rollout (.bulk ⟨.seeking, [], [.queued 0 soloContext], 0⟩)⟩ :=
    .act (.act (.act bulk (.lead rfl)) (.lead rfl)) (.lead rfl)
  have at₀ : [Admitted.queued 0 soloContext][0]? = some (.queued 0 soloContext) := rfl
  have landed : Course .punctual .background ⟨soloAround, soloFleet, .idle⟩ _
      ⟨soloAround, soloFailed 0 .unknown,
        .rollout (.bulk ⟨.seeking, [], [.landed 0 true], 0⟩)⟩ :=
    (admitted.act (.takeOff at₀ missing) :)
  have at₀ : [Admitted.landed 0 true][0]? = some (.landed 0 true) := rfl
  have counted : Course .punctual .background ⟨soloAround, soloFleet, .idle⟩ _
      ⟨soloAround, soloFailed 1 .unknown, .rollout (.bulk ⟨.seeking, [], [.counted 0], 0⟩)⟩ :=
    (landed.act (.account at₀ rfl) :)
  have at₀ : [Admitted.counted 0][0]? = some (.counted 0) := rfl
  have released : Course .punctual .background ⟨soloAround, soloFleet, .idle⟩ _
      ⟨soloAround, soloFailed 1 .unknown, .rollout (.bulk ⟨.seeking, [], [], 0⟩)⟩ :=
    (counted.act (.account at₀ rfl) :)
  exact ⟨_, .act (.act released (.lead rfl)) (.conclude rfl)⟩

end Rollout
