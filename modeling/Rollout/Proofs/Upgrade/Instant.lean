import Mathlib.Data.Prod.Lex
import Rollout.Proofs.Time
import Rollout.Proofs.Upgrade.Stop

/-!
# A run at one point of time

A run cannot go on forever while the clock stands still.

- **Levels** (`Position.level`, `Position.load`): how far from its end a run stands at a point of
  time. A pause that is not over comes last in its stage, since nothing follows it at that point.
- **Ranks** (`Position.rank`): the level, and within a level the signals that are left to send.
  Each wait that ends makes the rank less (`Upgrade.rank_lt_of_waiting`), if a pause is over when it
  ends and takes some time.
-/

namespace Rollout

/-! ## Levels -/

/-- The signal that asks comes before the one that does not. -/
def Signal.level : Signal → Nat
  | .term => 3
  | .kill => 0

theorem Signal.level_le (s : Signal) : s.level ≤ 3 := by cases s <;> decide

namespace Position

/-- How far from its end a run stands at a point of time: ten levels for each stage. -/
def level (now : Instant) : Position → Nat
  | removing => 60
  | lookingUp .first => 57
  | signalling s _ _ | lookingUp (.recheck s _ _ _) => s.level + 53
  | exitPause s _ until_ => if until_ ≤ now then s.level + 52 else 50
  | lookingUp (.untilGone s _) => s.level + 51
  | copying => 40
  | starting => 30
  | probePause _ until_ => if until_ ≤ now then 22 else 20
  | probing _ => 21
  | adding => 10

/-- The steps left on a level: two for each process that is still to be signalled. -/
def load : Position → Nat
  | signalling _ _ rest => 2 * rest.length + 2
  | lookingUp (.recheck _ _ _ rest) => 2 * rest.length + 1
  | _ => 0

/-- How far from its end a run stands at a point of time, first by level. -/
def rank (now : Instant) (p : Position) : Nat ×ₗ Nat := toLex (p.level now, p.load)

variable {j : Job} {now : Instant} {p q : Position}

theorem rank_lt_of_level (h : q.level now < p.level now) : q.rank now < p.rank now :=
  Prod.Lex.toLex_lt_toLex.mpr (.inl h)

theorem rank_lt_of_load (h : q.level now ≤ p.level now) (hl : q.load < p.load) :
    q.rank now < p.rank now := by
  refine Prod.Lex.toLex_lt_toLex.mpr ?_
  rcases Nat.lt_or_eq_of_le h with h | h
  · exact .inl h
  · exact .inr ⟨h, hl⟩

/-- Each stage has its own ten levels. -/
theorem level_mem (now : Instant) (p : Position) :
    60 - 10 * p.stage.rank ≤ p.level now ∧ p.level now < 70 - 10 * p.stage.rank := by
  have hs (s : Signal) := s.level_le
  cases p with
  | lookingUp why => cases why <;> simp only [level, stage, Stage.rank] <;> grind
  | _ => simp only [level, stage, Stage.rank]; grind

/-- A later stage has the lower levels. -/
theorem rank_lt_of_next (h : q.stage = p.stage.next) : q.rank now < p.rank now := by
  refine rank_lt_of_level ?_
  have hp := level_mem now p
  have hq := level_mem now q
  have hlt := Stage.rank_lt_six p.stage_ne_done
  rw [h, Stage.rank_next_of_ne p.stage_ne_done] at hq
  omega

/-! ## Ranks -/

/-- Signals to some processes. -/
theorem sendTo_le {s : Signal} {pids : List Pid} (h : sendTo j now s pids = .stay q) :
    q.level now ≤ s.level + 53 ∧ q.load ≤ 2 * pids.length := by
  cases pids with
  | nil => cases h; simp [level, load]
  | cons pid rest => cases h; simp [level, load, Nat.mul_add]

/-- A pause that has just begun is not over. -/
theorem not_wakeAfter_le (hpoll : 0 < j.timeouts.pollInterval.nanos) :
    ¬ now.wakeAfter j.timeouts.pollInterval ≤ now :=
  Nat.not_le_of_lt (Instant.lt_wakeAfter hpoll)

theorem rank_lt_of_lookedUp (hpoll : 0 < j.timeouts.pollInterval.nanos) {why : Lookup}
    {pids : List Pid} (h : lookedUp j now pids why = .stay q) :
    q.rank now < (lookingUp why).rank now := by
  have hafter := after_lookedUp j now pids why
  generalize lookedUp j now pids why = step at h hafter
  cases hafter with
  | idle | listed | ended | outlast => cases h
  | ask | kill =>
    refine rank_lt_of_level (Nat.lt_of_le_of_lt (sendTo_le h).1 ?_)
    simp [level, Signal.level]
  | unlisted =>
    obtain ⟨hlevel, hload⟩ := sendTo_le h
    exact rank_lt_of_load hlevel (Nat.lt_succ_of_le hload)
  | again =>
    cases h
    refine rank_lt_of_level ?_
    simp only [level, if_neg (not_wakeAfter_le hpoll)]
    omega

/-- A wait that ends and keeps the run in its stage makes the rank less. -/
theorem rank_lt_of_stay (hpoll : 0 < j.timeouts.pollInterval.nanos) {ctx : Context} {m : Moment}
    {r : (p.wait j).Result} (ht : ctx.Times m (.result r : Event (p.wait j)))
    (h : p.resume j m.now r = .stay q) : q.rank m.now < p.rank m.now := by
  cases stays_of_resume h with
  | lookup h => exact rank_lt_of_lookedUp hpoll h
  | signalled h =>
    obtain ⟨hlevel, hload⟩ := sendTo_le h
    exact rank_lt_of_load hlevel (Nat.lt_add_right 1 (Nat.lt_succ_of_le hload))
  | unsent => exact rank_lt_of_load (Nat.le_refl _) (Nat.lt_succ_self _)
  | @awaited s deadline until_ =>
    have hdue : until_ ≤ m.now := ht
    refine rank_lt_of_level ?_
    simp only [level, if_pos hdue]
    omega
  | unhealthy =>
    refine rank_lt_of_level ?_
    simp only [level, if_neg (not_wakeAfter_le hpoll)]
    decide
  | @rested deadline until_ =>
    have hdue : until_ ≤ m.now := ht
    refine rank_lt_of_level ?_
    simp only [level, if_pos hdue]
    decide

end Position

namespace Upgrade

variable {u : Upgrade} {j : Job} {ctx : Context} {m : Moment} {p q : Position}

/-- A run that enters a stage and waits stands there. -/
theorem stage_of_enter {s : Stage} (h : (u.enter j ctx m s).2 = .waiting q) :
    q.stage = s ∧ q.stage = (u.enter j ctx m s).1.current := by
  have hlive := stopped_of_enter h
  unfold enter at h ⊢
  cases hp : Position.enter j m.now s with
  | none => rw [hp] at h; cases h
  | some p =>
    rw [hp] at h
    obtain rfl := eq_of_guard h
    have hs : q.stage = s := Position.enter_stage hp
    simp only [guard, hlive]
    exact ⟨hs, hs⟩

/-- A run that waits again stands at the stage of its record. -/
theorem stage_of_waiting (hp : p.stage = u.current) {e : Event (p.wait j)}
    (h : (u.resume j ctx m p e).2 = .waiting q) :
    q.stage = (u.resume j ctx m p e).1.current := by
  have he : e.IsCalm := by cases e <;> trivial
  have hm : u.Moves (p.passes j m.now e) (u.resume j ctx m p e) := moves hp he
  generalize u.resume j ctx m p e = x at hm h
  generalize p.passes j m.now e = passed at hm
  cases hm with
  | stays q' hq _ => cases h; exact hq
  | advances q' _ hq => cases h; exact hq
  | _ => cases h

/-- A run that waits again stands nearer to its end. -/
theorem rank_lt_of_waiting (hpoll : 0 < j.timeouts.pollInterval.nanos) (hp : p.stage = u.current)
    {e : Event (p.wait j)} (ht : ctx.Times m e) (h : (u.resume j ctx m p e).2 = .waiting q) :
    q.rank m.now < p.rank m.now := by
  obtain ⟨-, r, rfl, hstay | ⟨-, henter⟩⟩ := waits_of_resume h
  · exact Position.rank_lt_of_stay hpoll ht hstay
  · exact Position.rank_lt_of_next (hp ▸ (stage_of_enter henter).1)

end Upgrade

end Rollout
