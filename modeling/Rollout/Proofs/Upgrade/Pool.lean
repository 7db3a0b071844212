import Rollout.Fleet.Course
import Rollout.Proofs.Pool.Table
import Rollout.Proofs.Upgrade.Steps

/-!
# The pool during an upgrade

An endpoint is out of its pool from the end of the first stage to the end of the last one.

* **Records** (`Upgrade.isOut`): the stage says whether the endpoint is out. Where no run is under
  way, the failure that is recorded says it too (`Upgrade.AtRest.isOut_iff`).
* **Runs** (`Upgrade.Trades`): the end of a wait changes both the table and the stage, or neither.
-/

namespace Rollout

/-! ## Records -/

/-- Whether an endpoint is out of its pool when its upgrade is at a stage. -/
def Stage.isOut : Stage → Bool
  | removeFromPool | done => false
  | _ => true

theorem Stage.isOut_next {s : Stage} (hr : s ≠ removeFromPool) (ha : s ≠ addToPool) :
    s.next.isOut = s.isOut := by
  cases s <;> first | rfl | contradiction

theorem Stage.isOut_iff {s : Stage} : s.isOut = true ↔ s ≠ done ∧ 0 < s.rank := by
  cases s <;> decide

namespace Upgrade

/-- Whether the endpoint of an upgrade is out of its pool. -/
def isOut (u : Upgrade) : Bool := u.current.isOut

/-- Whether the recorded error of an upgrade is at a stage after the one that leaves the pool. -/
def HasFailedOut (u : Upgrade) : Prop := u.err.isSome ∧ ∃ s, u.failed = some s ∧ 0 < s.rank

variable {u v : Upgrade}

theorem isOut_of_current (h : v.current = u.current) : v.isOut = u.isOut := by
  rw [isOut, h, isOut]

/-- Where no run is under way, the endpoints that are out are those that failed out of the pool. -/
theorem AtRest.isOut_iff (h : u.AtRest) : u.isOut = true ↔ u.HasFailedOut := by
  constructor
  · intro hout
    obtain ⟨hd, hrank⟩ := Stage.isOut_iff.mp hout
    obtain ⟨herr, hfailed⟩ := h.failed hd fun hi => by rw [hi] at hrank; cases hrank
    obtain ⟨s, hs⟩ := Option.isSome_iff_exists.mp hfailed
    have hentry := h.entry hd
    rw [entryStage, hs] at hentry
    obtain rfl : s = u.current := hentry
    exact ⟨herr, _, hs, hrank⟩
  · rintro ⟨herr, s, hs, hrank⟩
    have hd : u.current ≠ .done := fun hd => by rw [h.done hd] at herr; cases herr
    have hentry := h.entry hd
    rw [entryStage, hs] at hentry
    obtain rfl : s = u.current := hentry
    exact Stage.isOut_iff.mpr ⟨hd, hrank⟩

theorem current_of_moves {passed : Bool} {progress : Progress} (h : u.Moves passed (v, progress)) :
    v.current = if passed then u.current.next else u.current := by
  cases h with
  | finishes hd => exact hd.symm
  | _ => rfl

end Upgrade

/-! ## Runs -/

/-- A table answers a change with success and changes, or with an error and does not. -/
theorem Table.serves_cases {t t' : Table} {change : Except PoolError Table}
    {r : Except PoolError Unit} (h : t.Serves change r t') :
    (r = .ok () ∧ change = .ok t') ∨ ∃ e, r = .error e ∧ t' = t := by
  cases change with
  | ok changed => exact .inl ⟨h.1, congrArg _ h.2.symm⟩
  | error e => exact .inr ⟨e, h⟩

/-- The end of a wait leaves the table alone, or the wait is the call of a stage that changes the
table and the stage is behind the run. -/
theorem Position.changes_of_answers {t t' : Table} {j : Job} {p : Position} {e : Event (p.wait j)}
    (h : t.Answers e t') (now : Instant) :
    (t' = t ∧ (p.passes j now e = true → p.stage ≠ .removeFromPool ∧ p.stage ≠ .addToPool)) ∨
    (p.stage = .removeFromPool ∧ p.passes j now e = true ∧
      t.removeBackend j.config.pattern j.backend = .ok t') ∨
    (p.stage = .addToPool ∧ p.passes j now e = true ∧
      t.addBackend j.config.pattern j.backend = .ok t') := by
  cases p with
  | removing =>
    cases e with
    | result r =>
      rcases Table.serves_cases h with ⟨rfl, hc⟩ | ⟨e, rfl, rfl⟩
      · exact .inr (.inl ⟨rfl, rfl, hc⟩)
      · exact .inl ⟨rfl, nofun⟩
    | stopped reason => exact .inl ⟨h, nofun⟩
    | crashed text => exact .inl ⟨h, nofun⟩
  | adding =>
    cases e with
    | result r =>
      rcases Table.serves_cases h with ⟨rfl, hc⟩ | ⟨e, rfl, rfl⟩
      · exact .inr (.inr ⟨rfl, rfl, hc⟩)
      · exact .inl ⟨rfl, nofun⟩
    | stopped reason => exact .inl ⟨h, nofun⟩
    | crashed text => exact .inl ⟨h, nofun⟩
  | lookingUp why => exact .inl ⟨by cases e <;> exact h, fun _ => ⟨nofun, nofun⟩⟩
  | signalling s pid rest => exact .inl ⟨by cases e <;> exact h, fun _ => ⟨nofun, nofun⟩⟩
  | exitPause s deadline until_ => exact .inl ⟨by cases e <;> exact h, fun _ => ⟨nofun, nofun⟩⟩
  | copying => exact .inl ⟨by cases e <;> exact h, fun _ => ⟨nofun, nofun⟩⟩
  | starting => exact .inl ⟨by cases e <;> exact h, fun _ => ⟨nofun, nofun⟩⟩
  | probing deadline => exact .inl ⟨by cases e <;> exact h, fun _ => ⟨nofun, nofun⟩⟩
  | probePause deadline until_ => exact .inl ⟨by cases e <;> exact h, fun _ => ⟨nofun, nofun⟩⟩

namespace Upgrade

/-- What a step of an upgrade's run does with its pool: nothing, the endpoint leaves, or it comes
back. -/
inductive Trades (pattern : String) (u v : Upgrade) (t : Table) : Table → Prop
  | keeps : v.isOut = u.isOut → Trades pattern u v t t
  | leaves {t' : Table} : u.isOut = false → v.isOut = true →
    t.removeBackend pattern u.backend = .ok t' → Trades pattern u v t t'
  | returns {t' : Table} : u.isOut = true → v.isOut = false →
    t.addBackend pattern u.backend = .ok t' → Trades pattern u v t t'

theorem trades {t t' : Table} {u : Upgrade} {j : Job} {m : Moment} {p : Position}
    {e : Event (p.wait j)} (hp : p.stage = u.current) (hb : j.backend = u.backend)
    (he : e.IsCalm) (h : t.Answers e t') (ctx : Context) :
    u.Trades j.config.pattern (u.resume j ctx m p e).1 t t' := by
  have hcur : (u.resume j ctx m p e).1.current =
      if p.passes j m.now e then u.current.next else u.current :=
    current_of_moves (moves hp he)
  rcases Position.changes_of_answers h m.now with ⟨rfl, hne⟩ | ⟨hs, hpass, hc⟩ | ⟨hs, hpass, hc⟩
  · refine .keeps ?_
    rw [isOut, hcur]
    split
    · obtain ⟨hr, ha⟩ := hne ‹_›
      rw [hp] at hr ha
      exact Stage.isOut_next hr ha
    · rfl
  · rw [hpass, if_pos rfl, ← hp, hs] at hcur
    refine .leaves ?_ ?_ (hb ▸ hc)
    · rw [isOut, ← hp, hs]; rfl
    · rw [isOut, hcur]; rfl
  · rw [hpass, if_pos rfl, ← hp, hs] at hcur
    refine .returns ?_ ?_ (hb ▸ hc)
    · rw [isOut, ← hp, hs]; rfl
    · rw [isOut, hcur]; rfl

end Upgrade

end Rollout
