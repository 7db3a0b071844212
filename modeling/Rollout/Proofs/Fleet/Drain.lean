import Rollout.Proofs.Fleet.Away

/-!
# The limit of missing backends

* **A pool that lacks a backend** (`Phase.Refused`): the rollout ends before any upgrade.
* **The limit** (`drain_limit`): how many configured backends are missing from the pool at most, and
  which of them are while no run is under way.
* **A pair** (`course_pair_left`): courses of two upgrades whose first has left the pool.
-/

namespace Rollout

/-! ## A pool that lacks a backend -/

/-- The phases of a rollout of `fleet₀` that does not come past the check of its pool. -/
def Phase.Refused (fleet₀ fleet : Fleet) : Phase → Prop
  | idle | rollout (.gate _) | rollout (.crashed _) => fleet = fleet₀
  | rollout (.ended _) => fleet = { fleet₀ with endState := .preconditionFailure }
  | _ => False

namespace Fleet

variable {fleet : Fleet} {t : Table}

/-- The check of a pool finds what is missing from it. -/
theorem missing_of_check (h : fleet.checkAnswer (t.health fleet.config.pattern) = .ok ()) :
    fleet.missing t = [] := by
  cases hr : t.health fleet.config.pattern with
  | error e => rw [hr] at h; cases h
  | ok r =>
    rw [hr, checkAnswer, checkHealth] at h
    refine List.filter_eq_nil_iff.mpr fun b hb => ?_
    have hb := List.mem_dedup.mp hb
    cases hs : r.status with
    | unknown => rw [hs] at h; cases h
    | degraded => rw [hs] at h; cases h
    | empty =>
      rw [hs] at h
      simp only at h
      split at h
      · rename_i hempty
        rw [List.isEmpty_iff.mp hempty] at hb
        exact absurd hb List.not_mem_nil
      · cases h
    | full =>
      rw [hs] at h
      simp only at h
      split at h
      · cases h
      · split at h
        · cases h
        · rename_i hnone
          have := List.find?_eq_none.mp hnone b hb
          rw [Table.backends_of_health hr] at this
          exact this

end Fleet

section Refusals

variable {σ : Type} {env : Surroundings σ} {ctx : Context} {x y : Scene σ} {hs : List Happening}
  {table : σ → Table} {fleet₀ : Fleet} {s : σ}

theorem Scene.Acts.refused (h : x.Acts env ctx hs y) (hr : x.phase.Refused fleet₀ x.fleet) :
    y.phase.Refused fleet₀ y.fleet := by
  cases h with
  | @start s fleet =>
    obtain rfl : fleet = fleet₀ := hr
    rw [Scene.ofRun_fleet, Scene.ofRun_phase]
    have hs := Run.starts fleet ctx (env.moment s)
    generalize Run.start fleet ctx (env.moment s) = x at hs ⊢
    cases hs <;> exact rfl
  | @again s fleet phase inner r hover hmay _ =>
    have hs := Fleet.endState_of_mayRetry hmay
    cases phase with
    | idle => cases hover
    | retry r => exact hr.elim
    | rollout run =>
      cases run with
      | ended result =>
        have hr : fleet = { fleet₀ with endState := .preconditionFailure } := hr
        rw [hr] at hs
        cases hs
      | _ => cases hover
  | _ => exact hr.elim

theorem Scene.Hears.refused (h : x.Hears env ctx hs y) (calm : env.Calm) (own : env.Over table)
    (hm : fleet₀.missing (table x.around) ≠ []) (hr : x.phase.Refused fleet₀ x.fleet) :
    y.phase.Refused fleet₀ y.fleet ∧ table y.around = table x.around := by
  cases h with
  | @gate s s' fleet inner e he =>
    obtain rfl : fleet = fleet₀ := hr
    have ha : (table s).Answers e (table s') := own.ends he
    have hcalm := calm he
    rw [Scene.ofRun_fleet, Scene.ofRun_phase]
    cases e with
    | crashed text => exact hcalm.elim
    | stopped reason => exact ⟨rfl, ha⟩
    | result r =>
      obtain ⟨hanswer, hsame⟩ := ha
      refine ⟨?_, hsame⟩
      rw [Run.gateAnswered]
      split
      · rename_i hcheck
        rw [show r = _ from hanswer] at hcheck
        exact absurd (Fleet.missing_of_check hcheck) hm
      · exact rfl
  | _ => exact hr.elim

theorem Course.refused (h : Course env ctx ⟨s, fleet₀, .idle⟩ hs x) (calm : env.Calm)
    (own : env.Over table) (hm : fleet₀.missing (table s) ≠ []) :
    x.phase.Refused fleet₀ x.fleet ∧ table x.around = table s := by
  induction h with
  | here => exact ⟨rfl, rfl⟩
  | later _ hpass ih => exact ⟨ih.1, (own.passes hpass).trans ih.2⟩
  | act _ ha ih => exact ⟨ha.refused ih.1, by rw [ha.around]; exact ih.2⟩
  | hear _ hh ih =>
    obtain ⟨hr, hsame⟩ := hh.refused calm own (by rw [ih.2]; exact hm) ih.1
    exact ⟨hr, hsame.trans ih.2⟩

theorem Phase.Refused.untouched {phase : Phase} {fleet : Fleet} (h : phase.Refused fleet₀ fleet) :
    fleet.upgrades = fleet₀.upgrades ∧ phase.flights = [] := by
  unfold Refused at h
  split at h
  · rw [h]; exact ⟨rfl, rfl⟩
  · rw [h]; exact ⟨rfl, rfl⟩
  · rw [h]; exact ⟨rfl, rfl⟩
  · rw [h]; exact ⟨rfl, rfl⟩
  · exact h.elim

/-! ## The limit -/

variable {c : Config} {timeouts : StageTimeouts} {fleet : Fleet}

/-- **Endpoints out of their pool.** Wherever a rollout comes to whose work does not crash, while
nobody else changes the table of pools:

1. When the pool lacked no configured backend at the start, there are never more of them missing
   than the limit of failures and the permits together, or one; and when no run is under way and the
   rollout has not crashed, those of the upgrades are missing whose recorded error is at a stage
   after the one that leaves the pool, and no others.
2. When the pool lacked one, no run is ever under way, and table and upgrades are as they were. -/
theorem drain_limit (hc : Fleet.ofConfig c timeouts = .ok fleet) (calm : env.Calm)
    (own : env.Over table) (h : Course env ctx ⟨s, fleet, .idle⟩ hs x) :
    (fleet.missing (table s) = [] →
      (fleet.missing (table x.around)).length ≤ max 1 (fleet.maxFailures + fleet.capacity) ∧
      (x.phase.flights = [] → x.phase.hasCrashed = false → ∀ b,
        b ∈ fleet.missing (table x.around) ↔
          ∃ u ∈ x.fleet.upgrades, u.backend = b ∧ u.HasFailedOut)) ∧
    (fleet.missing (table s) ≠ [] →
      x.phase.flights = [] ∧ x.fleet.upgrades = fleet.upgrades ∧
        table x.around = table s) := by
  obtain ⟨-, -, hnew⟩ := Fleet.config_of_ofConfig hc
  constructor
  · intro hm
    have hk : fleet.Keeps x.fleet := h.keeps
    have ho : x.phase.Orderly x.fleet := h.orderly calm hnew
    have hpool : x.fleet.Pooled (table x.around) := h.pooled calm own hnew (hnew.pooled hm)
    have hmissing : x.fleet.missing (table x.around) = fleet.missing (table x.around) := by
      rw [Fleet.missing, hk.backends, hk.config, Fleet.missing]
    refine ⟨?_, fun hf hcrash b => ?_⟩
    · rw [← hmissing, ← hk.maxFailures, ← hk.capacity]
      refine Nat.le_trans hpool.missing_length_le (h.away_le calm hnew ?_ trivial rfl)
      show fleet.failureCount ≤ _
      rw [hnew.failureCount]
      exact Nat.zero_le _
    · have hrest {u : Upgrade} (hu : u ∈ x.fleet.upgrades) : u.AtRest := by
        obtain ⟨i, hi⟩ := List.getElem?_of_mem hu
        exact ho.atRest hcrash hi (by rw [hf]; exact List.not_mem_nil)
      rw [← hmissing, Fleet.mem_missing]
      constructor
      · rintro ⟨hb, hn⟩
        obtain ⟨u, hu, hub, hout⟩ := Fleet.mem_away.mp ((hpool.missing b hb).mp hn)
        exact ⟨u, hu, hub, (hrest hu).isOut_iff.mp hout⟩
      · rintro ⟨u, hu, rfl, hfailed⟩
        have hb : u.backend ∈ x.fleet.backends := by
          rw [← hpool.targets]
          exact List.mem_map_of_mem hu
        refine ⟨hb, (hpool.missing _ hb).mpr (Fleet.mem_away.mpr ⟨u, hu, rfl, ?_⟩)⟩
        exact (hrest hu).isOut_iff.mpr hfailed
  · intro hm
    obtain ⟨hr, hsame⟩ := h.refused calm own hm
    exact ⟨hr.untouched.2, hr.untouched.1, hsame⟩

end Refusals

/-! ## Two rollouts of a pair -/

/-- The first of the two at a stage, with an error there or not. -/
def pairFirst (current : Stage) (failed : Option Stage) (err : Option UpgradeError) : Upgrade :=
  ⟨"10.0.0.1:80", ⟨.v4 ⟨10, 0, 0, 1⟩, 80⟩, true, current, failed, err⟩

/-- The fleet of the two when the first is admitted. -/
def pairMoved (u : Upgrade) (admitted : Nat) : Fleet :=
  { pairFleet with
    upgrades := [u, .fresh "10.0.0.2:80" ⟨.v4 ⟨10, 0, 0, 2⟩, 80⟩], admitted }

/-- The table without the first of the two. -/
def pairLeft : Table := Table.empty.seed "/" [⟨.v4 ⟨10, 0, 0, 2⟩, 80⟩]

/-- The flight of the first of the two. -/
def pairFlight (p : Position) : Flight :=
  ⟨0, ⟨some 9223372036854775807000000000, none⟩,
    ⟨pairConfig, .standard, "10.0.0.1:80", ⟨.v4 ⟨10, 0, 0, 1⟩, 80⟩, .file [] 0⟩, p⟩

/-- The first of the two has left the pool, and the second is not admitted yet. -/
theorem course_pair_left : ∃ hs, Course .free .background pairStart hs
    ⟨(pairLeft, ⟨0, []⟩), pairMoved (pairFirst .killExisting none none) 1,
      .rollout (.bulk ⟨.seeking, [1], [.flying (pairFlight (.lookingUp .first))], 0⟩)⟩ := by
  have first : Course .free .background pairBulk _
      ⟨pairStart.around, { pairFleet with admitted := 1 },
        .rollout (.bulk ⟨.seeking, [1], [.queued 0 (pairFlight .removing).ctx], 0⟩)⟩ :=
    .act (.act (.act .here (.lead rfl)) (.lead rfl)) (.lead rfl)
  have found : Surroundings.free.opens pairStart.around (.ok (.file [] 0)) := trivial
  have at₀ : [Admitted.queued 0 (pairFlight .removing).ctx][0]? =
      some (.queued 0 (pairFlight .removing).ctx) := rfl
  have flying : Course .free .background pairBulk _
      ⟨pairStart.around, pairMoved (pairFirst .removeFromPool none none) 1,
        .rollout (.bulk ⟨.seeking, [1], [.flying (pairFlight .removing)], 0⟩)⟩ :=
    (first.act (.takeOff at₀ found) :)
  have at₀ : [Admitted.flying (pairFlight .removing)][0]? =
      some (.flying (pairFlight .removing)) := rfl
  have answered : Surroundings.free.ends pairStart.around (pairFlight .removing).ctx
      (pairFlight .removing).wait (.result (Except.ok () : Except PoolError Unit))
      (pairLeft, ⟨0, []⟩) := ⟨trivial, rfl, rfl⟩
  have left : Course .free .background pairBulk _
      ⟨(pairLeft, ⟨0, []⟩), pairMoved (pairFirst .killExisting none none) 1,
        .rollout (.bulk ⟨.seeking, [1], [.flying (pairFlight (.lookingUp .first))], 0⟩)⟩ :=
    (flying.hear (.bulk at₀ answered) :)
  exact ⟨_, course_pair.trans left⟩

/-- The first of the two is cancelled while it is out of the pool. -/
theorem drain_limit_pair : ∃ hs x, Course .free .background pairStart hs x ∧
    x.phase.flights = [] ∧ (pairFleet.missing x.around.1).length ≤ max 1 (0 + 2) ∧
    ∃ u ∈ x.fleet.upgrades, u.backend = ⟨.v4 ⟨10, 0, 0, 1⟩, 80⟩ ∧ u.HasFailedOut := by
  obtain ⟨hs, left⟩ := course_pair_left
  have at₀ : [Admitted.flying (pairFlight (.lookingUp .first))][0]? =
      some (.flying (pairFlight (.lookingUp .first))) := rfl
  have stopped : Surroundings.free.ends (pairLeft, ⟨0, []⟩)
      (pairFlight (.lookingUp .first)).ctx (pairFlight (.lookingUp .first)).wait
      (.stopped .cancelled) (pairLeft, ⟨0, []⟩) := ⟨trivial, rfl⟩
  have ended : Course .free .background pairStart _
      ⟨(pairLeft, ⟨0, []⟩),
        pairMoved (pairFirst .killExisting (some .killExisting) (some (.context .cancelled))) 1,
        .rollout (.bulk ⟨.seeking, [1], [.landed 0 true], 0⟩)⟩ :=
    (left.hear (.bulk at₀ stopped) :)
  have law := (drain_limit ofConfig_pair Surroundings.free_calm Surroundings.free_over ended).1 rfl
  refine ⟨_, _, ended, rfl, law.1, (law.2 rfl rfl _).mp ?_⟩
  exact Fleet.mem_missing.mpr ⟨by decide, by decide⟩

/-- Two rollouts that keep no account of what is missing. The clock overflows while the first of the
two is out of its pool: its run is dropped, and no error says so. And a pool that lacks the second
of the two at the start lacks it when the rollout is refused. -/
theorem missing_unaccounted :
    (∃ hs x, Course .free .background pairStart hs x ∧ x.phase.flights = [] ∧
      pairFleet.missing pairStart.around.1 = [] ∧
      ∃ b ∈ pairFleet.missing x.around.1, ∀ u ∈ x.fleet.upgrades, u.err = none) ∧
    ∃ t hs x, Course .free .background ⟨(t, ⟨0, []⟩), pairFleet, .idle⟩ hs x ∧
      x.phase = .rollout (.ended (.error (.gate (.missingBackend ⟨.v4 ⟨10, 0, 0, 2⟩, 80⟩)))) ∧
      ∃ b ∈ pairFleet.missing x.around.1, ∀ u ∈ x.fleet.upgrades, u.err = none := by
  constructor
  · obtain ⟨hs, left⟩ := course_pair_left
    have later : Surroundings.free.passes (pairLeft, ⟨0, []⟩) (pairLeft, ⟨1000000000, []⟩) := rfl
    have cleared : Course .free .background pairStart _
        ⟨(pairLeft, ⟨1000000000, []⟩), pairMoved (pairFirst .killExisting none none) 1,
          .rollout (.bulk ⟨.cleared, [1], [.flying (pairFlight (.lookingUp .first))], 0⟩)⟩ :=
      .act (.act (left.later later) (.lead rfl)) (.lead rfl)
    have crashed : Course .free .background pairStart _
        ⟨(pairLeft, ⟨1000000000, []⟩), pairMoved (pairFirst .killExisting none none) 2,
          .rollout (.crashed Run.clockOverflow)⟩ := cleared.act (.overflow rfl)
    refine ⟨_, _, crashed, rfl, rfl, ⟨.v4 ⟨10, 0, 0, 1⟩, 80⟩,
      Fleet.mem_missing.mpr ⟨by decide, by decide⟩, by decide⟩
  · have start : Course .free .background
        ⟨(Table.empty.seed "/" [⟨.v4 ⟨10, 0, 0, 1⟩, 80⟩], ⟨0, []⟩), pairFleet, .idle⟩ _
        ⟨(Table.empty.seed "/" [⟨.v4 ⟨10, 0, 0, 1⟩, 80⟩], ⟨0, []⟩), pairFleet,
          .rollout (.gate ⟨some 30000000000, none⟩)⟩ := .act .here .start
    refine ⟨_, _, _, .hear start (.gate (e := .result
      ((Table.empty.seed "/" [⟨.v4 ⟨10, 0, 0, 1⟩, 80⟩]).health "/")) ⟨trivial, rfl, rfl⟩), rfl,
      ⟨.v4 ⟨10, 0, 0, 2⟩, 80⟩, Fleet.mem_missing.mpr ⟨by decide, by decide⟩, by decide⟩

end Rollout
