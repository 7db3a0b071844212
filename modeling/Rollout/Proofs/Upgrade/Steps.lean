import Rollout.Upgrade.History

/-!
# What a step of an upgrade can do

* **Lookups** (`Position.AfterLookup`): everything that can follow a lookup for processes. What is
  said of one outcome is a case of `Position.after_lookedUp`.
* **Positions** (`Position.Stays`, `Position.succeeds_of_passes`): the end of a wait keeps a run in
  its stage, or has the success that the stage needs.
* **Runs** (`Upgrade.Starts`, `Upgrade.Moves`): everything that the beginning of a run, and the end
  of a wait that is no crash, can make of the record and of the progress of the run.
* **Records at rest** (`Upgrade.AtRest`): the record of an upgrade that no run is under way for says
  where the next run starts, and whether the endpoint is out of the pool.
-/

namespace Rollout

/-! ## Stages -/

namespace Stage

theorem rank_injective {s t : Stage} (h : s.rank = t.rank) : s = t := by
  cases s <;> cases t <;> first | rfl | cases h

theorem rank_le (s : Stage) : s.rank ≤ 6 := by cases s <;> decide

theorem rank_eq_six {s : Stage} : s.rank = 6 ↔ s = done := by cases s <;> decide

theorem rank_lt_six {s : Stage} (h : s ≠ done) : s.rank < 6 :=
  Nat.lt_of_le_of_ne s.rank_le fun e => h (rank_eq_six.mp e)

theorem rank_next_of_ne {s : Stage} (h : s ≠ done) : s.next.rank = s.rank + 1 := by
  rw [rank_next]; have := rank_lt_six h; omega

end Stage

/-! ## Positions -/

namespace Position

theorem stage_ne_done (p : Position) : p.stage ≠ .done := by cases p <;> exact nofun

theorem enter_stage {j : Job} {now : Instant} {s : Stage} {p : Position}
    (h : enter j now s = some p) : p.stage = s := by
  cases s <;> simp only [enter, Option.some.injEq, reduceCtorEq] at h <;> subst h <;> rfl

theorem enter_eq_none {j : Job} {now : Instant} {s : Stage} : enter j now s = none ↔ s = .done := by
  cases s <;> simp [enter]

/-- The stages where a run waits more than once. -/
def Loops (s : Stage) : Prop := s = .killExisting ∨ s = .waitHealthy

theorem sendTo_stay (j : Job) (now : Instant) (s : Signal) (pids : List Pid) :
    ∃ q : Position, sendTo j now s pids = .stay q ∧ q.stage = .killExisting := by
  cases pids with
  | nil => exact ⟨_, rfl, rfl⟩
  | cons pid rest => exact ⟨_, rfl, rfl⟩

theorem sendTo_eq_stay {j : Job} {now : Instant} {s : Signal} {pids : List Pid} {q : Position}
    (h : sendTo j now s pids = .stay q) : q.stage = .killExisting := by
  obtain ⟨r, hr, hs⟩ := sendTo_stay j now s pids
  rw [hr] at h; cases h; exact hs

theorem sendTo_ne_passed {j : Job} {now : Instant} {s : Signal} {pids : List Pid} :
    sendTo j now s pids ≠ .passed := by
  obtain ⟨r, hr, -⟩ := sendTo_stay j now s pids
  rw [hr]; intro h; cases h

/-- Everything that can follow a lookup that found some processes. -/
inductive AfterLookup (j : Job) (now : Instant) (pids : List Pid) : Lookup → Step → Prop
  /-- No process runs. -/
  | idle : pids = [] → AfterLookup j now pids .first .passed
  /-- The processes are asked to end. -/
  | ask : pids ≠ [] → AfterLookup j now pids .first (sendTo j now .term pids)
  /-- The process that a signal did not reach is still there. -/
  | listed {s : Signal} {pid : Pid} {source : ExecError} {rest : List Pid} : pid ∈ pids →
    AfterLookup j now pids (.recheck s pid source rest) (.failed (.signal s pid source))
  /-- It is gone, and the next one is signalled. -/
  | unlisted {s : Signal} {pid : Pid} {source : ExecError} {rest : List Pid} : pid ∉ pids →
    AfterLookup j now pids (.recheck s pid source rest) (sendTo j now s rest)
  /-- All processes ended. -/
  | ended {s : Signal} {deadline : Instant} : pids = [] →
    AfterLookup j now pids (.untilGone s deadline) .passed
  /-- There is time left to look again. -/
  | again {s : Signal} {deadline : Instant} : pids ≠ [] → now < deadline →
    AfterLookup j now pids (.untilGone s deadline)
      (.stay (exitPause s deadline (now.wakeAfter j.timeouts.pollInterval)))
  /-- The processes outlast the first signal. -/
  | kill {deadline : Instant} : pids ≠ [] → deadline ≤ now →
    AfterLookup j now pids (.untilGone .term deadline) (sendTo j now .kill pids)
  /-- They outlast both. -/
  | outlast {deadline : Instant} : pids ≠ [] → deadline ≤ now →
    AfterLookup j now pids (.untilGone .kill deadline)
      (.failed (.stillRunning pids j.timeouts.killWait))

theorem after_lookedUp (j : Job) (now : Instant) (pids : List Pid) (why : Lookup) :
    AfterLookup j now pids why (lookedUp j now pids why) := by
  have hne (h : ¬ pids.isEmpty = true) : pids ≠ [] := fun hp => h (List.isEmpty_iff.mpr hp)
  cases why with
  | first =>
    simp only [lookedUp]
    split
    · exact .idle (List.isEmpty_iff.mp ‹_›)
    · exact .ask (hne ‹_›)
  | recheck s pid source rest =>
    simp only [lookedUp]
    split
    · exact .listed ‹_›
    · exact .unlisted ‹_›
  | untilGone s deadline =>
    simp only [lookedUp]
    split
    · exact .ended (List.isEmpty_iff.mp ‹_›)
    · split
      · cases s with
        | term => exact .kill (hne ‹_›) ‹_›
        | kill => exact .outlast (hne ‹_›) ‹_›
      · exact .again (hne ‹_›) (Nat.lt_of_not_le ‹_›)

theorem lookedUp_eq_stay {j : Job} {now : Instant} {pids : List Pid} {why : Lookup} {q : Position}
    (h : lookedUp j now pids why = .stay q) : q.stage = .killExisting := by
  have hafter := after_lookedUp j now pids why
  generalize lookedUp j now pids why = step at h hafter
  cases hafter with
  | idle | listed | ended | outlast => cases h
  | ask | unlisted | kill => exact sendTo_eq_stay h
  | again => cases h; rfl

/-- Only a lookup that finds no process ends the wait for the processes. -/
theorem lookedUp_eq_passed {j : Job} {now : Instant} {pids : List Pid} {why : Lookup}
    (h : lookedUp j now pids why = .passed) : pids = [] := by
  have hafter := after_lookedUp j now pids why
  generalize lookedUp j now pids why = step at h hafter
  cases hafter with
  | idle hnone | ended hnone => exact hnone
  | listed | again | outlast => cases h
  | ask | unlisted | kill => exact absurd h sendTo_ne_passed

theorem notHealthy_ne_passed {j : Job} {now deadline : Instant} :
    notHealthy j now deadline ≠ .passed := by
  simp only [notHealthy]
  split <;> intro h <;> cases h

/-- Everything that keeps a run in its stage: where it stood, and where it waits next. -/
inductive Stays (j : Job) (now : Instant) : Position → Position → Prop
  | lookup {why : Lookup} {pids : List Pid} {q : Position} :
    lookedUp j now pids why = .stay q → Stays j now (lookingUp why) q
  | signalled {s : Signal} {pid : Pid} {rest : List Pid} {q : Position} :
    sendTo j now s rest = .stay q → Stays j now (signalling s pid rest) q
  | unsent {s : Signal} {pid : Pid} {source : ExecError} {rest : List Pid} :
    Stays j now (signalling s pid rest) (lookingUp (.recheck s pid source rest))
  | awaited {s : Signal} {deadline until_ : Instant} :
    Stays j now (exitPause s deadline until_) (lookingUp (.untilGone s deadline))
  | unhealthy {deadline : Instant} : now < deadline →
    Stays j now (probing deadline)
      (probePause deadline (now.wakeAfter j.timeouts.pollInterval))
  | rested {deadline until_ : Instant} :
    Stays j now (probePause deadline until_) (probing deadline)

theorem stays_of_resume {j : Job} {now : Instant} {p q : Position} {r : (p.wait j).Result}
    (h : p.resume j now r = .stay q) : Stays j now p q := by
  cases p with
  | removing => simp only [resume] at h; split at h <;> cases h
  | lookingUp why =>
    simp only [resume] at h
    split at h
    · exact .lookup h
    · cases h
  | signalling s pid rest =>
    simp only [resume] at h
    split at h
    · exact .signalled h
    · cases h; exact .unsent
  | exitPause s deadline until_ => cases h; exact .awaited
  | copying => simp only [resume] at h; split at h <;> cases h
  | starting => simp only [resume] at h; split at h <;> cases h
  | probing deadline =>
    simp only [resume] at h
    split at h
    · cases h
    · simp only [notHealthy] at h
      split at h
      · cases h
      · cases h; exact .unhealthy (Nat.lt_of_not_le ‹_›)
  | probePause deadline until_ => cases h; exact .rested
  | adding => simp only [resume] at h; split at h <;> cases h

/-- A run that stays in a stage does so where it waits more than once. -/
theorem stay_of_resume {j : Job} {now : Instant} {p q : Position} {r : (p.wait j).Result}
    (h : p.resume j now r = .stay q) : q.stage = p.stage ∧ Loops p.stage := by
  cases stays_of_resume h with
  | lookup h => exact ⟨lookedUp_eq_stay h, .inl rfl⟩
  | signalled h => exact ⟨sendTo_eq_stay h, .inl rfl⟩
  | unsent | awaited => exact ⟨rfl, .inl rfl⟩
  | unhealthy | rested => exact ⟨rfl, .inr rfl⟩

/-- A stage ends with the success that it needs. -/
theorem succeeds_of_resume {j : Job} {now : Instant} {p : Position} {r : (p.wait j).Result}
    (h : p.resume j now r = .passed) : (Event.result r : Event (p.wait j)).succeeds p.stage := by
  cases p with
  | removing =>
    simp only [resume] at h
    split at h
    · exact ⟨rfl, rfl⟩
    · cases h
  | lookingUp why =>
    simp only [resume] at h
    split at h
    · rename_i pids hp
      rw [lookedUp_eq_passed h] at hp
      exact ⟨rfl, hp⟩
    · cases h
  | signalling s pid rest =>
    simp only [resume] at h
    split at h
    · exact absurd h sendTo_ne_passed
    · cases h
  | exitPause s deadline until_ => cases h
  | copying =>
    simp only [resume] at h
    split at h
    · exact ⟨rfl, _, rfl⟩
    · cases h
  | starting =>
    simp only [resume] at h
    split at h
    · exact ⟨rfl, rfl⟩
    · cases h
  | probing deadline =>
    simp only [resume] at h
    split at h
    · exact ⟨rfl, rfl⟩
    · exact absurd h notHealthy_ne_passed
  | probePause deadline until_ => cases h
  | adding =>
    simp only [resume] at h
    split at h
    · exact ⟨rfl, rfl⟩
    · cases h

theorem succeeds_of_passes {j : Job} {now : Instant} {p : Position} {e : Event (p.wait j)}
    (h : p.passes j now e = true) : e.succeeds p.stage := by
  cases e with
  | result r => exact succeeds_of_resume (by simpa [passes] using h)
  | stopped reason => cases h
  | crashed text => cases h

/-- The call of a position belongs to its stage, and copies the binary only in that stage. -/
theorem stage_of_call {j : Job} {p : Position} {c : Call} (h : (p.wait j).call? = some c) :
    c.stage? = some p.stage := by
  cases p <;> simp only [wait, Wait.call?, Option.some.injEq, reduceCtorEq] at h <;> subst h <;> rfl

end Position

/-! ## Runs -/

namespace Upgrade

/-- What the beginning of a run makes of the record: the first wait, the end at once because the
context has stopped, or the end because nothing is left to do. -/
inductive Starts (u : Upgrade) : Upgrade × Progress → Prop
  | waits (q : Position) : q.stage = u.entryStage →
    Starts u ({ u with started := true, current := u.entryStage }, .waiting q)
  | halts (reason : StopReason) : u.entryStage ≠ .done →
    Starts u ({ u with
      started := true, current := u.entryStage, failed := some u.entryStage,
      err := some (.context reason) }, .ended (.error (.context reason)))
  | finishes : u.entryStage = .done →
    Starts u ({ u with started := true, current := .done, err := none }, .ended (.ok ()))

/-- What the end of a wait makes of the record. `passed` says whether the stage has succeeded. -/
inductive Moves (u : Upgrade) : (passed : Bool) → Upgrade × Progress → Prop
  | stays (q : Position) : q.stage = u.current → Position.Loops u.current →
    Moves u false (u, .waiting q)
  | advances (q : Position) : u.current ≠ .done → q.stage = u.current.next →
    Moves u true ({ u with current := u.current.next }, .waiting q)
  | finishes : u.current.next = .done →
    Moves u true ({ u with current := .done, err := none }, .ended (.ok ()))
  | halts (reason : StopReason) : u.current.next ≠ .done →
    Moves u true ({ u with
      current := u.current.next, failed := some u.current.next, err := some (.context reason) },
      .ended (.error (.context reason)))
  | fails (e : UpgradeError) :
    Moves u false ({ u with failed := some u.current, err := some e }, .ended (.error e))

theorem starts (u : Upgrade) (j : Job) (ctx : Context) (m : Moment) :
    u.Starts (u.start j ctx m) := by
  unfold start enter
  split
  · rename_i h
    have hd := Position.enter_eq_none.mp h
    rw [hd]
    exact .finishes hd
  · rename_i p h
    have hp := Position.enter_stage h
    unfold guard
    split
    · refine .halts _ fun hd => ?_
      rw [Position.enter_eq_none.mpr hd] at h
      cases h
    · exact .waits p hp

theorem moves {u : Upgrade} {j : Job} {ctx : Context} {m : Moment} {p : Position}
    (hp : p.stage = u.current) {e : Event (p.wait j)} (he : e.IsCalm) :
    u.Moves (p.passes j m.now e) (u.resume j ctx m p e) := by
  cases e with
  | crashed text => exact he.elim
  | stopped reason => exact .fails _
  | result r =>
    simp only [resume, Position.passes]
    cases hr : p.resume j m.now r with
    | failed e => exact .fails e
    | stay q =>
      obtain ⟨hq, hl⟩ := Position.stay_of_resume hr
      simp only [take, guard]
      split
      · exact .fails _
      · exact .stays q (hq.trans hp) (hp ▸ hl)
    | passed =>
      simp only [take, enter, decide_true]
      split
      · rename_i h
        have hd := Position.enter_eq_none.mp h
        rw [hd]
        exact .finishes hd
      · rename_i q h
        have hn : u.current.next ≠ .done := fun hd => by
          rw [Position.enter_eq_none.mpr hd] at h; cases h
        simp only [guard]
        split
        · exact .halts _ hn
        · exact .advances q (fun hd => hn (by rw [hd]; rfl)) (Position.enter_stage h)

/-! ## Records at rest -/

/-- The record of an upgrade when no run of it is under way: a finished one has no error, another
begins again at the stage that it reached last, and one that left the first stage behind it has
failed. -/
structure AtRest (u : Upgrade) : Prop where
  done : u.current = .done → u.err = none
  entry : u.current ≠ .done → u.entryStage = u.current
  failed : u.current ≠ .done → u.current ≠ .initial → u.err.isSome ∧ u.failed.isSome

theorem AtRest.fresh (endpoint : String) (b : Backend) : (fresh endpoint b).AtRest :=
  ⟨fun h => (nomatch h), fun _ => rfl, fun _ h => (h rfl).elim⟩

theorem AtRest.refuse {u : Upgrade} (h : u.AtRest) (src : String) (e : IoError)
    (hd : u.current ≠ .done) : (u.refuse src e).1.AtRest :=
  ⟨fun hc => absurd hc hd, h.entry, fun hc hi => ⟨rfl, (h.failed hc hi).2⟩⟩

/-- A record with its error at the current stage. -/
theorem AtRest.of_failed {u : Upgrade} (hd : u.current ≠ .done) (hf : u.failed = some u.current)
    (he : u.err.isSome) : u.AtRest :=
  ⟨fun h => absurd h hd, fun _ => by rw [entryStage, hf]; rfl, fun _ _ => ⟨he, by rw [hf]; rfl⟩⟩

theorem AtRest.of_done {u : Upgrade} (hd : u.current = .done) (he : u.err = none) : u.AtRest :=
  ⟨fun _ => he, fun h => absurd hd h, fun h => absurd hd h⟩

end Upgrade

end Rollout
