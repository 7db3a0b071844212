import Rollout.Proofs.Fleet.Order
import Rollout.Proofs.Upgrade.Pool
import Rollout.Proofs.Upgrade.Resume

/-!
# A reply of the load balancer that is lost

A call that takes an endpoint out of its pool, or puts it back, may change the table although its
caller hears an error or gives up. The next run begins with the same call, which the table now
refuses.

* **The two calls** (`PoolStep`): what each of them does to the table, and how it is refused once
  that is done.
* **Lost replies** (`Table.Loses`, `Table.Tells`): what a caller may hear, and what it hears where
  no reply is lost.
* **Runs over a table** (`Upgrade.RunOver`, `Upgrade.Retries`): others may change the table too, but
  not whether the pool has the endpoint.
* **The law** (`Upgrade.lost_reply`): no later run gets past the stage, whatever it hears. From a
  step (`PoolStep.halts`), by induction over a run (`RunOver.stalls`) and over the runs
  (`Retries.stuck`).
-/

namespace Rollout

/-! ## The two calls -/

namespace Table

/-- Whether a pool has a backend; none where there is no such pool. -/
def holds? (t : Table) (pattern : String) (b : Backend) : Option Bool :=
  (t.pool? pattern).map (·.has b)

variable {t t' : Table} {pattern : String} {b : Backend}

theorem holds?_of_remove (h : t.removeBackend pattern b = .ok t') :
    t'.holds? pattern b = some false := by
  unfold removeBackend at h
  split at h
  · cases h
  · rename_i p _
    split at h
    · cases h
      rw [holds?, pool?_put_self, Option.map_some, Option.some.injEq, ← Bool.not_eq_true,
        Pool.has_iff, Pool.mem_drop]
      exact fun hb => hb.2 rfl
    · cases h

theorem holds?_of_add (h : t.addBackend pattern b = .ok t') :
    t'.holds? pattern b = some true := by
  unfold addBackend at h
  split at h
  · cases h
  · rename_i p _
    split at h
    · cases h
    · cases h
      rw [holds?, pool?_put_self, Option.map_some, Option.some.injEq, Pool.has_iff, Pool.mem_add]
      exact .inr rfl

theorem remove_of_holds? (h : t.holds? pattern b = some false) :
    t.removeBackend pattern b = .error (.backendNotFound pattern b) := by
  obtain ⟨p, hp, hb⟩ := Option.map_eq_some_iff.mp h
  rw [removeBackend, hp]
  simp [hb]

theorem add_of_holds? (h : t.holds? pattern b = some true) :
    t.addBackend pattern b = .error (.backendExists pattern b) := by
  obtain ⟨p, hp, hb⟩ := Option.map_eq_some_iff.mp h
  rw [addBackend, hp]
  simp [hb]

end Table

/-- The two steps of an upgrade that change its pool. -/
inductive PoolStep where
  | leave
  | join

namespace PoolStep

/-- Where a run waits for the call. -/
def position : PoolStep → Position
  | leave => .removing
  | join => .adding

/-- The stage of the call. -/
def stage (x : PoolStep) : Stage := x.position.stage

/-- The call. -/
def call (pattern : String) (b : Backend) : PoolStep → Call
  | leave => .removeBackend pattern b
  | join => .addBackend pattern b

/-- What the call makes of a table. -/
def change (t : Table) (pattern : String) (b : Backend) : PoolStep → Except PoolError Table
  | leave => t.removeBackend pattern b
  | join => t.addBackend pattern b

/-- Whether the pool has the backend when the call is done. -/
def outcome : PoolStep → Bool
  | leave => false
  | join => true

/-- How a table where the call is done already refuses it. -/
def refusal (pattern : String) (b : Backend) : PoolStep → PoolError
  | leave => .backendNotFound pattern b
  | join => .backendExists pattern b

/-- The error of the stage where the call fails. -/
def fault : PoolStep → PoolError → UpgradeError
  | leave => .removeBackend
  | join => .addBackend

variable {x : PoolStep} {t t' : Table} {pattern : String} {b : Backend}

theorem holds?_of_change (h : x.change t pattern b = .ok t') :
    t'.holds? pattern b = some x.outcome := by
  cases x with
  | leave => exact Table.holds?_of_remove h
  | join => exact Table.holds?_of_add h

theorem change_of_holds? (h : t.holds? pattern b = some x.outcome) :
    x.change t pattern b = .error (x.refusal pattern b) := by
  cases x with
  | leave => exact Table.remove_of_holds? h
  | join => exact Table.add_of_holds? h

theorem wait_call (x : PoolStep) (j : Job) :
    (x.position.wait j).call? = some (x.call j.config.pattern j.backend) := by
  cases x <;> rfl

theorem enter_eq (x : PoolStep) (j : Job) (now : Instant) :
    Position.enter j now x.stage = some x.position := by
  cases x <;> rfl

end PoolStep

/-! ## Lost replies -/

namespace Table

/-- What a call that would change the table does to it, and what the caller hears; none where the
caller has given up. An error of the table is heard as `tell` says. A reply may be lost, whether the
table has changed or not, and another error is heard in its place. -/
inductive Replies (tell : PoolError → PoolError) (t : Table) (change : Except PoolError Table) :
    Option (Except PoolError Unit) → Table → Prop
  | answered {r : Except PoolError Unit} {t' : Table} : t.Serves change r t' →
    Replies tell t change (some (r.mapError tell)) t'
  | lost {t' : Table} (e : Option PoolError) : t' = t ∨ change = .ok t' →
    Replies tell t change (e.map .error) t'

/-- How a wait can end, and what becomes of the table, where replies may be lost. -/
def Loses (tell : PoolError → PoolError) (t : Table) : (w : Wait) → Event w → Table → Prop
  | .call (.removeBackend pattern b), .result r, t' =>
    t.Replies tell (t.removeBackend pattern b) (some r) t'
  | .call (.removeBackend pattern b), _, t' => t.Replies tell (t.removeBackend pattern b) none t'
  | .call (.addBackend pattern b), .result r, t' =>
    t.Replies tell (t.addBackend pattern b) (some r) t'
  | .call (.addBackend pattern b), _, t' => t.Replies tell (t.addBackend pattern b) none t'
  | _, _, t' => t' = t

/-- The same where no reply is lost, and nothing is given up. -/
def Tells (tell : PoolError → PoolError) (t : Table) : (w : Wait) → Event w → Table → Prop
  | .call (.removeBackend pattern b), .result r, t' =>
    ∃ r', r = r'.mapError tell ∧ t.Serves (t.removeBackend pattern b) r' t'
  | .call (.addBackend pattern b), .result r, t' =>
    ∃ r', r = r'.mapError tell ∧ t.Serves (t.addBackend pattern b) r' t'
  | _, .result _, t' => t' = t
  | _, _, _ => False

variable {tell : PoolError → PoolError} {t t' : Table} {change : Except PoolError Table}

/-- A table that refuses a change does not change, and nobody hears that it did. -/
theorem Replies.of_error {e : PoolError} {heard : Option (Except PoolError Unit)}
    (h : t.Replies tell change heard t') (hc : change = .error e) :
    t' = t ∧ ∀ r, heard = some r → ∃ e', r = .error e' := by
  cases h with
  | @answered r _ h =>
    rw [hc] at h
    obtain ⟨rfl, rfl⟩ := h
    exact ⟨rfl, fun r hr => ⟨tell e, (Option.some.inj hr).symm⟩⟩
  | lost e' h =>
    refine ⟨h.resolve_right (by rw [hc]; exact nofun), fun r hr => ?_⟩
    obtain ⟨e'', -, rfl⟩ := Option.map_eq_some_iff.mp hr
    exact ⟨e'', rfl⟩

/-- The table is as it was, or as the change makes it. -/
theorem Replies.table {heard : Option (Except PoolError Unit)}
    (h : t.Replies tell change heard t') : t' = t ∨ change = .ok t' := by
  cases h with
  | answered h =>
    cases change with
    | ok changed => exact .inr (congrArg _ h.2.symm)
    | error e => exact .inl h.2
  | lost e h => exact h

end Table

namespace PoolStep

variable {x : PoolStep} {tell : PoolError → PoolError} {t t' : Table} {j : Job} {u : Upgrade}
  {ctx : Context} {m : Moment}

/-- What the caller hears; none where it has given up or crashed. -/
def heard? : (x : PoolStep) → Event (x.position.wait j) → Option (Except PoolError Unit)
  | leave, .result r | join, .result r => some r
  | _, _ => none

theorem replies_of_loses {e : Event (x.position.wait j)}
    (h : t.Loses tell (x.position.wait j) e t') :
    t.Replies tell (x.change t j.config.pattern j.backend) (x.heard? e) t' := by
  cases x <;> cases e <;> exact h

theorem serves_of_tells {e : Event (x.position.wait j)}
    (h : t.Tells tell (x.position.wait j) e t') :
    ∃ r, x.heard? e = some (r.mapError tell) ∧
      t.Serves (x.change t j.config.pattern j.backend) r t' := by
  cases x <;> cases e <;> first
    | exact h.elim
    | obtain ⟨r, hr, hs⟩ := h
      exact ⟨r, congrArg some hr, hs⟩

/-- A success ends the stage. -/
theorem passes_of_ok {e : Event (x.position.wait j)} (h : x.heard? e = some (.ok ()))
    (now : Instant) : x.position.passes j now e = true := by
  cases x <;> cases e <;> cases h <;> rfl

/-- An error ends the run. -/
theorem resume_of_error {e : Event (x.position.wait j)} {err : PoolError}
    (h : x.heard? e = some (.error err)) :
    x.position.passes j m.now e = false ∧
      u.resume j ctx m x.position e = u.fail (x.fault err) := by
  cases x <;> cases e <;> cases h <;> exact ⟨rfl, rfl⟩

/-- A caller that hears nothing was stopped, or crashed. -/
theorem resume_of_none {e : Event (x.position.wait j)} (h : x.heard? e = none) :
    x.position.passes j m.now e = false ∧
      ((∃ err, u.resume j ctx m x.position e = u.fail err) ∨
        ∃ text, u.resume j ctx m x.position e = (u, .crashed text)) := by
  cases e with
  | result r => cases x <;> cases h
  | stopped reason => exact ⟨rfl, .inl ⟨_, rfl⟩⟩
  | crashed text => exact ⟨rfl, .inr ⟨_, rfl⟩⟩

/-- Where the call is done already it ends the run, and changes nothing. -/
theorem halts {e : Event (x.position.wait j)}
    (ht : t.holds? j.config.pattern j.backend = some x.outcome)
    (h : t.Loses tell (x.position.wait j) e t') (u : Upgrade) (ctx : Context) (m : Moment) :
    t' = t ∧ x.position.passes j m.now e = false ∧
      ((∃ err, u.resume j ctx m x.position e = u.fail err) ∨
        ∃ text, u.resume j ctx m x.position e = (u, .crashed text)) := by
  obtain ⟨htable, herror⟩ := (replies_of_loses h).of_error (change_of_holds? ht)
  refine ⟨htable, ?_⟩
  cases hh : x.heard? e with
  | none => exact resume_of_none hh
  | some r =>
    obtain ⟨err, rfl⟩ := herror r hh
    obtain ⟨hpass, hr⟩ := resume_of_error hh
    exact ⟨hpass, .inl ⟨_, hr⟩⟩

/-- Where no reply is lost it ends the run with the refusal of the table. -/
theorem refuses {e : Event (x.position.wait j)}
    (ht : t.holds? j.config.pattern j.backend = some x.outcome)
    (h : t.Tells tell (x.position.wait j) e t') (u : Upgrade) (ctx : Context) (m : Moment) :
    t' = t ∧ u.resume j ctx m x.position e =
      u.fail (x.fault (tell (x.refusal j.config.pattern j.backend))) := by
  obtain ⟨r, hr, hs⟩ := serves_of_tells h
  rw [change_of_holds? ht] at hs
  obtain ⟨rfl, rfl⟩ := hs
  exact ⟨rfl, (resume_of_error hr).2⟩

theorem exists_refusal (tell : PoolError → PoolError)
    (ht : t.holds? j.config.pattern j.backend = some x.outcome) :
    ∃ e, t.Tells tell (x.position.wait j) e t := by
  have hc := change_of_holds? ht
  have hs : t.Serves (x.change t j.config.pattern j.backend)
      (.error (x.refusal j.config.pattern j.backend)) t := by
    rw [hc]
    exact ⟨rfl, rfl⟩
  cases x with
  | leave => exact ⟨.result _, _, rfl, hs⟩
  | join => exact ⟨.result _, _, rfl, hs⟩

/-- Where the call is still to be done, and no reply is lost, it ends its stage with success. -/
theorem accepts {changed : Table} {e : Event (x.position.wait j)}
    (hc : x.change t j.config.pattern j.backend = .ok changed)
    (h : t.Tells tell (x.position.wait j) e t') (now : Instant) :
    t' = changed ∧ x.position.passes j now e = true := by
  obtain ⟨r, hr, hs⟩ := serves_of_tells h
  rw [hc] at hs
  obtain ⟨rfl, rfl⟩ := hs
  exact ⟨rfl, passes_of_ok hr now⟩

end PoolStep

/-! ## Runs over a table -/

namespace Upgrade

/-- A run of an upgrade over the table of a load balancer, and what it did so far. `hears` says how
its waits can end. Others may change the table, but not whether the pool has the endpoint. -/
inductive RunOver (hears : Table → (w : Wait) → Event w → Table → Prop) (u : Upgrade) (j : Job)
    (ctx : Context) (t : Table) : List Deed → Upgrade × Progress → Table → Prop
  | start (m : Moment) : RunOver hears u j ctx t (u.startDeeds j ctx m) (u.start j ctx m) t
  | others {deeds : List Deed} {y : Upgrade × Progress} {t' t'' : Table} :
    RunOver hears u j ctx t deeds y t' →
      t''.holds? j.config.pattern j.backend = t'.holds? j.config.pattern j.backend →
      RunOver hears u j ctx t deeds y t''
  | resume {deeds : List Deed} {v : Upgrade} {p : Position} {t' t'' : Table} (m : Moment)
    (e : Event (p.wait j)) : RunOver hears u j ctx t deeds (v, .waiting p) t' →
      hears t' (p.wait j) e t'' →
      RunOver hears u j ctx t (deeds ++ v.resumeDeeds j ctx m p e) (v.resume j ctx m p e) t''

/-- Any number of runs that ended, over the table of a load balancer that may lose its replies. Each
has its own context and its own binary. -/
inductive Retries (tell : PoolError → PoolError) (c : Config) (timeouts : StageTimeouts)
    (u : Upgrade) (t : Table) : List Trial → Upgrade → Table → Prop
  | none : Retries tell c timeouts u t [] u t
  | refused {trials : List Trial} {v w : Upgrade} {t' : Table} {e : IoError}
    {result : Except UpgradeError Unit} : Retries tell c timeouts u t trials v t' →
      v.refuse c.src e = (w, .ended result) →
      Retries tell c timeouts u t (trials ++ [⟨.error e, [], result⟩]) w t'
  | ran {trials : List Trial} {v w : Upgrade} {t' t'' : Table} {source : Entry} {ctx : Context}
    {deeds : List Deed} {result : Except UpgradeError Unit} :
    Retries tell c timeouts u t trials v t' →
      RunOver (Table.Loses tell) v ⟨c, timeouts, v.endpoint, v.backend, source⟩ ctx t' deeds
        (w, .ended result) t'' →
      Retries tell c timeouts u t (trials ++ [⟨.ok source, deeds, result⟩]) w t''

variable {hears : Table → (w : Wait) → Event w → Table → Prop} {tell : PoolError → PoolError}
  {u v w : Upgrade} {j : Job} {ctx : Context} {t t' t'' : Table} {deeds : List Deed}
  {y : Upgrade × Progress} {x : PoolStep} {c : Config} {timeouts : StageTimeouts}

theorem RunOver.walk (h : RunOver hears u j ctx t deeds y t') : Walk u j ctx deeds y := by
  induction h with
  | start m => exact .start m
  | others _ _ ih => exact ih
  | resume m e _ _ ih => exact .resume m e ih

/-- A run that does not get past a call that its table refuses. -/
structure Stalls (x : PoolStep) (j : Job) (deeds : List Deed) (y : Upgrade × Progress)
    (t : Table) : Prop where
  table : t.holds? j.config.pattern j.backend = some x.outcome
  entry : y.1.entryStage = x.stage
  current : y.1.current = x.stage
  passed : deeds.filterMap Deed.passed? = []
  calls : ∀ call ∈ deeds.filterMap Deed.called?, call = x.call j.config.pattern j.backend
  progress : y.2 = .waiting x.position ∨ (∃ e, y.2 = .ended (.error e)) ∨
    ∃ text, y.2 = .crashed text

theorem start_eq (hu : u.entryStage = x.stage) (m : Moment) : u.start j ctx m =
    ({ u with started := true, current := x.stage } : Upgrade).guard ctx m x.position := by
  rw [start, hu, enter, x.enter_eq]

theorem Stalls.start (ht : t.holds? j.config.pattern j.backend = some x.outcome)
    (hu : u.entryStage = x.stage) (m : Moment) :
    Stalls x j (u.startDeeds j ctx m) (u.start j ctx m) t := by
  unfold startDeeds
  rw [start_eq hu]
  unfold guard
  cases ctx.stopped m with
  | none =>
    refine ⟨ht, hu, rfl, ?_, fun call hc => ?_, .inl rfl⟩
    · show (_ :: ((x.position.wait j).call?.map Deed.called).toList).filterMap Deed.passed? = _
      rw [x.wait_call]
      rfl
    · change call ∈ (_ :: ((x.position.wait j).call?.map Deed.called).toList).filterMap
        Deed.called? at hc
      rw [x.wait_call] at hc
      exact List.mem_singleton.mp hc
  | some reason =>
    exact ⟨ht, rfl, rfl, rfl, fun call hc => absurd hc List.not_mem_nil, .inr (.inl ⟨_, rfl⟩)⟩

/-- A run that may lose replies, from the stage of a call that is done already. -/
theorem RunOver.stalls (h : RunOver (Table.Loses tell) u j ctx t deeds y t')
    (ht : t.holds? j.config.pattern j.backend = some x.outcome) (hu : u.entryStage = x.stage) :
    Stalls x j deeds y t' := by
  induction h with
  | start m => exact .start ht hu m
  | others _ hsame ih => exact { ih with table := hsame.trans ih.table }
  | @resume deeds v p t₁ t₂ m e _ he ih =>
    obtain ⟨htable, hentry, hcurrent, hpassed, hcalls, hprogress⟩ := ih
    obtain rfl : p = x.position := by
      rcases hprogress with hp | ⟨_, hp⟩ | ⟨_, hp⟩ <;> cases hp
      rfl
    obtain ⟨rfl, hpass, hends⟩ := PoolStep.halts htable he v ctx m
    have hdeeds : v.resumeDeeds j ctx m x.position e = [.heard _ e] := by
      rw [resumeDeeds, hpass]
      rcases hends with ⟨err, hr⟩ | ⟨text, hr⟩ <;> rw [hr] <;> rfl
    rw [hdeeds]
    refine ⟨htable, ?_, ?_, ?_, ?_, ?_⟩
    · rcases hends with ⟨err, hr⟩ | ⟨text, hr⟩ <;> rw [hr]
      · rw [← hcurrent]; rfl
      · exact hentry
    · rcases hends with ⟨err, hr⟩ | ⟨text, hr⟩ <;> rw [hr] <;> exact hcurrent
    · rw [List.filterMap_append, hpassed]
      rfl
    · rw [List.filterMap_append]
      simpa [Deed.called?] using hcalls
    · rcases hends with ⟨err, hr⟩ | ⟨text, hr⟩ <;> rw [hr]
      · exact .inr (.inl ⟨err, rfl⟩)
      · exact .inr (.inr ⟨text, rfl⟩)

theorem Walk.backend (h : Walk u j ctx deeds y) : y.1.backend = u.backend := by
  induction h with
  | start m => exact backend_enter _
  | resume m e _ ih => exact (backend_resume _ e).trans ih

/-- What is true of an upgrade after runs from the stage of a call that was done already. -/
structure Stuck (x : PoolStep) (c : Config) (w : Upgrade) (trials : List Trial) (v : Upgrade)
    (t : Table) : Prop where
  table : t.holds? c.pattern w.backend = some x.outcome
  entry : v.entryStage = x.stage
  backend : v.backend = w.backend
  failed : ∀ trial ∈ trials, ∃ e, trial.result = .error e
  passed : ∀ trial ∈ trials, trial.passed = []
  calls : ∀ trial ∈ trials, ∀ call ∈ trial.calls, call = x.call c.pattern w.backend

/-- One more run that failed. -/
theorem Stuck.next {trials : List Trial} {v v' : Upgrade} {trial : Trial}
    (h : Stuck x c w trials v t) (ht : t'.holds? c.pattern w.backend = some x.outcome)
    (hentry : v'.entryStage = x.stage) (hbackend : v'.backend = v.backend)
    (hfailed : ∃ e, trial.result = .error e) (hpassed : trial.passed = [])
    (hcalls : ∀ call ∈ trial.calls, call = x.call c.pattern w.backend) :
    Stuck x c w (trials ++ [trial]) v' t' where
  table := ht
  entry := hentry
  backend := hbackend.trans h.backend
  failed := List.forall_mem_append.mpr ⟨h.failed, List.forall_mem_singleton.mpr hfailed⟩
  passed := List.forall_mem_append.mpr ⟨h.passed, List.forall_mem_singleton.mpr hpassed⟩
  calls := List.forall_mem_append.mpr ⟨h.calls, List.forall_mem_singleton.mpr hcalls⟩

/-- No later run gets past the stage, whatever it hears. -/
theorem Retries.stuck {trials : List Trial} (h : Retries tell c timeouts w t trials v t')
    (ht : t.holds? c.pattern w.backend = some x.outcome) (hw : w.entryStage = x.stage) :
    Stuck x c w trials v t' := by
  induction h with
  | none =>
    exact ⟨ht, hw, rfl, fun _ h => absurd h List.not_mem_nil, fun _ h => absurd h List.not_mem_nil,
      fun _ h => absurd h List.not_mem_nil⟩
  | refused _ hr ih =>
    cases hr
    exact ih.next ih.table ih.entry rfl ⟨_, rfl⟩ rfl fun _ h => absurd h List.not_mem_nil
  | @ran trials v v' t₁ t₂ source ctx deeds result _ hrun ih =>
    have htable : t₁.holds? c.pattern v.backend = some x.outcome := by
      rw [ih.backend]
      exact ih.table
    have hs := hrun.stalls htable ih.entry
    have hb : v'.backend = v.backend := hrun.walk.backend
    obtain ⟨e, rfl⟩ : ∃ e, result = .error e := by
      rcases hs.progress with hp | ⟨e, hp⟩ | ⟨_, hp⟩ <;> cases hp
      exact ⟨e, rfl⟩
    refine ih.next ?_ hs.entry hb ⟨e, rfl⟩ hs.passed ?_
    · rw [← ih.backend]
      exact hs.table
    · rw [← ih.backend]
      exact hs.calls

/-- A run where no reply is lost, within a context that does not stop, from the stage of a call that
is done already: it waits for the reply to that call, or it ended with the refusal. -/
theorem RunOver.refused (h : RunOver (Table.Tells tell) u j ctx t deeds y t')
    (ht : t.holds? j.config.pattern j.backend = some x.outcome) (hu : u.entryStage = x.stage)
    (live : ∀ m, ctx.stopped m = none) :
    t'.holds? j.config.pattern j.backend = some x.outcome ∧ (y.2 = .waiting x.position ∨
      y.2 = .ended (.error (x.fault (tell (x.refusal j.config.pattern j.backend))))) := by
  induction h with
  | start m =>
    rw [start_eq hu, guard, live m]
    exact ⟨ht, .inl rfl⟩
  | others _ hsame ih => exact ⟨hsame.trans ih.1, ih.2⟩
  | @resume deeds v p t₁ t₂ m e _ he ih =>
    obtain ⟨htable, hprogress⟩ := ih
    obtain rfl : p = x.position := by
      rcases hprogress with hp | hp <;> cases hp
      rfl
    obtain ⟨rfl, hr⟩ := PoolStep.refuses htable he v ctx m
    rw [hr]
    exact ⟨htable, .inr rfl⟩

/-- Such a run does end. -/
theorem exists_refused (tell : PoolError → PoolError)
    (ht : t.holds? j.config.pattern j.backend = some x.outcome) (hu : u.entryStage = x.stage)
    (live : ∀ m, ctx.stopped m = none) (m : Moment) :
    ∃ deeds v, RunOver (Table.Tells tell) u j ctx t deeds
      (v, .ended (.error (x.fault (tell (x.refusal j.config.pattern j.backend))))) t := by
  obtain ⟨e, he⟩ := PoolStep.exists_refusal tell ht
  have start : RunOver (Table.Tells tell) u j ctx t _ _ t := .start m
  rw [start_eq hu, guard, live m] at start
  have done := start.resume m e he
  rw [(PoolStep.refuses ht he _ ctx m).2] at done
  exact ⟨_, _, done⟩

/-! ## The law -/

/-- What a run of an upgrade works with that opens the binary as `source`. -/
def job (u : Upgrade) (c : Config) (timeouts : StageTimeouts) (source : Entry) : Job :=
  ⟨c, timeouts, u.endpoint, u.backend, source⟩

/-- An upgrade that never gets past the stage of a call again: however often it runs, each run fails
there and makes no other call. A run where no reply is lost, within a context that does not stop,
ends with the refusal of the table. -/
structure Locked (tell : PoolError → PoolError) (x : PoolStep) (c : Config)
    (timeouts : StageTimeouts) (w : Upgrade) (t : Table) : Prop where
  stuck : ∀ {trials v t'}, Retries tell c timeouts w t trials v t' → Stuck x c w trials v t'
  refused : ∀ {trials v t' source ctx deeds y t''}, Retries tell c timeouts w t trials v t' →
    (∀ m, ctx.stopped m = none) →
    RunOver (Table.Tells tell) v (v.job c timeouts source) ctx t' deeds y t'' →
      y.2 = .waiting x.position ∨
      y.2 = .ended (.error (x.fault (tell (x.refusal c.pattern w.backend))))
  ends : ∀ {trials v t' ctx} (source : Entry), Retries tell c timeouts w t trials v t' →
    (∀ m, ctx.stopped m = none) → ∃ deeds v',
      RunOver (Table.Tells tell) v (v.job c timeouts source) ctx t' deeds
        (v', .ended (.error (x.fault (tell (x.refusal c.pattern w.backend))))) t'

/-- An upgrade whose next run makes the call of a stage first, and gets past the stage when the
reply to it is not lost. -/
structure Free (tell : PoolError → PoolError) (x : PoolStep) (c : Config) (timeouts : StageTimeouts)
    (w : Upgrade) (t : Table) : Prop where
  waits : ∀ {source ctx m}, ctx.stopped m = none →
    (w.start (w.job c timeouts source) ctx m).2 = .waiting x.position
  passes : ∀ {source t'} {e : Event (x.position.wait (w.job c timeouts source))} (now : Instant),
    t.Tells tell (x.position.wait (w.job c timeouts source)) e t' →
    x.change t c.pattern w.backend = .ok t' ∧ x.position.passes _ now e = true

theorem locked_of_change {t₁ : Table} (hw : w.entryStage = x.stage)
    (hc : x.change t₁ c.pattern w.backend = .ok t) : Locked tell x c timeouts w t := by
  have ht := PoolStep.holds?_of_change hc
  refine ⟨fun h => h.stuck ht hw, fun h live hrun => ?_, fun source h live => ?_⟩
  · have hs := h.stuck ht hw
    rw [← hs.backend]
    exact (hrun.refused (by rw [job, hs.backend]; exact hs.table) hs.entry live).2
  · have hs := h.stuck ht hw
    rw [← hs.backend]
    exact exists_refused tell (by rw [job, hs.backend]; exact hs.table) hs.entry live ⟨0, []⟩

theorem free_of_change {changed : Table} (hw : w.entryStage = x.stage)
    (hc : x.change t c.pattern w.backend = .ok changed) : Free tell x c timeouts w t where
  waits hlive := by
    rw [start_eq hw, guard, hlive]
  passes now h := by
    obtain ⟨rfl, hp⟩ := PoolStep.accepts hc h now
    exact ⟨hc, hp⟩

/-- **A lost reply.** Whatever is recorded of an upgrade, let a run of it hear an error of the call
that takes its endpoint out of the pool or puts it back, or be stopped in it. The run ends with an
error at that stage.

1. Where the table had changed all the same, no number of later runs gets past the stage, whatever
   becomes of their replies. They leave the endpoint out of the pool, or in it, and each fails with
   the refusal of the table unless it is stopped or its own reply is lost.
2. Where the table had not changed, but would have, the next run makes the same call first, and gets
   past the stage unless its reply is lost again. -/
theorem lost_reply {source : Entry} {t₁ t₂ : Table} {m : Moment}
    {e : Event (x.position.wait (u.job c timeouts source))}
    (run : RunOver (Table.Loses tell) u (u.job c timeouts source) ctx t deeds
      (v, .waiting x.position) t₁)
    (heard : t₁.Loses tell (x.position.wait (u.job c timeouts source)) e t₂) (calm : e.IsCalm)
    (failed : x.position.passes (u.job c timeouts source) m.now e = false) :
    ∃ w err, v.resume (u.job c timeouts source) ctx m x.position e = (w, .ended (.error err)) ∧
      w.backend = u.backend ∧ w.err = some err ∧ w.failed = some x.stage ∧
      (t₂ = t₁ ∨ x.change t₁ c.pattern u.backend = .ok t₂) ∧
      (x.change t₁ c.pattern u.backend = .ok t₂ → Locked tell x c timeouts w t₂) ∧
      (t₂ = t₁ → (∃ changed, x.change t₁ c.pattern u.backend = .ok changed) →
        Free tell x c timeouts w t₁) := by
  have hstage : x.position.stage = v.current := (run.walk.walked nofun).2.1
  have hbackend : v.backend = u.backend := run.walk.backend
  obtain ⟨err, herr⟩ : ∃ err, v.resume (u.job c timeouts source) ctx m x.position e =
      ({ v with failed := some v.current, err := some err }, .ended (.error err)) := by
    have hm : v.Moves _ (v.resume (u.job c timeouts source) ctx m x.position e) :=
      moves hstage calm
    rw [failed] at hm
    generalize v.resume (u.job c timeouts source) ctx m x.position e = r at hm
    cases hm with
    | fails err => exact ⟨err, rfl⟩
    | stays q _ hl =>
      -- The stage waits only once.
      rw [← hstage] at hl
      cases x <;> rcases hl with hl | hl <;> cases hl
  refine ⟨_, err, herr, hbackend, rfl, congrArg some hstage.symm,
    (PoolStep.replies_of_loses heard).table, fun hc => ?_, fun _ hc => ?_⟩
  · exact locked_of_change hstage.symm (by rw [hbackend]; exact hc)
  · obtain ⟨changed, hc⟩ := hc
    exact free_of_change hstage.symm (by rw [hbackend]; exact hc)

end Upgrade

/-! ## A removal that times out -/

/-- One address in a pool. -/
def soleConfig : Config :=
  { (default : Config) with
    concurrency := 1, src := "web", lb := "127.0.0.1:8000", pattern := "/"
    backends := ["10.0.0.1:80"] }

/-- The endpoint at the address. -/
def soleUpgrade : Upgrade := .fresh "10.0.0.1:80" ⟨.v4 ⟨10, 0, 0, 1⟩, 80⟩

/-- The pool with the endpoint, and without it. -/
def solePool (members : List Backend) : Table := Table.empty.seed "/" members

/-- How a removal that the table refuses is heard over the wire. -/
def heardStatus (e : PoolError) : PoolError := .status "/v1/backend/remove" 404 e.message

/-- The endpoint is removed, but the caller hears only that its time is up. The next run hears that
the endpoint is not there, and no run puts it back. -/
theorem lost_reply_removed : ∃ deeds w,
    soleUpgrade.RunOver (Table.Loses heardStatus) (soleUpgrade.job soleConfig .standard .directory)
      .background (solePool [soleUpgrade.backend]) deeds
      (w, .ended (.error (.removeBackend (.timeout "/v1/backend/remove")))) (solePool []) ∧
    w.Locked heardStatus .leave soleConfig .standard (solePool []) ∧
    ∃ deeds v, w.RunOver (Table.Tells heardStatus) (w.job soleConfig .standard .directory)
      .background (solePool []) deeds (v, .ended (.error (.removeBackend (.status
        "/v1/backend/remove" 404 "backend 10.0.0.1:80 not in pool \"/\"")))) (solePool []) := by
  have removed : PoolStep.leave.change (solePool [soleUpgrade.backend]) soleConfig.pattern
      soleUpgrade.backend = .ok (solePool []) := rfl
  have run : soleUpgrade.RunOver (Table.Loses heardStatus)
      (soleUpgrade.job soleConfig .standard .directory) .background
      (solePool [soleUpgrade.backend]) _ ({ soleUpgrade with started := true },
        .waiting PoolStep.leave.position) (solePool [soleUpgrade.backend]) := .start ⟨0, []⟩
  have heard : (solePool [soleUpgrade.backend]).Loses heardStatus
      (PoolStep.leave.position.wait (soleUpgrade.job soleConfig .standard .directory))
      (.result (.error (.timeout "/v1/backend/remove"))) (solePool []) :=
    .lost (some (.timeout "/v1/backend/remove")) (.inr removed)
  obtain ⟨w, err, hr, -, -, -, -, locked, -⟩ :=
    Upgrade.lost_reply (m := ⟨0, []⟩) run heard trivial rfl
  have failed := run.resume ⟨0, []⟩ _ heard
  rw [hr] at failed
  cases hr
  have live (m : Moment) : Context.background.stopped m = none := rfl
  have told : heardStatus (.backendNotFound "/" soleUpgrade.backend) =
      .status "/v1/backend/remove" 404 "backend 10.0.0.1:80 not in pool \"/\"" := by
    decide +kernel
  have ends := (locked removed).ends .directory .none live
  change ∃ deeds v, Upgrade.RunOver _ _ _ _ _ deeds (v, .ended (.error (.removeBackend
    (heardStatus (.backendNotFound "/" soleUpgrade.backend))))) _ at ends
  rw [told] at ends
  exact ⟨_, _, failed, locked removed, ends⟩

end Rollout
