import Mathlib.Data.List.Dedup
import Mathlib.Data.List.Perm.Subperm
import Rollout.Proofs.Fleet.Count
import Rollout.Proofs.Upgrade.Pool

/-!
# Endpoints out of their pool

How many endpoints a rollout takes out of their pool.

* **The pool** (`Fleet.Pooled`): the configured backends that are missing from it are those of the
  upgrades that are out, one for each (`Fleet.away`). An endpoint leaves it (`Pooled.leave`) or
  returns to it (`Pooled.enter`), and `Pooled.put` is a step of one upgrade.
* **The number** (`Phase.Orderly.away_le`): an endpoint that is out has an error or a run that is
  under way, and the limits allow for few of either.
* **Courses** (`Course.pooled`, `Course.away_le`): both hold wherever a course comes to. Only the
  end of a wait takes an endpoint out or puts one back (`Scene.Acts.away`).
-/

namespace Rollout

/-! ## Counting -/

section Counting

variable {α : Type} {p q r : α → Bool}

/-- The places in a list that satisfy a predicate are no more than those listed. -/
theorem countP_le_length {l : List α} {places : List Nat}
    (h : ∀ {i : Nat} {a : α}, l[i]? = some a → p a = true → i ∈ places) :
    l.countP p ≤ places.length := by
  have hlen : ((l.zipIdx.filter (p ·.1)).map Prod.snd).length = l.countP p := by
    conv_rhs => rw [← List.zipIdx_map_fst 0 l, List.countP_map]
    rw [List.length_map, ← List.countP_eq_length_filter]
    rfl
  have hnodup : ((l.zipIdx.filter (p ·.1)).map Prod.snd).Nodup := by
    refine List.Nodup.sublist (List.filter_sublist.map Prod.snd) ?_
    rw [List.zipIdx_map_snd]
    exact List.nodup_range'
  have hsub : (l.zipIdx.filter (p ·.1)).map Prod.snd ⊆ places := fun i hi => by
    obtain ⟨⟨a, j⟩, hm, rfl⟩ := List.mem_map.mp hi
    obtain ⟨hm, hp⟩ := List.mem_filter.mp hm
    exact h (List.mk_mem_zipIdx_iff_getElem?.mp hm) hp
  have hle := (hnodup.subperm hsub).length_le
  rwa [hlen] at hle

theorem countP_add_countP_le (h : ∀ a, (p a).toNat + (q a).toNat ≤ (r a).toNat) (l : List α) :
    l.countP p + l.countP q ≤ l.countP r := by
  induction l with
  | nil => exact Nat.le_refl 0
  | cons a rest ih =>
    have hcons (p : α → Bool) : (a :: rest).countP p = rest.countP p + (p a).toNat := by
      rw [List.countP_cons]
      cases p a <;> rfl
    have := h a
    rw [hcons, hcons, hcons]
    omega

end Counting

/-! ## The pool -/

/-- The backend of an upgrade whose endpoint is out of its pool. -/
def Upgrade.away? (u : Upgrade) : Option Backend := if u.isOut then some u.backend else none

namespace Fleet

/-- The backends of the upgrades whose endpoints are out of their pool. -/
def away (fleet : Fleet) : List Backend := fleet.upgrades.filterMap Upgrade.away?

/-- The configured backends that are missing from their pool, each once. -/
def missing (fleet : Fleet) (t : Table) : List Backend :=
  fleet.backends.dedup.filter fun b => !(t.backends fleet.config.pattern).contains b

/-- The pool lacks the endpoints that are out of it, and no other. -/
structure Pooled (fleet : Fleet) (t : Table) : Prop where
  targets : fleet.upgrades.map (·.backend) = fleet.backends
  nodup : fleet.away.Nodup
  missing : ∀ b ∈ fleet.backends, b ∉ t.backends fleet.config.pattern ↔ b ∈ fleet.away

variable {fleet fleet' : Fleet} {t t' : Table} {i : Nat} {u v : Upgrade} {b : Backend}

theorem mem_missing :
    b ∈ fleet.missing t ↔ b ∈ fleet.backends ∧ b ∉ t.backends fleet.config.pattern := by
  simp [missing]

theorem mem_away : b ∈ fleet.away ↔ ∃ u ∈ fleet.upgrades, u.backend = b ∧ u.isOut = true := by
  constructor
  · intro h
    obtain ⟨u, hu, hb⟩ := List.mem_filterMap.mp h
    unfold Upgrade.away? at hb
    split at hb
    · exact ⟨u, hu, Option.some.inj hb, ‹_›⟩
    · cases hb
  · rintro ⟨u, hu, rfl, hout⟩
    exact List.mem_filterMap.mpr ⟨u, hu, if_pos hout⟩

namespace Pooled

/-- Nothing changes for the pool when the same endpoints are out. -/
theorem keep (h : fleet.Pooled t) (hk : fleet.Keeps fleet') (ha : fleet'.away = fleet.away) :
    fleet'.Pooled t where
  targets := by rw [hk.targets, hk.backends]; exact h.targets
  nodup := by rw [ha]; exact h.nodup
  missing b hb := by
    rw [hk.backends] at hb
    rw [hk.config, ha]
    exact h.missing b hb

/-- One more endpoint leaves the pool. -/
theorem leave (h : fleet.Pooled t) (hk : fleet.Keeps fleet') (hm : b ∈ fleet.backends)
    (hc : t.removeBackend fleet.config.pattern b = .ok t')
    (ha : fleet'.away.Perm (b :: fleet.away)) : fleet'.Pooled t' := by
  obtain ⟨hhere, hpool⟩ := Table.mem_of_remove hc
  -- It was a member, so no other upgrade with the same backend is out.
  have hnew : b ∉ fleet.away := fun ha => (h.missing _ hm).mpr ha hhere
  refine ⟨by rw [hk.targets, hk.backends]; exact h.targets,
    ha.nodup_iff.mpr (List.nodup_cons.mpr ⟨hnew, h.nodup⟩), fun b' hb' => ?_⟩
  rw [hk.backends] at hb'
  rw [ha.mem_iff, List.mem_cons, ← h.missing b' hb', hk.config, hpool]
  tauto

/-- An endpoint that was out returns to the pool. -/
theorem enter (h : fleet.Pooled t) (hk : fleet.Keeps fleet')
    (hc : t.addBackend fleet.config.pattern b = .ok t')
    (ha : (b :: fleet'.away).Perm fleet.away) : fleet'.Pooled t' := by
  obtain ⟨-, hpool⟩ := Table.mem_of_add hc
  obtain ⟨hnot, hnodup⟩ := List.nodup_cons.mp (ha.nodup_iff.mpr h.nodup)
  refine ⟨by rw [hk.targets, hk.backends]; exact h.targets, hnodup, fun b' hb' => ?_⟩
  rw [hk.backends] at hb'
  have hiff := h.missing b' hb'
  rw [← ha.mem_iff, List.mem_cons] at hiff
  rw [hk.config, hpool]
  by_cases hbb : b' = b
  · rw [hbb]
    tauto
  · tauto

/-- A step of an upgrade changes the table and what is out of the pool together. -/
theorem put (h : fleet.Pooled t) (hu : fleet.upgrade? i = some u) (hb : v.backend = u.backend)
    (he : v.endpoint = u.endpoint) (ht : u.Trades fleet.config.pattern v t t') :
    (fleet.put i v).Pooled t' := by
  have hk : fleet.Keeps (fleet.put i v) := .put hu hb he
  have hperm : (u.away?.toList ++ (fleet.put i v).away).Perm (v.away?.toList ++ fleet.away) :=
    filterMap_set_perm hu v Upgrade.away?
  cases ht with
  | keeps hout =>
    refine h.keep hk (filterMap_set_eq hu ?_)
    rw [Upgrade.away?, hout, hb, Upgrade.away?]
  | leaves hin hout hc =>
    have hmem : u.backend ∈ fleet.backends := by
      rw [← h.targets]
      exact List.mem_map_of_mem (List.mem_of_getElem? hu)
    have hnone : u.away? = none := if_neg (by simp [hin])
    have hsome : v.away? = some u.backend := hb ▸ if_pos hout
    rw [hnone, hsome] at hperm
    exact h.leave hk hmem hc hperm
  | returns hout hin hc =>
    have hnone : v.away? = none := if_neg (by simp [hin])
    have hsome : u.away? = some u.backend := if_pos hout
    rw [hnone, hsome] at hperm
    exact h.enter hk hc hperm

end Pooled

theorem IsNew.away (h : fleet.IsNew) : fleet.away = [] := by
  refine List.filterMap_eq_nil_iff.mpr fun u hu => ?_
  obtain ⟨endpoint, b, rfl⟩ := h.fresh u hu
  rfl

/-- At the start no endpoint is out, and the pool has to lack none. -/
theorem IsNew.pooled (h : fleet.IsNew) (hm : fleet.missing t = []) : fleet.Pooled t where
  targets := h.backends
  nodup := by rw [h.away]; exact List.nodup_nil
  missing b hb := by
    rw [h.away]
    refine iff_of_false (fun hn => ?_) List.not_mem_nil
    have := mem_missing.mpr ⟨hb, hn⟩
    rw [hm] at this
    exact List.not_mem_nil this

theorem Pooled.missing_length_le (h : fleet.Pooled t) :
    (fleet.missing t).length ≤ fleet.away.length := by
  refine (((List.nodup_dedup _).filter _).subperm fun b hb => ?_).length_le
  obtain ⟨hb, hn⟩ := mem_missing.mp hb
  exact (h.missing b hb).mp hn

/-! ## The number of endpoints -/

theorem length_away (fleet : Fleet) : fleet.away.length = fleet.upgrades.countP Upgrade.isOut := by
  rw [away, List.length_filterMap_eq_countP]
  refine List.countP_congr fun u _ => ?_
  rw [Upgrade.away?]
  split <;> simp_all

/-- An endpoint that is out is a failure, or it is one of those listed. -/
theorem length_away_le (places : List Nat)
    (h : ∀ {i : Nat} {u : Upgrade}, fleet.upgrade? i = some u → u.isOut = true →
      u.err.isSome ∨ i ∈ places) :
    fleet.away.length ≤ fleet.failures.length + places.length := by
  have hlen : fleet.failures.length = (fleet.failures.map (·.index)).length :=
    List.length_map _ |>.symm
  rw [length_away, hlen, ← List.length_append]
  refine countP_le_length fun hu hout => List.mem_append.mpr ?_
  exact (h hu hout).imp_left fun he => mem_index_failures.mpr ⟨_, hu, he⟩

end Fleet

namespace Phase

variable {fleet : Fleet} {phase : Phase} {i : Nat} {u : Upgrade}

/-- An upgrade without a run under way is at rest, unless the rollout crashed. -/
theorem Orderly.atRest (h : phase.Orderly fleet) (hc : phase.hasCrashed = false)
    (hu : fleet.upgrade? i = some u) (hi : i ∉ phase.flights.map (·.index)) : u.AtRest := by
  cases phase with
  | idle => exact Upgrade.IsFresh.atRest (Fleet.IsNew.upgrade h hu)
  | retry r =>
    rcases Fleet.Tends.atRest_or h hu with hr | ⟨a, ha, rfl, hs⟩
    · exact hr
    · refine Attempt.Suits.atRest hs fun f hf => hi ?_
      subst hf
      exact List.mem_map_of_mem (f := Flight.index) (List.mem_filterMap.mpr ⟨_, ha, rfl⟩)
  | rollout run =>
    cases run with
    | gate inner => exact Upgrade.IsFresh.atRest (Fleet.IsNew.upgrade h hu)
    | canaryDue index => exact (Fleet.Trying.tends h).rest hu List.not_mem_nil
    | canary f => exact (Fleet.Trying.tends h).rest hu hi
    | cooldown until_ => exact (Fleet.Trying.tends h).rest hu List.not_mem_nil
    | ended result => exact h hu
    | crashed text => cases hc
    | bulk b =>
      rcases (Bulk.Orderly.tends h).atRest_or hu with hr | ⟨a, ha, rfl, hs⟩
      · exact hr
      · refine Admitted.Suits.atRest hs fun f hf => hi ?_
        subst hf
        exact List.mem_map_of_mem (f := Flight.index) (List.mem_filterMap.mpr ⟨_, ha, rfl⟩)

/-- An endpoint that is out is a failure, or a run of its upgrade is under way. -/
theorem Orderly.length_away_le (h : phase.Orderly fleet) (hc : phase.hasCrashed = false) :
    fleet.away.length ≤ fleet.failures.length + phase.flights.length := by
  have hlen : phase.flights.length = (phase.flights.map (·.index)).length :=
    List.length_map _ |>.symm
  rw [hlen]
  refine Fleet.length_away_le _ fun {i u} hu hout => ?_
  by_cases hi : i ∈ phase.flights.map (·.index)
  · exact .inr hi
  · exact .inl ((h.atRest hc hu hi).isOut_iff.mp hout).1

/-- In a pass only failures are out. -/
theorem Orderly.length_away_le_of_retry {r : Retry} (h : (Phase.retry r).Orderly fleet) :
    fleet.away.length ≤ fleet.failures.length := by
  refine Fleet.length_away_le [] fun {i u} hu hout => .inl ?_
  rcases Fleet.Tends.atRest_or h hu with hr | ⟨a, -, rfl, hs⟩
  · exact (hr.isOut_iff.mp hout).1
  · cases a with
    | queued index inner => exact hs.2
    | flying f => exact hs.2
    | landed index failed => exact (hs.1.isOut_iff.mp hout).1

/-- An admitted upgrade that is under way or whose failure is not counted has no outcome yet. -/
theorem flights_add_owed_le (b : Bulk) :
    (Phase.rollout (.bulk b)).flights.length + b.owed ≤ b.uncounted := by
  show (b.admitted.filterMap Admitted.flight?).length + b.admitted.countP Admitted.isOwed ≤
    b.admitted.countP Admitted.isOpen
  rw [List.length_filterMap_eq_countP]
  refine countP_add_countP_le (fun a => ?_) b.admitted
  cases a with
  | queued index inner => exact Nat.zero_le 1
  | flying f => exact Nat.le_refl 1
  | landed index failed =>
    show 0 + failed.toNat ≤ 1
    rw [Nat.zero_add]
    exact failed.toNat_le
  | counted index => exact Nat.le_refl 0

/-- As long as no upgrade has failed and at most one is under way, at most one endpoint is out. -/
theorem Orderly.away_le_one (ho : phase.Orderly fleet) (hc : phase.hasCrashed = false)
    (hf : fleet.failures.length = 0) (hone : phase.flights.length ≤ 1) (limit : Nat) :
    fleet.away.length ≤ max 1 limit := by
  have hle := ho.length_away_le hc
  omega

/-- While no step has crashed, there are not more endpoints out than the limits allow. -/
theorem Orderly.away_le (ho : phase.Orderly fleet) (hw : phase.Within fleet)
    (hn : phase.Counted fleet) (hc : phase.hasCrashed = false) :
    fleet.away.length ≤ max 1 (fleet.maxFailures + fleet.capacity) := by
  have hle := ho.length_away_le hc
  have hcount := hw.le
  cases phase with
  | idle => exact ho.away_le_one hc (Fleet.IsNew.failures ho) (Nat.zero_le 1) _
  | retry r =>
    have hle := ho.length_away_le_of_retry
    have hn : fleet.failures.length + r.cleared = fleet.failureCount := hn
    omega
  | rollout run =>
    have unfailed {next : Nat} {flights : List Flight} (h : fleet.Trying next flights) :
        fleet.failures.length = 0 := Fleet.failures_eq_zero h.unfailed
    cases run with
    | gate inner => exact ho.away_le_one hc (Fleet.IsNew.failures ho) (Nat.zero_le 1) _
    | canaryDue index => exact ho.away_le_one hc (unfailed ho) (Nat.zero_le 1) _
    | canary f => exact ho.away_le_one hc (unfailed ho) (Nat.le_refl 1) _
    | cooldown until_ => exact ho.away_le_one hc (unfailed ho) (Nat.zero_le 1) _
    | bulk b =>
      have hn : fleet.failures.length = fleet.failureCount + b.owed := hn
      have hw : b.Within fleet := hw
      have hbudget := hw.budget
      have hopen := flights_add_owed_le b
      omega
    | crashed text => cases hc
    | ended result =>
      simp only [flights, List.length_nil] at hle
      cases result with
      | ok a =>
        have hn : fleet.failures.length = fleet.failureCount := hn
        omega
      | error e =>
        cases e with
        | maxFailuresExceeded failures max =>
          have hn : fleet.failures.length = fleet.failureCount := hn
          omega
        | _ =>
          have hone := hn.1
          omega

end Phase

/-! ## Steps -/

namespace Fleet

variable {fleet fleet' : Fleet} {t t' : Table} {index : Nat} {u v : Upgrade}

theorem away_of_upgrades (h : fleet'.upgrades = fleet.upgrades) : fleet'.away = fleet.away := by
  rw [away, h, away]

/-- An upgrade that stays at its stage stays in its pool or out of it. -/
theorem away_put (hu : fleet.upgrade? index = some u) (hb : v.backend = u.backend)
    (hcur : v.current = u.current) : (fleet.put index v).away = fleet.away := by
  refine filterMap_set_eq hu ?_
  rw [Upgrade.away?, Upgrade.isOut_of_current hcur, hb, Upgrade.away?]

/-- No endpoint leaves its pool where a flight begins. -/
theorem away_start (hu : fleet.upgrade? index = some u) (hr : u.AtRest) (hd : u.current ≠ .done)
    (ctx : Context) (source : Except IoError Entry) (m : Moment) :
    (Flight.start fleet index ctx source m).1.away = fleet.away := by
  obtain ⟨v, landing, hstart, -, hb, hcur⟩ := Flight.start_suits hu hr hd ctx source m
  rw [hstart]
  exact away_put hu hb hcur

theorem upgrades_landed (x : Fleet × Landing) :
    (Run.canaryLanded index x).1.upgrades = x.1.upgrades := by
  unfold Run.canaryLanded
  split <;> rfl

theorem Pooled.resume {f : Flight} {e : Event f.wait} (h : fleet.Pooled t)
    (hu : fleet.upgrade? f.index = some u) (hf : f.Fits fleet.config u) (m : Moment)
    (he : e.IsCalm) (ha : t.Answers e t') : (f.resume fleet m e).1.Pooled t' := by
  have ht := Upgrade.trades (m := m) hf.stage hf.backend he ha f.ctx
  rw [hf.config] at ht
  rw [Flight.resume_eq hu]
  exact h.put hu (Upgrade.backend_resume _ _) (Upgrade.endpoint_resume _ _) ht

end Fleet

section Courses

variable {σ : Type} {env : Surroundings σ} {ctx : Context} {x y : Scene σ} {hs : List Happening}
  {table : σ → Table}

/-- What a rollout does by itself neither takes an endpoint out of its pool nor puts one back. -/
theorem Scene.Acts.away (h : x.Acts env ctx hs y) (ho : x.phase.Orderly x.fleet) :
    y.fleet.away = x.fleet.away := by
  cases h with
  | @start s fleet =>
    refine Fleet.away_of_upgrades ?_
    rw [Scene.ofRun_fleet]
    have hs := Run.starts fleet ctx (env.moment s)
    generalize Run.start fleet ctx (env.moment s) = x at hs ⊢
    cases hs <;> rfl
  | @canaryDue s fleet index source _ =>
    rw [Scene.ofRun_fleet]
    have hn := Run.nexts fleet ctx source (env.moment s) index
    generalize Run.canaryHappenings fleet ctx source (env.moment s) index = seen,
      Run.nextCanary fleet ctx source (env.moment s) index = x at hn ⊢
    cases hn with
    | overflows _ _ => rfl
    | @begins inner hlt _ =>
      obtain ⟨u, v, landing, hu, -, hb, hcur, -, hstart⟩ :=
        Fleet.Trying.begins ho hlt inner source (env.moment s)
      rw [hstart, ← Fleet.away_put hu hb hcur]
      exact Fleet.away_of_upgrades (Fleet.upgrades_landed _)
    | skips _ _ => rfl
    | rests _ _ _ => rfl
  | lead hl =>
    exact Fleet.away_of_upgrades (Bulk.owed_leads (Bulk.Orderly.crashes ho)
      (Bulk.leads_of_moved hl)).2.2
  | conclude hl =>
    obtain ⟨-, -, -, rfl, -⟩ := Bulk.conclude_of_ended hl
    exact Fleet.away_of_upgrades (Bulk.upgrades_conclude _)
  | overflow hl =>
    obtain ⟨-, -, rfl⟩ := Bulk.overflow_of_overflowed hl
    rfl
  | @takeOff s fleet b at_ index inner source ha _ =>
    obtain ⟨u, hu, hfresh⟩ : ∃ u, fleet.upgrade? index = some u ∧ u.IsFresh :=
      (Bulk.Orderly.tends ho).slot ha
    show (b.takeOff fleet at_ source (env.moment s)).1.away = fleet.away
    rw [Bulk.takeOff, ha]
    exact Fleet.away_start hu hfresh.atRest hfresh.ne_done _ _ _
  | @account s fleet b at_ a ha hl =>
    refine Fleet.away_of_upgrades ?_
    show (b.account fleet at_).1.upgrades = fleet.upgrades
    rw [Bulk.account]
    split <;> rfl
  | again _ _ _ => rfl
  | @takeOffAgain s fleet r at_ index inner source ha _ =>
    obtain ⟨u, hu, hrest, he⟩ : ∃ u, fleet.upgrade? index = some u ∧ u.AtRest ∧ u.err.isSome :=
      Fleet.Tends.slot ho ha
    show (r.takeOff fleet at_ source (env.moment s)).1.away = fleet.away
    rw [Retry.takeOff, ha]
    exact Fleet.away_start hu hrest (hrest.ne_done he) _ _ _
  | @accountAgain s fleet r at_ a ha hl =>
    refine Fleet.away_of_upgrades ?_
    show (r.account fleet at_).1.upgrades = fleet.upgrades
    rw [Retry.account]
    split <;> rfl

theorem Scene.Acts.around (h : x.Acts env ctx hs y) : y.around = x.around := by
  cases h <;> rfl

/-- The end of a wait changes the table and the upgrades together. -/
theorem Scene.Hears.pooled (h : x.Hears env ctx hs y) (calm : env.Calm) (own : env.Over table)
    (ho : x.phase.Orderly x.fleet) (hp : x.fleet.Pooled (table x.around)) :
    y.fleet.Pooled (table y.around) := by
  cases h with
  | @gate s s' fleet inner e he =>
    have ha : (table s).Answers e (table s') := own.ends he
    have hsame : table s' = table s := by
      cases e <;> first | exact ha.2 | exact ha
    show ((Run.gateAnswered fleet e).1).Pooled (table s')
    rw [hsame]
    refine hp.keep (.gateAnswered fleet e) (Fleet.away_of_upgrades ?_)
    have hanswers := Run.answers fleet e
    generalize Run.gateAnswered fleet e = x at hanswers ⊢
    cases hanswers <;> rfl
  | @canary s s' fleet f e he =>
    obtain ⟨u, hu, hf⟩ := (Fleet.Trying.tends ho).suits f (by simp)
    have hresume := Fleet.Pooled.resume hp hu hf (env.moment s') (calm he) (own.ends he)
    exact hresume.keep (.landed f.index _) (Fleet.away_of_upgrades (Fleet.upgrades_landed _))
  | @cooldown s s' fleet until_ e he =>
    have ha : (table s).Answers e (table s') := own.ends he
    have hsame : table s' = table s := by
      cases e <;> exact ha
    show fleet.Pooled (table s')
    rw [hsame]
    exact hp
  | @bulk s s' fleet b at_ f e ha he =>
    obtain ⟨u, hu, hf, -⟩ := (Bulk.Orderly.tends ho).slot ha
    exact hp.resume hu hf (env.moment s') (calm he) (own.ends he)
  | @retry s s' fleet r at_ f e ha he =>
    obtain ⟨u, hu, hf, -⟩ := Fleet.Tends.slot ho ha
    exact hp.resume hu hf (env.moment s') (calm he) (own.ends he)

theorem Course.pooled (h : Course env ctx x hs y) (calm : env.Calm) (own : env.Over table)
    (ho : x.phase.Orderly x.fleet) (hp : x.fleet.Pooled (table x.around)) :
    y.fleet.Pooled (table y.around) := by
  induction h with
  | here => exact hp
  | @later _ s s' fleet phase _ hpass ih =>
    show fleet.Pooled (table s')
    rw [own.passes hpass]
    exact ih
  | act h ha ih =>
    rw [ha.around]
    exact ih.keep ha.keeps (ha.away (h.orderly calm ho))
  | hear h hh ih => exact hh.pooled calm own (h.orderly calm ho) ih

/-- Only a step of the rollout itself can crash it, because the clock overflows. -/
theorem Scene.Hears.hasCrashed (h : x.Hears env ctx hs y) (calm : env.Calm)
    (ho : x.phase.Orderly x.fleet) : y.phase.hasCrashed = false := by
  cases h with
  | @gate s s' fleet inner e he =>
    have he := calm he
    rw [Scene.ofRun_phase]
    cases e with
    | crashed text => exact he.elim
    | stopped reason => rfl
    | result r =>
      rw [Run.gateAnswered]
      split <;> rfl
  | @canary s s' fleet f e he =>
    obtain ⟨u, hu, hf⟩ := (Fleet.Trying.tends ho).suits f (by simp)
    obtain ⟨v, landing, hresume, hs', -⟩ := Flight.resume_suits hu hf (env.moment s') (calm he)
    rw [Scene.ofRun_phase, Run.canaryResumed, hresume]
    cases landing with
    | flying f => rfl
    | crashed text => exact hs'.elim
    | landed result => cases result <;> rfl
  | cooldown _ => rfl
  | bulk _ _ => rfl
  | retry _ _ => rfl

/-- There are never more endpoints out than the limits allow. -/
theorem Course.away_le (h : Course env ctx x hs y) (calm : env.Calm)
    (ho : x.phase.Orderly x.fleet) (hw : x.phase.Within x.fleet) (hn : x.phase.Counted x.fleet)
    (hc : x.phase.hasCrashed = false) :
    y.fleet.away.length ≤ max 1 (y.fleet.maxFailures + y.fleet.capacity) := by
  induction h with
  | here => exact ho.away_le hw hn hc
  | later _ _ ih => exact ih
  | act h ha ih =>
    rw [ha.away (h.orderly calm ho), ha.keeps.maxFailures, ha.keeps.capacity]
    exact ih
  | hear h hh ih =>
    have ho' := h.orderly calm ho
    exact (hh.orderly calm ho').away_le (hh.within calm ho' (h.within calm ho hw))
      (hh.counted calm ho' (h.counted calm ho hn)) (hh.hasCrashed calm ho')

end Courses

end Rollout
