import Rollout.Proofs.Fleet.Budget

/-!
# The count of failures

What the count of failures says about the upgrades with an error.

* **One upgrade** (`Fleet.failures_put`): the number of upgrades with an error changes as the error
  of the one that changes.
* **Phases** (`Phase.Counted`): after the canaries, each upgrade with an error is counted or waits
  for it (`Bulk.owed`); in a pass, an upgrade without one that is still counted waits for that to
  end (`Retry.cleared`).
* **Courses** (`Course.counted`): it holds wherever a course comes to.
-/

namespace Rollout

/-! ## One upgrade -/

namespace Fleet

variable {fleet : Fleet} {i : Nat} {u v : Upgrade}

theorem length_failuresFrom (k : Nat) (us : List Upgrade) :
    (failuresFrom k us).length = us.countP (·.err.isSome) := by
  induction us generalizing k with
  | nil => rfl
  | cons u rest ih =>
    rw [failuresFrom]
    cases he : u.err with
    | none => rw [ih, List.countP_cons_of_neg (by simp [he])]
    | some e => rw [List.length_cons, ih, List.countP_cons_of_pos (by simp [he])]

/-- An upgrade that changes is a failure before and after, or not, by its error. -/
theorem failures_put (hu : fleet.upgrade? i = some u) (v : Upgrade) :
    (fleet.put i v).failures.length + u.err.isSome.toNat =
      fleet.failures.length + v.err.isSome.toNat := by
  rw [failures, failures, length_failuresFrom, length_failuresFrom]
  exact countP_set_add hu v (·.err.isSome)

theorem failures_eq_zero (h : ∀ {i : Nat} {u : Upgrade}, fleet.upgrade? i = some u → u.err = none) :
    fleet.failures.length = 0 := by
  rw [failures, length_failuresFrom, List.countP_eq_zero]
  intro u hm
  obtain ⟨i, hi⟩ := List.getElem?_of_mem hm
  simp [h hi]

theorem IsNew.failures (h : fleet.IsNew) : fleet.failures.length = 0 :=
  failures_eq_zero fun hu => Upgrade.IsFresh.err (h.upgrade hu)

end Fleet

namespace Landing

/-- Whether a flight landed with an error. -/
def hasFailed : Landing → Bool
  | .landed result => !result.isOk
  | _ => false

/-- Whether a flight landed without an error. -/
def hasSucceeded : Landing → Bool
  | .landed result => result.isOk
  | _ => false

variable {c : Config} {index : Nat} {u v : Upgrade} {landing : Landing}

theorem Suits.err_of_none (h : landing.Suits c index u v) (he : u.err = none) :
    v.err.isSome = landing.hasFailed := by
  cases landing with
  | flying f => rw [h.2.2, he]; rfl
  | landed result => exact h.2
  | crashed text => exact h.elim

theorem Suits.err_of_some (h : landing.Suits c index u v) (he : u.err.isSome) :
    v.err.isSome = !landing.hasSucceeded := by
  cases landing with
  | flying f => rw [h.2.2, he]; rfl
  | landed result => exact h.2
  | crashed text => exact h.elim

end Landing

/-! ## Upgrades after the canaries -/

/-- Whether an upgrade failed and its failure is not counted. -/
def Admitted.isOwed : Admitted → Bool
  | landed _ failed => failed
  | _ => false

namespace Bulk

/-- How many failures are not counted. -/
def owed (b : Bulk) : Nat := b.admitted.countP Admitted.isOwed

variable {fleet fleet' : Fleet} {b b' : Bulk}

/-- A step of the lead neither makes a failure nor counts one. -/
theorem owed_leads (hc : b.crashes = 0) (hl : b.Leads fleet fleet' b') :
    b'.owed = b.owed ∧ fleet'.failureCount = fleet.failureCount ∧
      fleet'.upgrades = fleet.upgrades := by
  cases hl with
  | exhausts _ _ | takes _ _ | stops _ _ | clears _ _ => exact ⟨rfl, rfl, rfl⟩
  | admits _ _ _ => exact ⟨by simp [owed, Admitted.isOwed], rfl, rfl⟩
  | gathers _ hpos => omega

/-- A flight that lands with an error is a failure that is not counted. -/
theorem owed_flies {a : Admitted} {landing : Landing} (hf : b.Flies fleet a landing fleet' b') :
    b'.owed = b.owed + landing.hasFailed.toNat := by
  cases hf with
  | @of at_ u v ha hl _ _ _ hs =>
    have howed := countP_set_add ha (landing.admitted a.index) Admitted.isOwed
    have ha' : a.isOwed = false := by cases a <;> first | rfl | cases hl
    have hnew : (landing.admitted a.index).isOwed = landing.hasFailed := by
      cases landing with
      | crashed text => exact hs.elim
      | _ => rfl
    rw [ha', hnew] at howed
    exact howed

/-- A failure is counted when it is no longer owed. -/
theorem owed_accounts (ha : b.Accounts fleet fleet' b') :
    fleet'.failureCount + b'.owed = fleet.failureCount + b.owed := by
  cases ha with
  | @counts at_ index failed ha =>
    have howed := countP_set_add ha (.counted index) Admitted.isOwed
    change (b.place at_ (.counted index)).owed + failed.toNat = b.owed + 0 at howed
    show fleet.failureCount + failed.toNat + (b.place at_ (.counted index)).owed = _
    omega
  | @releases at_ index ha =>
    have howed := countP_eraseIdx_add ha Admitted.isOwed
    change (b.release at_).owed + 0 = b.owed at howed
    rw [← howed, Nat.add_zero]

end Bulk

/-! ## Attempts -/

/-- Whether an attempt succeeded and its upgrade still counts as a failure. -/
def Attempt.isCleared : Attempt → Bool
  | landed _ failed => !failed
  | _ => false

namespace Retry

/-- How many upgrades are counted that are no failures any more. -/
def cleared (r : Retry) : Nat := r.attempts.countP Attempt.isCleared

variable {fleet fleet' : Fleet} {r r' : Retry}

theorem cleared_start {ctx : Context} {now : Instant} (h : start? fleet ctx now = some r) :
    r.cleared = 0 := by
  unfold start? at h
  split at h
  · cases h; rfl
  · obtain ⟨inner, -, rfl⟩ := Option.map_eq_some_iff.mp h
    rw [cleared, List.countP_map, List.countP_eq_zero]
    exact fun f _ => by simp [Attempt.isCleared]

/-- An attempt that succeeds ends a failure, which is still counted. -/
theorem cleared_flies {a : Attempt} {landing : Landing} (hf : r.Flies fleet a landing fleet' r') :
    r'.cleared = r.cleared + landing.hasSucceeded.toNat ∧
      fleet'.failures.length + landing.hasSucceeded.toNat = fleet.failures.length := by
  cases hf with
  | @of at_ u v ha hl hu he _ hs =>
    have hcleared := countP_set_add ha (landing.attempt a.index) Attempt.isCleared
    have hfailures := Fleet.failures_put hu v
    have ha' : a.isCleared = false := by cases a <;> first | rfl | cases hl
    have hnew : (landing.attempt a.index).isCleared = landing.hasSucceeded := by
      cases landing with
      | flying f => rfl
      | landed result => exact Bool.not_not _
      | crashed text => exact hs.elim
    rw [ha', hnew] at hcleared
    rw [he, hs.err_of_some he] at hfailures
    refine ⟨hcleared, ?_⟩
    cases hl' : landing.hasSucceeded <;> rw [hl'] at hfailures <;> simp at hfailures ⊢ <;> omega

/-- The count goes down for an upgrade that was counted. -/
theorem cleared_accounts (ha : r.Accounts fleet fleet' r')
    (hc : r.cleared ≤ fleet.failureCount) :
    fleet'.failures.length = fleet.failures.length ∧
      fleet'.failureCount + r.cleared = fleet.failureCount + r'.cleared := by
  cases ha with
  | @ends at_ index failed ha =>
    have hcleared := countP_eraseIdx_add ha Attempt.isCleared
    change Retry.cleared ⟨r.attempts.eraseIdx at_⟩ + (!failed).toNat = r.cleared at hcleared
    refine ⟨rfl, ?_⟩
    show fleet.failureCount - (!failed).toNat + r.cleared = _
    omega

end Retry

/-! ## Phases -/

/-- What the count of failures says in each phase. -/
def Phase.Counted (fleet : Fleet) : Phase → Prop
  | rollout (.bulk b) => fleet.failures.length = fleet.failureCount + b.owed
  | rollout (.ended (.ok ())) => fleet.failures.length = fleet.failureCount
  | rollout (.ended (.error (.maxFailuresExceeded _ _))) =>
    fleet.failures.length = fleet.failureCount
  | rollout (.ended (.error _)) => fleet.failures.length ≤ 1 ∧ fleet.endState ≠ .success
  | retry r => fleet.failures.length + r.cleared = fleet.failureCount
  | _ => True

namespace Run

variable {fleet : Fleet} {index : Nat}

theorem counted_refuse (h : fleet.IsNew) (e : GateError) :
    (Phase.rollout (refuse fleet e).2).Counted (refuse fleet e).1 :=
  ⟨h.failures.symm ▸ Nat.zero_le 1, nofun⟩

theorem counted_start (h : fleet.IsNew) (ctx : Context) (m : Moment) :
    (Phase.rollout (start fleet ctx m).2).Counted (start fleet ctx m).1 := by
  have hs := starts fleet ctx m
  generalize start fleet ctx m = x at hs ⊢
  cases hs with
  | overflows _ => trivial
  | halts _ _ => exact counted_refuse h _
  | asks _ _ => trivial

theorem counted_answered (h : fleet.IsNew) (e : Event (gateCall fleet)) :
    (Phase.rollout (gateAnswered fleet e).2).Counted (gateAnswered fleet e).1 := by
  have ha := answers fleet e
  generalize gateAnswered fleet e = x at ha ⊢
  cases ha with
  | admits _ => trivial
  | denies _ => exact counted_refuse h _
  | halts => exact counted_refuse h _
  | crashes => trivial

/-- A canary that fails is the only failure. -/
theorem counted_landed {u v : Upgrade} {landing : Landing}
    (hf : fleet.failures.length = 0) (hu : fleet.upgrade? index = some u) :
    (Phase.rollout (canaryLanded index (fleet.put index v, landing)).2).Counted
      (canaryLanded index (fleet.put index v, landing)).1 := by
  cases landing with
  | flying f => trivial
  | crashed text => trivial
  | landed result =>
    cases result with
    | ok a => trivial
    | error e =>
      have hput := Fleet.failures_put hu v
      have hle := v.err.isSome.toNat_le
      refine ⟨?_, nofun⟩
      show (fleet.put index v).failures.length ≤ 1
      omega

theorem counted_start_bulk (h : fleet.failures.length = 0) (hf : fleet.failureCount = 0) :
    (Phase.rollout (.bulk (.start fleet))).Counted fleet := by
  show fleet.failures.length = fleet.failureCount + 0
  rw [h, hf]

theorem counted_next (h : fleet.Trying index []) (ctx : Context) (source : Except IoError Entry)
    (m : Moment) :
    (Phase.rollout (nextCanary fleet ctx source m index).2).Counted
      (nextCanary fleet ctx source m index).1 := by
  have hzero := Fleet.failures_eq_zero h.unfailed
  have hn := nexts fleet ctx source m index
  generalize canaryHappenings fleet ctx source m index = seen,
    nextCanary fleet ctx source m index = x at hn ⊢
  cases hn with
  | overflows _ _ => trivial
  | @begins inner hlt _ =>
    obtain ⟨u, v, landing, hu, -, -, -, -, hstart⟩ := h.begins hlt inner source m
    rw [hstart]
    exact counted_landed hzero hu
  | skips _ _ => exact counted_start_bulk hzero h.failureCount
  | rests _ _ _ => trivial

theorem counted_resumed {f : Flight} (h : fleet.Trying (f.index + 1) [f]) (m : Moment)
    {e : Event f.wait} (he : e.IsCalm) :
    (Phase.rollout (canaryResumed fleet m f e).2).Counted (canaryResumed fleet m f e).1 := by
  obtain ⟨u, hu, hf⟩ := h.tends.suits f (by simp)
  obtain ⟨v, landing, hresume, -⟩ := Flight.resume_suits hu hf m he
  unfold canaryResumed
  rw [hresume]
  exact counted_landed (Fleet.failures_eq_zero h.unfailed) hu

end Run

namespace Bulk

variable {fleet fleet' : Fleet} {b b' : Bulk}

theorem counted_leads (h : (Phase.rollout (.bulk b)).Counted fleet) (hc : b.crashes = 0)
    (hl : b.Leads fleet fleet' b') : (Phase.rollout (.bulk b')).Counted fleet' := by
  obtain ⟨howed, hcount, hups⟩ := owed_leads hc hl
  have hfailures : fleet'.failures = fleet.failures := by rw [Fleet.failures, hups, Fleet.failures]
  show fleet'.failures.length = fleet'.failureCount + b'.owed
  rw [hfailures, hcount, howed]
  exact h

theorem counted_flies {a : Admitted} {landing : Landing}
    (h : (Phase.rollout (.bulk b)).Counted fleet) (hf : b.Flies fleet a landing fleet' b') :
    (Phase.rollout (.bulk b')).Counted fleet' := by
  have h : fleet.failures.length = fleet.failureCount + b.owed := h
  have howed := owed_flies hf
  cases hf with
  | @of at_ u v ha _ hu he _ hs =>
    have hput := Fleet.failures_put hu v
    rw [he, hs.err_of_none he] at hput
    show (fleet.put a.index v).failures.length = fleet.failureCount + Bulk.owed _
    rw [howed, ← Nat.add_assoc, ← h]
    exact hput

theorem counted_accounts (h : (Phase.rollout (.bulk b)).Counted fleet)
    (ha : b.Accounts fleet fleet' b') : (Phase.rollout (.bulk b')).Counted fleet' := by
  have h : fleet.failures.length = fleet.failureCount + b.owed := h
  have howed := owed_accounts ha
  have hups : fleet'.failures = fleet.failures := by cases ha <;> rfl
  show fleet'.failures.length = fleet'.failureCount + b'.owed
  rw [hups, howed]
  exact h

theorem counted_conclude (h : (Phase.rollout (.bulk b)).Counted fleet) (ha : b.admitted = []) :
    (Phase.rollout (.ended (conclude fleet).2)).Counted (conclude fleet).1 := by
  have howed : b.owed = 0 := by rw [owed, ha]; rfl
  have h : fleet.failures.length = fleet.failureCount := by
    rw [← Nat.add_zero fleet.failureCount, ← howed]
    exact h
  unfold conclude
  split <;> exact h

end Bulk

/-- When nothing is under way after a rollout that succeeded, the count is that of the failures. -/
theorem Phase.Counted.settled {fleet : Fleet} {phase : Phase} (h : phase.Counted fleet)
    (hover : phase.isOver = true) (hsuccess : fleet.endState = .success) :
    fleet.failures.length = fleet.failureCount := by
  cases phase with
  | idle => cases hover
  | retry r =>
    have hzero : r.cleared = 0 := by rw [Retry.cleared, List.isEmpty_iff.mp hover]; rfl
    rw [← Nat.add_zero fleet.failures.length, ← hzero]
    exact h
  | rollout run =>
    cases run with
    | ended result =>
      cases result with
      | ok a => exact h
      | error e =>
        cases e with
        | maxFailuresExceeded failures max => exact h
        | _ => exact absurd hsuccess h.2
    | _ => cases hover

namespace Retry

variable {fleet fleet' : Fleet} {r r' : Retry}

theorem counted_flies {a : Attempt} {landing : Landing} (h : (Phase.retry r).Counted fleet)
    (hf : r.Flies fleet a landing fleet' r') : (Phase.retry r').Counted fleet' := by
  have h : fleet.failures.length + r.cleared = fleet.failureCount := h
  obtain ⟨hcleared, hfailures⟩ := cleared_flies hf
  have hcount : fleet'.failureCount = fleet.failureCount := by cases hf; rfl
  show fleet'.failures.length + r'.cleared = fleet'.failureCount
  omega

theorem counted_accounts (h : (Phase.retry r).Counted fleet)
    (ha : r.Accounts fleet fleet' r') : (Phase.retry r').Counted fleet' := by
  have h : fleet.failures.length + r.cleared = fleet.failureCount := h
  obtain ⟨hfailures, hcount⟩ := cleared_accounts ha (by omega)
  show fleet'.failures.length + r'.cleared = fleet'.failureCount
  omega

/-- A pass begins where nothing is under way. -/
theorem counted_again {phase : Phase} {ctx : Context} {now : Instant} (h : phase.Counted fleet)
    (hover : phase.isOver = true) (hmay : fleet.endState = .success)
    (hr : start? fleet ctx now = some r) : (Phase.retry r).Counted fleet := by
  show fleet.failures.length + r.cleared = fleet.failureCount
  rw [cleared_start hr, Nat.add_zero]
  exact h.settled hover hmay

end Retry

/-! ## Courses -/

section Courses

variable {σ : Type} {env : Surroundings σ} {ctx : Context} {x y : Scene σ} {hs : List Happening}

theorem Fleet.endState_of_mayRetry {fleet : Fleet} {operation : String}
    (h : fleet.mayRetry operation = .ok ()) : fleet.endState = .success := by
  unfold mayRetry at h
  split at h
  · assumption
  · cases h

theorem Scene.Acts.counted (h : x.Acts env ctx hs y) (ho : x.phase.Orderly x.fleet)
    (hc : x.phase.Counted x.fleet) : y.phase.Counted y.fleet := by
  cases h with
  | start =>
    rw [Scene.ofRun_fleet, Scene.ofRun_phase]
    exact Run.counted_start ho _ _
  | canaryDue _ =>
    rw [Scene.ofRun_fleet, Scene.ofRun_phase]
    exact Run.counted_next ho _ _ _
  | lead hl => exact Bulk.counted_leads hc (Bulk.Orderly.crashes ho) (Bulk.leads_of_moved hl)
  | conclude hl =>
    obtain ⟨-, -, ha, rfl, rfl⟩ := Bulk.conclude_of_ended hl
    exact Bulk.counted_conclude hc ha
  | overflow _ => trivial
  | takeOff ha _ => exact Bulk.counted_flies hc (Bulk.Orderly.flies_takeOff ho ha _ _)
  | account ha hl => exact Bulk.counted_accounts hc (Bulk.accounts ha hl)
  | again hover hmay hr => exact Retry.counted_again hc hover (Fleet.endState_of_mayRetry hmay) hr
  | takeOffAgain ha _ => exact Retry.counted_flies hc (Retry.Orderly.flies_takeOff ho ha _ _)
  | accountAgain ha hl => exact Retry.counted_accounts hc (Retry.accounts ha hl)

theorem Scene.Hears.counted (h : x.Hears env ctx hs y) (calm : env.Calm)
    (ho : x.phase.Orderly x.fleet) (hc : x.phase.Counted x.fleet) : y.phase.Counted y.fleet := by
  cases h with
  | gate _ => exact Run.counted_answered ho _
  | canary he => exact Run.counted_resumed ho _ (calm he)
  | cooldown _ =>
    exact Run.counted_start_bulk (Fleet.failures_eq_zero (Fleet.Trying.unfailed ho))
      (Fleet.Trying.failureCount ho)
  | bulk ha he => exact Bulk.counted_flies hc (Bulk.Orderly.flies_resume ho ha _ (calm he))
  | retry ha he => exact Retry.counted_flies hc (Retry.Orderly.flies_resume ho ha _ (calm he))

/-- Where no work crashes, the count of failures is right wherever a course comes to. -/
theorem Course.counted (h : Course env ctx x hs y) (calm : env.Calm)
    (ho : x.phase.Orderly x.fleet) (hc : x.phase.Counted x.fleet) : y.phase.Counted y.fleet := by
  induction h with
  | here => exact hc
  | later _ _ ih => exact ih
  | act h ha ih => exact ha.counted (h.orderly calm ho) ih
  | hear h hh ih => exact hh.counted calm (h.orderly calm ho) ih

end Courses

end Rollout
