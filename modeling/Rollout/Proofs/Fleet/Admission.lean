import Rollout.Proofs.Fleet.Count
import Rollout.Proofs.Fleet.Ledger

/-!
# Admission after the canaries

No upgrade is lost or begun twice, and the count of failures decides how a rollout ends.

* **Each phase** (`Phase.Told`): what the ledger says in it. After the canaries (`Bulk.Told`) each
  returned failure is counted or waits for it, and a lead that waits for the end has begun all
  upgrades or seen too many failures.
* **The end** (`Concluded`): what is true of a rollout that came past its canaries and ended.
* **Going on** (`Bulk.goes_on`, `Bulk.work`): a rollout is never stuck, and a step that it takes by
  itself brings it nearer to its end.
* **The law** (`bulk_admission`): all of this, and that the end does not depend on the number of
  permits or the order of steps where the outcome of each upgrade does not.
-/

namespace Rollout

/-! ## The upgrades after the canaries -/

/-- The upgrade that waits for its run. -/
def Admitted.queued? : Admitted → Option Nat
  | queued index _ => some index
  | _ => none

/-- The upgrade whose run is under way. -/
def Admitted.flying? : Admitted → Option Nat
  | flying f => some f.index
  | _ => none

/-- The upgrades whose runs are under way. -/
def Landing.flyingAt : Landing → List Nat
  | .flying f => [f.index]
  | _ => []

/-- An upgrade returns or is still under way. -/
theorem Landing.Suits.returns_flyingAt {c : Config} {index : Nat} {u v : Upgrade}
    {landing : Landing} (h : landing.Suits c index u v) :
    (landing.returns index).map Prod.fst ++ landing.flyingAt = [index] := by
  cases landing with
  | flying f => rw [Landing.flyingAt, h.1]; rfl
  | landed result => rfl
  | crashed text => exact h.elim

namespace Bulk

/-- The admitted upgrades that wait for their runs. -/
def queuedAt (b : Bulk) : List Nat := b.admitted.filterMap Admitted.queued?

/-- The admitted upgrades whose runs are under way. -/
def flyingAt (b : Bulk) : List Nat := b.admitted.filterMap Admitted.flying?

/-- What the happenings say after the canaries. -/
structure Told (fleet₀ fleet : Fleet) (hs : List Happening) (b : Bulk) : Prop where
  ledger : Ledger fleet₀ fleet hs (List.range (fleet.canaries + fleet.admitted)) b.queuedAt
    b.flyingAt
  failures : failedRuns fleet.canaries hs = fleet.failureCount + b.owed
  low : ∀ {i : Nat} {result : Except UpgradeError Unit}, (i, result) ∈ returns hs →
    i < fleet.canaries → result.isOk = true
  draining : b.lead = .draining → b.queue = [] ∨ fleet.maxFailures < fleet.failureCount

variable {fleet₀ fleet fleet' : Fleet} {hs new : List Happening} {b b' : Bulk}

theorem failedRuns_eq_zero {low : Nat} (h : ∀ x ∈ returns hs, x.2.isOk = true) :
    failedRuns low hs = 0 := by
  rw [failedRuns, List.countP_eq_zero]
  intro x hx
  rw [h x hx]
  simp

namespace Told

theorem start (h : Ledger fleet₀ fleet hs (List.range fleet.canaries) [] [])
    (hok : ∀ x ∈ returns hs, x.2.isOk = true) (hf : fleet.failureCount = 0)
    (ha : fleet.admitted = 0) : (Bulk.start fleet).Told fleet₀ fleet hs where
  ledger := by rw [ha]; exact h
  failures := by rw [failedRuns_eq_zero hok, hf]; rfl
  low hm _ := hok _ hm
  draining hd := by cases hd

theorem lead (h : b.Told fleet₀ fleet hs) (ho : b.Orderly fleet)
    (hl : b.Leads fleet fleet' b') : b'.Told fleet₀ fleet' hs := by
  obtain ⟨howed, -, -⟩ := owed_leads ho.crashes hl
  cases hl with
  | exhausts _ hq => exact ⟨h.ledger, h.failures, h.low, fun _ => .inl hq⟩
  | takes _ _ => exact ⟨h.ledger, h.failures, h.low, nofun⟩
  | stops _ hlt => exact ⟨h.ledger, h.failures, h.low, fun _ => .inr hlt⟩
  | clears _ _ => exact ⟨h.ledger, h.failures, h.low, nofun⟩
  | gathers _ hc => exact absurd ho.crashes (Nat.ne_of_gt hc)
  | @admits index rest inner _ hq =>
    obtain ⟨rfl, -, -⟩ := drop_range_eq_cons (ho.queue.symm.trans hq)
    refine ⟨?_, ?_, h.low, nofun⟩
    · have hqueued : Bulk.queuedAt ⟨.seeking, rest,
          b.admitted ++ [.queued (fleet.canaries + fleet.admitted) inner], b.crashes⟩ =
          b.queuedAt ++ [fleet.canaries + fleet.admitted] := by
        simp [queuedAt, Admitted.queued?]
      have hflying : Bulk.flyingAt ⟨.seeking, rest,
          b.admitted ++ [.queued (fleet.canaries + fleet.admitted) inner], b.crashes⟩ =
          b.flyingAt := by
        simp [flyingAt, Admitted.flying?]
      rw [hqueued, hflying]
      exact h.ledger.queue.keep fun _ => rfl
    · rw [howed]
      exact h.failures

/-- The run of an admitted upgrade is entered or under way, and goes on or returns. -/
theorem ledger_flies {a : Admitted} {landing : Landing} {at_ : Nat} {u v : Upgrade}
    (h : b.Told fleet₀ fleet hs) (ha : b.admitted[at_]? = some a) (hl : a.hasLanded = false)
    (ht : Tells new a.index a.queued?.toList landing) (hu : fleet.upgrade? a.index = some u)
    (hs' : landing.Suits fleet.config a.index u v) :
    Ledger fleet₀ (fleet.put a.index v) (hs ++ new) (List.range (fleet.canaries + fleet.admitted))
      (b.place at_ (landing.admitted a.index)).queuedAt
      (b.place at_ (landing.admitted a.index)).flyingAt := by
  have hbefore : a.queued?.toList ++ a.flying?.toList = [a.index] := by
    cases a with
    | queued index inner => rfl
    | flying f => rfl
    | landed index failed => cases hl
    | counted index => cases hl
  have hafter : (landing.admitted a.index).flying?.toList = landing.flyingAt := by
    cases landing <;> rfl
  refine h.ledger.place ha ht hbefore (by cases landing <;> rfl) ?_ hu hs'
  rw [hafter]
  exact hs'.returns_flyingAt

theorem flies {a : Admitted} {landing : Landing} (h : b.Told fleet₀ fleet hs)
    (ho : b.Orderly fleet) (hf : b.Flies fleet a landing fleet' b')
    (ht : Tells new a.index a.queued?.toList landing) : b'.Told fleet₀ fleet' (hs ++ new) := by
  have howed := owed_flies hf
  cases hf with
  | @of at_ u v ha hl hu _ _ hs' =>
    have hrange := ho.range a (List.mem_of_getElem? ha)
    refine ⟨?_, ?_, fun {i result} hm hi => ?_, h.draining⟩
    · rw [Fleet.put_canaries]
      exact h.ledger_flies ha hl ht hu hs'
    · have hnew : failedRuns fleet.canaries new = landing.hasFailed.toNat := by
        rw [failedRuns, ht.returned]
        cases landing with
        | flying f => rfl
        | landed result =>
          cases result <;>
            simp [Landing.returns, Landing.hasFailed, Except.isOk, Except.toBool, hrange.1]
        | crashed text => exact hs'.elim
      rw [Fleet.put_canaries, failedRuns_append, hnew, h.failures, Fleet.put_failureCount, howed,
        Nat.add_assoc]
    · rw [Fleet.put_canaries] at hi
      rw [returns_append, ht.returned] at hm
      rcases List.mem_append.mp hm with hm | hm
      · exact h.low hm hi
      · cases landing with
        | landed r =>
          obtain ⟨rfl, -⟩ := Prod.mk.inj (List.mem_singleton.mp hm)
          exact absurd hi (Nat.not_lt.mpr hrange.1)
        | flying f => cases hm
        | crashed text => cases hm

theorem accounts (h : b.Told fleet₀ fleet hs) (ha : b.Accounts fleet fleet' b') :
    b'.Told fleet₀ fleet' hs := by
  have howed := owed_accounts ha
  cases ha with
  | @counts at_ index failed ha =>
    refine ⟨?_, ?_, h.low, fun hd => ?_⟩
    · have hqueued : (b.place at_ (.counted index)).queuedAt = b.queuedAt :=
        filterMap_set_eq ha rfl
      have hflying : (b.place at_ (.counted index)).flyingAt = b.flyingAt :=
        filterMap_set_eq ha rfl
      rw [hqueued, hflying]
      exact h.ledger.keep fun _ => rfl
    · show failedRuns fleet.canaries hs = _
      rw [howed, ← h.failures]
    · rcases h.draining hd with hq | hlt
      · exact .inl hq
      · exact .inr (Nat.lt_of_lt_of_le hlt (Nat.le_add_right _ _))
  | @releases at_ index ha =>
    refine ⟨?_, ?_, h.low, h.draining⟩
    · have hqueued : (b.release at_).queuedAt = b.queuedAt := filterMap_eraseIdx_eq ha rfl
      have hflying : (b.release at_).flyingAt = b.flyingAt := filterMap_eraseIdx_eq ha rfl
      rw [hqueued, hflying]
      exact h.ledger
    · rw [howed, ← h.failures]

end Told

end Bulk

/-! ## Phases -/

/-- What is true of a rollout that began with `fleet`, came past its canaries and ended. -/
structure Concluded (fleet fleet' : Fleet) (hs : List Happening) (result : Except RunError Unit) :
    Prop where
  /-- The runs of the canaries and of the admitted upgrades are entered, each once. -/
  entered : (entries hs).Perm (List.range (fleet.canaries + fleet'.admitted))
  /-- They all returned. -/
  returned : ((returns hs).map Prod.fst).Perm (entries hs)
  le : fleet.canaries + fleet'.admitted ≤ fleet.size
  /-- The rollout succeeds when the failures stay within their limit. -/
  success : (result = .ok () ∧ fleet'.endState = .success) ↔
    failedRuns fleet.canaries hs ≤ fleet.maxFailures
  /-- Then all upgrades were admitted. -/
  all : failedRuns fleet.canaries hs ≤ fleet.maxFailures →
    fleet'.admitted = fleet.size - fleet.canaries
  /-- Otherwise it tells the number of failures. -/
  exceeded : fleet.maxFailures < failedRuns fleet.canaries hs →
    result = .error (.maxFailuresExceeded (failedRuns fleet.canaries hs) fleet.maxFailures) ∧
      fleet'.endState = .maxFailuresExceeded
  /-- The others are as they were, and nothing happened to them. -/
  untouched : ∀ {i : Nat} {u : Upgrade}, fleet.canaries + fleet'.admitted ≤ i →
    fleet'.upgrade? i = some u → u.IsFresh ∧ ∀ h ∈ hs, h.index? ≠ some i
  /-- An upgrade has an error when its run returned one. -/
  err : ∀ {i : Nat} {r : Except UpgradeError Unit}, (i, r) ∈ returns hs →
    ∃ u, fleet'.upgrade? i = some u ∧ u.err.isSome = !r.isOk
  /-- The runs of the canaries returned no error. -/
  low : ∀ {i : Nat} {r : Except UpgradeError Unit}, (i, r) ∈ returns hs → i < fleet.canaries →
    r.isOk = true

/-- What the happenings say in each phase of a rollout. -/
def Phase.Told (fleet₀ fleet : Fleet) (hs : List Happening) : Phase → Prop
  | idle | rollout (.gate _) => fleet = fleet₀ ∧ ∀ h ∈ hs, h.index? = none
  | rollout (.canaryDue index) =>
    Ledger fleet₀ fleet hs (List.range index) [] [] ∧ ∀ x ∈ returns hs, x.2.isOk = true
  | rollout (.canary f) =>
    Ledger fleet₀ fleet hs (List.range (f.index + 1)) [] [f.index] ∧
      ∀ x ∈ returns hs, x.2.isOk = true
  | rollout (.cooldown _) =>
    Ledger fleet₀ fleet hs (List.range fleet.canaries) [] [] ∧ ∀ x ∈ returns hs, x.2.isOk = true
  | rollout (.bulk b) => b.Told fleet₀ fleet hs
  | rollout (.ended (.ok ())) => Concluded fleet₀ fleet hs (.ok ())
  | rollout (.ended (.error (.maxFailuresExceeded failures max))) =>
    Concluded fleet₀ fleet hs (.error (.maxFailuresExceeded failures max))
  | _ => True

namespace Run

variable {fleet₀ fleet : Fleet} {hs new : List Happening} {index : Nat}

/-- Nothing happens to an upgrade when a rollout begins. -/
theorem told_start (hq : ∀ h ∈ hs, h.index? = none) (ctx : Context) (m : Moment) :
    (Phase.rollout (start fleet ctx m).2).Told fleet (start fleet ctx m).1
      (hs ++ (start fleet ctx m).2.happenings m) := by
  have hs' := starts fleet ctx m
  generalize start fleet ctx m = x at hs' ⊢
  cases hs' with
  | overflows _ => trivial
  | halts _ _ => trivial
  | asks _ _ =>
    refine ⟨rfl, fun x hx => ?_⟩
    rcases List.mem_append.mp hx with hx | hx
    · exact hq x hx
    · rw [List.mem_singleton.mp hx]; rfl

theorem told_answered (hq : ∀ h ∈ hs, h.index? = none) (e : Event (gateCall fleet)) :
    (Phase.rollout (gateAnswered fleet e).2).Told fleet (gateAnswered fleet e).1 hs := by
  have ha := answers fleet e
  generalize gateAnswered fleet e = x at ha ⊢
  cases ha with
  | admits _ =>
    refine ⟨.none fleet hs hq, fun x hx => ?_⟩
    obtain ⟨h, hm, hr⟩ := List.mem_filterMap.mp hx
    have := hq h hm
    cases h with
    | asked m => cases hr
    | _ => cases this
  | denies _ => trivial
  | halts => trivial
  | crashes => trivial

theorem told_landed {landing : Landing} {v : Upgrade} {u : Upgrade}
    (h : Ledger fleet₀ fleet (hs ++ new) (List.range (index + 1)) [] landing.flyingAt)
    (hok : ∀ x ∈ returns hs, x.2.isOk = true) (hnew : returns new = landing.returns index)
    (hs' : landing.Suits fleet.config index u v) :
    (Phase.rollout (canaryLanded index (fleet, landing)).2).Told fleet₀
      (canaryLanded index (fleet, landing)).1 (hs ++ new) := by
  rw [Phase.Told.eq_def]
  cases landing with
  | flying f =>
    obtain ⟨rfl, -⟩ := hs'
    refine ⟨h, fun x hx => hok x ?_⟩
    rw [returns_append, hnew] at hx
    exact (List.append_nil (returns hs)) ▸ hx
  | landed result =>
    cases result with
    | ok a =>
      refine ⟨h, fun x hx => ?_⟩
      rw [returns_append, hnew] at hx
      rcases List.mem_append.mp hx with hx | hx
      · exact hok x hx
      · rw [List.mem_singleton.mp hx]; rfl
    | error e => trivial
  | crashed text => exact hs'.elim

theorem told_next (ho : fleet.Trying index []) (h : Ledger fleet₀ fleet hs (List.range index) [] [])
    (hok : ∀ x ∈ returns hs, x.2.isOk = true) (ctx : Context) (source : Except IoError Entry)
    (m : Moment) :
    (Phase.rollout (nextCanary fleet ctx source m index).2).Told fleet₀
      (nextCanary fleet ctx source m index).1
      (hs ++ canaryHappenings fleet ctx source m index) := by
  have hn := nexts fleet ctx source m index
  generalize canaryHappenings fleet ctx source m index = seen,
    nextCanary fleet ctx source m index = x at hn ⊢
  cases hn with
  | overflows _ _ => trivial
  | @begins inner hlt _ =>
    obtain ⟨u, v, landing, hu, -, -, -, hs', hstart⟩ := ho.begins hlt inner source m
    have ht := Flight.tells_start fleet index inner source m
    rw [hstart] at ht ⊢
    refine told_landed ?_ hok ht.returned hs'
    refine h.queue.fly ht (by simp) (by simp) ?_ hu hs'
    cases landing with
    | flying f => obtain ⟨rfl, -⟩ := hs'; exact .refl _
    | landed result => exact .refl _
    | crashed text => exact hs'.elim
  | skips hle _ =>
    obtain rfl := Nat.le_antisymm ho.le hle
    rw [List.append_nil]
    exact Bulk.Told.start h hok ho.failureCount ho.admitted
  | rests hle _ _ =>
    obtain rfl := Nat.le_antisymm ho.le hle
    rw [List.append_nil]
    exact ⟨h, hok⟩

theorem told_resumed {f : Flight} (ho : fleet.Trying (f.index + 1) [f])
    (h : Ledger fleet₀ fleet hs (List.range (f.index + 1)) [] [f.index])
    (hok : ∀ x ∈ returns hs, x.2.isOk = true) (m : Moment) {e : Event f.wait} (he : e.IsCalm) :
    (Phase.rollout (canaryResumed fleet m f e).2).Told fleet₀ (canaryResumed fleet m f e).1
      (hs ++ f.resumeHappenings fleet m e) := by
  obtain ⟨u, hu, hf⟩ := ho.tends.suits f (by simp)
  obtain ⟨v, landing, hresume, hs', -⟩ := Flight.resume_suits hu hf m he
  have ht := Flight.tells_resume fleet f m e
  unfold canaryResumed
  rw [hresume]
  rw [hresume] at ht
  refine told_landed ?_ hok ht.returned hs'
  refine h.fly ht (by simp) (by simp) ?_ hu hs'
  cases landing with
  | flying f' =>
    obtain ⟨hi, -⟩ := hs'
    rw [Landing.flyingAt, show f'.index = f.index from hi]
    exact .refl _
  | landed result => exact .refl _
  | crashed text => exact hs'.elim

end Run

namespace Bulk

variable {fleet₀ fleet : Fleet} {hs : List Happening} {b : Bulk}

/-- A lead that stopped early saw more failures than the limit. -/
theorem Told.admitted_eq (h : b.Told fleet₀ fleet hs) (ho : b.Orderly fleet)
    (hl : b.lead = .draining) (hle : fleet.failureCount ≤ fleet.maxFailures) :
    fleet.admitted = fleet.size - fleet.canaries := by
  rcases h.draining hl with hq | hlt
  · have hempty := ho.queue.symm.trans hq
    rw [List.drop_eq_nil_iff, List.length_range] at hempty
    have := ho.le
    omega
  · omega

/-- When the rollout ends, all that was begun has returned, and all failures are counted. -/
theorem Told.concluded (h : b.Told fleet₀ fleet hs) (ho : b.Orderly fleet)
    (hk : fleet₀.Keeps fleet) (hl : b.lead = .draining) (ha : b.admitted = []) :
    Concluded fleet₀ (conclude fleet).1 hs (conclude fleet).2 := by
  have hadmitted := admitted_conclude fleet
  have hqueued : b.queuedAt = [] := by rw [queuedAt, ha]; rfl
  have hflying : b.flyingAt = [] := by rw [flyingAt, ha]; rfl
  have howed : b.owed = 0 := by rw [owed, ha]; rfl
  have hentered : (entries hs).Perm (List.range (fleet.canaries + fleet.admitted)) := by
    have := h.ledger.entered
    rwa [hqueued, List.append_nil] at this
  have hreturned : ((returns hs).map Prod.fst).Perm (entries hs) := by
    have := h.ledger.returned
    rwa [hflying, List.append_nil] at this
  have hfail : failedRuns fleet₀.canaries hs = fleet.failureCount := by
    rw [← hk.canaries, h.failures, howed, Nat.add_zero]
  constructor
  case entered => rw [hadmitted, ← hk.canaries]; exact hentered
  case returned => exact hreturned
  case le => rw [hadmitted, ← hk.canaries, ← hk.size]; exact ho.le
  case success =>
    rw [hfail, ← hk.maxFailures]
    rcases Nat.lt_or_ge fleet.maxFailures fleet.failureCount with hlt | hle
    · rw [conclude_of_lt hlt]
      exact iff_of_false (fun hr => by cases hr.1) (Nat.not_le.mpr hlt)
    · rw [conclude_of_le hle]
      exact iff_of_true ⟨rfl, rfl⟩ hle
  case all =>
    rw [hfail, ← hk.maxFailures, ← hk.size, ← hk.canaries, hadmitted]
    exact h.admitted_eq ho hl
  case exceeded =>
    rw [hfail, ← hk.maxFailures]
    intro hlt
    rw [conclude_of_lt hlt]
    exact ⟨rfl, rfl⟩
  case untouched =>
    intro i u hi hu
    rw [hadmitted, ← hk.canaries] at hi
    rw [upgrade?_conclude] at hu
    refine ⟨ho.fresh hu hi, (h.ledger.untouched fun hm => ?_).2⟩
    have := List.mem_range.mp (hentered.mem_iff.mp hm)
    omega
  case err =>
    intro i r hm
    rw [upgrade?_conclude]
    exact h.ledger.err hm
  case low => exact fun hm hi => h.low hm (by rw [hk.canaries]; exact hi)

theorem Told.ended (h : b.Told fleet₀ fleet hs) (ho : b.Orderly fleet)
    (hk : fleet₀.Keeps fleet) (hl : b.lead = .draining) (ha : b.admitted = []) :
    (Phase.rollout (.ended (conclude fleet).2)).Told fleet₀ (conclude fleet).1 hs := by
  have := h.concluded ho hk hl ha
  rcases Nat.lt_or_ge fleet.maxFailures fleet.failureCount with hlt | hle
  · rw [conclude_of_lt hlt] at this ⊢; exact this
  · rw [conclude_of_le hle] at this ⊢; exact this

end Bulk

section Courses

variable {σ : Type} {env : Surroundings σ} {ctx : Context} {x y : Scene σ}
  {hs new : List Happening} {fleet₀ : Fleet}

theorem Scene.Acts.told (h : x.Acts env ctx new y) (hk : fleet₀.Keeps x.fleet)
    (ho : x.phase.Orderly x.fleet) (ht : x.phase.Told fleet₀ x.fleet hs) :
    y.phase.Told fleet₀ y.fleet (hs ++ new) := by
  cases h with
  | start =>
    obtain ⟨rfl, hq⟩ := ht
    rw [Scene.ofRun_fleet, Scene.ofRun_phase]
    exact Run.told_start hq _ _
  | canaryDue _ =>
    rw [Scene.ofRun_fleet, Scene.ofRun_phase]
    exact Run.told_next ho ht.1 ht.2 _ _ _
  | lead hl =>
    rw [List.append_nil]
    exact Bulk.Told.lead ht ho (Bulk.leads_of_moved hl)
  | conclude hl =>
    obtain ⟨hd, -, ha, rfl, rfl⟩ := Bulk.conclude_of_ended hl
    rw [List.append_nil]
    exact Bulk.Told.ended ht ho hk hd ha
  | overflow _ => trivial
  | takeOff ha _ =>
    exact Bulk.Told.flies ht ho (Bulk.Orderly.flies_takeOff ho ha _ _)
      (Flight.tells_start _ _ _ _ _)
  | account ha hl =>
    rw [List.append_nil]
    exact Bulk.Told.accounts ht (Bulk.accounts ha hl)
  | again _ _ _ => trivial
  | takeOffAgain _ _ => trivial
  | accountAgain _ _ => trivial

theorem Scene.Hears.told (h : x.Hears env ctx new y) (calm : env.Calm)
    (ho : x.phase.Orderly x.fleet) (ht : x.phase.Told fleet₀ x.fleet hs) :
    y.phase.Told fleet₀ y.fleet (hs ++ new) := by
  cases h with
  | gate _ =>
    obtain ⟨rfl, hq⟩ := ht
    rw [List.append_nil]
    exact Run.told_answered hq _
  | canary he => exact Run.told_resumed ho ht.1 ht.2 _ (calm he)
  | cooldown _ =>
    rw [List.append_nil]
    exact Bulk.Told.start ht.1 ht.2 (Fleet.Trying.failureCount ho) (Fleet.Trying.admitted ho)
  | bulk ha he =>
    exact Bulk.Told.flies ht ho (Bulk.Orderly.flies_resume ho ha _ (calm he))
      (Flight.tells_resume _ _ _ _)
  | retry _ _ => trivial

theorem Course.told {s : σ} (h : Course env ctx ⟨s, fleet₀, .idle⟩ hs y) (calm : env.Calm)
    (hnew : fleet₀.IsNew) : y.phase.Told fleet₀ y.fleet hs := by
  induction h with
  | here => exact ⟨rfl, fun _ hm => absurd hm List.not_mem_nil⟩
  | later _ _ ih => exact ih
  | act h ha ih => exact ha.told h.keeps (h.orderly calm hnew) ih
  | hear h hh ih => exact hh.told calm (h.orderly calm hnew) ih

end Courses

/-! ## The end -/

/-- The phases of a fleet that came past its canaries. -/
def Phase.IsPast : Phase → Prop
  | rollout (.bulk _) | rollout (.crashed _) | retry _ => True
  | rollout (.ended (.ok ())) | rollout (.ended (.error (.maxFailuresExceeded _ _))) => True
  | _ => False

/-- A rollout that begins with `fleet` comes past its canaries and ends with `fleet'`. -/
def Finishes {σ : Type} (env : Surroundings σ) (ctx : Context) (s : σ) (fleet : Fleet)
    (hs : List Happening) (fleet' : Fleet) (result : Except RunError Unit) : Prop :=
  ∃ hs₁ hs₂ s₁ fleet₁ b s₂, hs = hs₁ ++ hs₂ ∧
    Course env ctx ⟨s, fleet, .idle⟩ hs₁ ⟨s₁, fleet₁, .rollout (.bulk b)⟩ ∧
    Course env ctx ⟨s₁, fleet₁, .rollout (.bulk b)⟩ hs₂ ⟨s₂, fleet', .rollout (.ended result)⟩

section Ends

variable {σ : Type} {env : Surroundings σ} {ctx : Context} {x y : Scene σ}
  {hs new : List Happening} {fleet fleet' : Fleet} {result : Except RunError Unit}

theorem Scene.Acts.past (h : x.Acts env ctx new y) (hp : x.phase.IsPast) : y.phase.IsPast := by
  cases h with
  | start => exact hp.elim
  | canaryDue _ => exact hp.elim
  | conclude hl =>
    obtain ⟨-, -, -, rfl, rfl⟩ := Bulk.conclude_of_ended hl
    unfold Bulk.conclude
    split <;> trivial
  | _ => trivial

theorem Scene.Hears.past (h : x.Hears env ctx new y) (hp : x.phase.IsPast) : y.phase.IsPast := by
  cases h with
  | gate _ => exact hp.elim
  | canary _ => exact hp.elim
  | cooldown _ => exact hp.elim
  | _ => trivial

theorem Course.past (h : Course env ctx x hs y) (hp : x.phase.IsPast) : y.phase.IsPast := by
  induction h with
  | here => exact hp
  | later _ _ ih => exact ih
  | act _ ha ih => exact ha.past ih
  | hear _ hh ih => exact hh.past ih

theorem Finishes.concluded {s : σ} (h : Finishes env ctx s fleet hs fleet' result)
    (calm : env.Calm) (hnew : fleet.IsNew) : Concluded fleet fleet' hs result := by
  obtain ⟨hs₁, hs₂, s₁, fleet₁, b, s₂, rfl, h₁, h₂⟩ := h
  have hpast : (Phase.rollout (.ended result)).IsPast := h₂.past trivial
  have htold : (Phase.rollout (.ended result)).Told fleet fleet' (hs₁ ++ hs₂) :=
    (h₁.trans h₂).told calm hnew
  cases result with
  | ok a => exact htold
  | error e =>
    cases e with
    | maxFailuresExceeded failures max => exact htold
    | _ => exact hpast.elim

end Ends

/-! ## Outcomes -/

/-- The runs of the upgrades from an index on return what their outcome is. -/
def Agrees (outcome : Nat → Bool) (low : Nat) (hs : List Happening) : Prop :=
  ∀ {i : Nat} {r : Except UpgradeError Unit}, (i, r) ∈ returns hs → low ≤ i → r.isOk = outcome i

/-- Whether an upgrade is one from an index on whose outcome is a failure. -/
def failsFrom (outcome : Nat → Bool) (low i : Nat) : Bool := decide (low ≤ i) && !outcome i

/-- How many of the upgrades after the canaries have a failure as their outcome. -/
def Fleet.failing (fleet : Fleet) (outcome : Nat → Bool) : Nat :=
  (List.range fleet.size).countP (failsFrom outcome fleet.canaries)

namespace Concluded

variable {fleet fleet' : Fleet} {hs : List Happening} {result : Except RunError Unit}
  {outcome : Nat → Bool}

theorem failedRuns_eq (h : Concluded fleet fleet' hs result)
    (ho : Agrees outcome fleet.canaries hs) :
    failedRuns fleet.canaries hs = (List.range (fleet.canaries + fleet'.admitted)).countP
      (failsFrom outcome fleet.canaries) := by
  have hcongr : failedRuns fleet.canaries hs =
      (returns hs).countP (failsFrom outcome fleet.canaries ∘ Prod.fst) := by
    refine List.countP_congr fun x hx => ?_
    by_cases hi : fleet.canaries ≤ x.1
    · rw [ho hx hi]; rfl
    · simp [failsFrom, hi]
  rw [hcongr, ← List.countP_map, h.returned.countP_eq, h.entered.countP_eq]

/-- The end state by the outcomes of all upgrades after the canaries. -/
theorem endState_eq (h : Concluded fleet fleet' hs result)
    (ho : Agrees outcome fleet.canaries hs) :
    fleet'.endState =
      if fleet.failing outcome ≤ fleet.maxFailures then .success else .maxFailuresExceeded := by
  have hfail := h.failedRuns_eq ho
  have hle : failedRuns fleet.canaries hs ≤ fleet.failing outcome := by
    rw [hfail]
    exact (List.range_sublist.mpr h.le).countP_le
  by_cases hlimit : failedRuns fleet.canaries hs ≤ fleet.maxFailures
  · -- All upgrades were admitted, so all failures were seen.
    have hall : fleet.canaries + fleet'.admitted = fleet.size := by
      rw [h.all hlimit, Nat.add_sub_cancel' fleet.canaries_le]
    rw [hall] at hfail
    have hfailing : failedRuns fleet.canaries hs = fleet.failing outcome := hfail
    rw [if_pos (by omega)]
    exact (h.success.mpr hlimit).2
  · rw [if_neg (by omega)]
    exact (h.exceeded (Nat.lt_of_not_le hlimit)).2

/-- The failures of a rollout that succeeded are the upgrades whose outcome is one. -/
theorem failures_iff (h : Concluded fleet fleet' hs result)
    (ho : Agrees outcome fleet.canaries hs) (hs' : fleet'.endState = .success) {i : Nat} :
    i ∈ fleet'.failures.map (·.index) ↔
      i < fleet.size ∧ failsFrom outcome fleet.canaries i = true := by
  have hle : failedRuns fleet.canaries hs ≤ fleet.maxFailures := by
    by_cases hlt : fleet.maxFailures < failedRuns fleet.canaries hs
    · rw [(h.exceeded hlt).2] at hs'
      cases hs'
    · exact Nat.le_of_not_lt hlt
  have hall : fleet.canaries + fleet'.admitted = fleet.size := by
    rw [h.all hle, Nat.add_sub_cancel' fleet.canaries_le]
  have hreturned : ((returns hs).map Prod.fst).Perm (List.range fleet.size) := by
    rw [← hall]
    exact h.returned.trans h.entered
  have hout {r : Except UpgradeError Unit} (hm : (i, r) ∈ returns hs) :
      (!r.isOk) = failsFrom outcome fleet.canaries i := by
    by_cases hi : fleet.canaries ≤ i
    · rw [ho hm hi]
      simp [failsFrom, hi]
    · rw [h.low hm (Nat.lt_of_not_le hi)]
      simp [failsFrom, hi]
  rw [Fleet.mem_index_failures]
  constructor
  · rintro ⟨u, hu, he⟩
    have hi : i < fleet.size := by
      refine Nat.lt_of_not_le fun hi => ?_
      rw [(h.untouched (hall ▸ hi) hu).1.err] at he
      cases he
    obtain ⟨⟨j, r⟩, hm, rfl⟩ := List.mem_map.mp (hreturned.mem_iff.mpr (List.mem_range.mpr hi))
    obtain ⟨w, hw, herr⟩ := h.err hm
    obtain rfl : u = w := Option.some.inj (hu.symm.trans hw)
    exact ⟨hi, by rw [← hout hm, ← herr]; exact he⟩
  · rintro ⟨hi, hf⟩
    obtain ⟨⟨j, r⟩, hm, rfl⟩ := List.mem_map.mp (hreturned.mem_iff.mpr (List.mem_range.mpr hi))
    obtain ⟨w, hw, herr⟩ := h.err hm
    exact ⟨w, hw, by rw [herr, hout hm]; exact hf⟩

end Concluded

/-! ## Going on -/

/-- The steps before the lead seeks a permit again, or waits for the end. -/
def Lead.work : Lead → Nat
  | seeking => 3
  | holding => 2
  | cleared => 1
  | draining => 0

/-- The steps that are left of an admitted upgrade, besides the ends of its waits. -/
def Admitted.work : Admitted → Nat
  | queued _ _ => 4
  | flying _ => 3
  | landed _ _ => 2
  | counted _ => 1

/-- The steps that a step of a run leaves of an admitted upgrade; where it crashed, the lead has
that to gather. -/
def Landing.work : Landing → Nat
  | flying _ => 3
  | landed _ => 2
  | crashed _ => 1

theorem Landing.work_le (landing : Landing) : landing.work ≤ 3 := by
  cases landing with
  | flying f => exact Nat.le_refl _
  | landed result => exact Nat.le_succ _
  | crashed text => exact Nat.le_add_left 1 2

namespace Bulk

/-- The steps that are left at most, besides the ends of waits. -/
def work (b : Bulk) : Nat :=
  8 * b.queue.length + b.lead.work + (b.admitted.map Admitted.work).sum

variable {fleet fleet' : Fleet} {b b' : Bulk} {at_ : Nat}

/-- A step of the lead leaves less to do. A crash that it has still to gather is one step too. -/
theorem work_leads (hl : b.Leads fleet fleet' b') :
    b'.work + b'.crashes < b.work + b.crashes := by
  cases hl with
  | exhausts hl _ =>
    rcases hl with hl | hl
    · simp only [work, hl, Lead.work]; omega
    · simp only [work, hl, Lead.work]; omega
  | takes hl _ => simp only [work, hl, Lead.work]; omega
  | stops hl _ => simp only [work, hl, Lead.work]; omega
  | clears hl _ => simp only [work, hl, Lead.work]; omega
  | admits inner hl hq =>
    simp only [work, hl, hq, Lead.work, List.length_cons, List.map_append, List.map_cons,
      List.map_nil, List.sum_append, List.sum_cons, List.sum_nil, Admitted.work]
    omega
  | gathers _ hpos => simp only [work]; omega

theorem work_place {a : Admitted} (ha : b.admitted[at_]? = some a) (a' : Admitted) :
    (b.place at_ a').work + a.work = b.work + a'.work := by
  have hsum := sum_set_add ha a' Admitted.work
  simp only [work, place]
  omega

theorem work_release {a : Admitted} (ha : b.admitted[at_]? = some a) :
    (b.release at_).work + a.work = b.work := by
  have hsum := sum_eraseIdx_add ha Admitted.work
  simp only [work, release]
  omega

/-- A step of the run of an admitted upgrade leaves what its landing does. -/
theorem work_settle {a : Admitted} (ha : b.admitted[at_]? = some a) (index : Nat)
    (landing : Landing) :
    b.crashes ≤ (b.settle at_ index landing).crashes ∧
      (b.settle at_ index landing).work + (b.settle at_ index landing).crashes + a.work =
        b.work + b.crashes + landing.work := by
  have kept {n : Nat} (h : n + a.work = b.work + landing.work) :
      b.crashes ≤ b.crashes ∧ n + b.crashes + a.work = b.work + b.crashes + landing.work :=
    ⟨Nat.le_refl _, by omega⟩
  cases landing with
  | flying f => exact kept (work_place ha (.flying f))
  | landed result => cases result <;> exact kept (work_place ha (.landed index _))
  | crashed text =>
    have hwork := work_release ha
    refine ⟨Nat.le_succ _, ?_⟩
    show (b.release at_).work + (b.crashes + 1) + a.work = b.work + b.crashes + 1
    omega

/-- The account of an upgrade that landed leaves less to do. -/
theorem work_accounts (ha : b.Accounts fleet fleet' b') :
    b'.crashes = b.crashes ∧ b'.work < b.work := by
  cases ha with
  | @counts at_ index failed ha =>
    have hwork : _ + 2 = _ + 1 := work_place ha (.counted index)
    exact ⟨rfl, by omega⟩
  | releases ha =>
    have hwork : _ + 1 = _ := work_release ha
    exact ⟨rfl, by omega⟩

variable {σ : Type} {env : Surroundings σ} {ctx : Context} {s : σ}

/-- An admitted upgrade goes on by itself, or is under way. -/
theorem admitted_goes_on (hopens : ∀ t, ∃ source, env.opens t source) {a : Admitted}
    (ha : a ∈ b.admitted) :
    (∃ new y, Scene.Acts env ctx ⟨s, fleet, .rollout (.bulk b)⟩ new y) ∨
      ∃ f, .flying f ∈ b.admitted := by
  obtain ⟨at_, hat⟩ := List.getElem?_of_mem ha
  cases a with
  | queued index inner =>
    obtain ⟨source, hsource⟩ := hopens s
    exact .inl ⟨_, _, .takeOff hat hsource⟩
  | flying f => exact .inr ⟨f, ha⟩
  | landed index failed => exact .inl ⟨_, _, .account hat rfl⟩
  | counted index => exact .inl ⟨_, _, .account hat rfl⟩

/-- After the canaries the rollout goes on by itself, unless a run is under way. The permits are as
many as the upgrades that are left, or at least one. -/
theorem goes_on (ho : b.Orderly fleet) (hc : 0 < fleet.config.concurrency.toNat)
    (hopens : ∀ t, ∃ source, env.opens t source) :
    (∃ new y, Scene.Acts env ctx ⟨s, fleet, .rollout (.bulk b)⟩ new y) ∨
      ∃ f, .flying f ∈ b.admitted := by
  cases hl : b.leadStep fleet ctx (env.moment s).now with
  | moved fleet' b' => exact .inl ⟨_, _, .lead hl⟩
  | ended fleet' result => exact .inl ⟨_, _, .conclude hl⟩
  | overflowed fleet' => exact .inl ⟨_, _, .overflow hl⟩
  | blocked =>
    have hne : b.admitted ≠ [] := fun ha => by
      rcases lead_of_blocked hl with ⟨hq, hle⟩ | hne
      · have hlt : fleet.canaries + fleet.admitted < fleet.size := by
          refine Nat.lt_of_not_le fun hsize => hq ?_
          rw [ho.queue]
          exact List.drop_eq_nil_of_le (by rw [List.length_range]; exact hsize)
        rw [ha, Fleet.capacity, List.length_nil] at hle
        omega
      · exact hne ha
    obtain ⟨a, ha⟩ := List.exists_mem_of_ne_nil _ hne
    exact admitted_goes_on hopens ha

end Bulk

namespace Scene

variable {σ : Type} {env : Surroundings σ} {ctx : Context} {x y : Scene σ} {new : List Happening}
  {b : Bulk}

/-- A step that a rollout takes by itself after its canaries leaves less to do, or ends it, or the
clock cannot show the end of an upgrade's time. -/
theorem Acts.work (h : x.Acts env ctx new y) (hx : x.phase = .rollout (.bulk b))
    (ho : b.Orderly x.fleet) :
    (∃ b', y.phase = .rollout (.bulk b') ∧ b'.work < b.work) ∨
      (∃ result, y.phase = .rollout (.ended result)) ∨
      (y.phase = .rollout (.crashed Run.clockOverflow) ∧
        ctx.within? (env.moment x.around).now x.fleet.config.actionTimeout = none) := by
  cases h with
  | start => cases hx
  | canaryDue _ => cases hx
  | lead hl =>
    cases hx
    have hcrashes := ho.crashes
    have := Bulk.work_leads (Bulk.leads_of_moved hl)
    exact .inl ⟨_, rfl, by omega⟩
  | conclude _ => exact .inr (.inl ⟨_, rfl⟩)
  | overflow hl =>
    cases hx
    obtain ⟨-, hw, -⟩ := Bulk.overflow_of_overflowed hl
    exact .inr (.inr ⟨rfl, hw⟩)
  | @takeOff s fleet _ at_ index inner source ha _ =>
    cases hx
    rw [Bulk.takeOff_eq ha]
    generalize Flight.start fleet index inner source (env.moment s) = started
    obtain ⟨hcrashes, hwork⟩ := Bulk.work_settle ha index started.2
    have hle := started.2.work_le
    simp only [Admitted.work] at hwork
    exact .inl ⟨b.settle at_ index started.2, rfl, by omega⟩
  | account ha hl =>
    cases hx
    exact .inl ⟨_, rfl, (Bulk.work_accounts (Bulk.accounts ha hl)).2⟩
  | again hover _ _ =>
    cases hx
    cases hover
  | takeOffAgain _ _ => cases hx
  | accountAgain _ _ => cases hx

/-- The end of a wait after the canaries leaves no more to do. -/
theorem Hears.work (h : x.Hears env ctx new y) (hx : x.phase = .rollout (.bulk b)) :
    ∃ b', y.phase = .rollout (.bulk b') ∧ b'.work ≤ b.work := by
  cases h with
  | gate _ => cases hx
  | canary _ => cases hx
  | cooldown _ => cases hx
  | @bulk _ s' fleet _ at_ f e ha _ =>
    cases hx
    obtain ⟨hcrashes, hwork⟩ := Bulk.work_settle ha f.index (f.resume fleet (env.moment s') e).2
    have hle := (f.resume fleet (env.moment s') e).2.work_le
    simp only [Admitted.work] at hwork
    exact ⟨b.settle at_ f.index (f.resume fleet (env.moment s') e).2, rfl, by omega⟩
  | retry _ _ => cases hx

end Scene

section Courses

variable {σ : Type} {env : Surroundings σ} {ctx : Context} {s : σ} {c : Config}
  {timeouts : StageTimeouts} {fleet : Fleet}

/-- **Admission.** For a rollout whose work does not crash:

1. Past its canaries it is never stuck. It goes on by itself, unless a run of an upgrade is under
   way. A step that it takes by itself leaves less to do, or ends it, or the clock cannot show the
   end of an upgrade's time; the end of a wait leaves no more to do.
2. When it comes past its canaries and ends, the runs of the canaries and of the upgrades admitted
   after them were entered, each once, and returned; it succeeded, with all upgrades admitted, when
   the failures stayed within their limit; otherwise it tells their number, and nothing was done
   with the other upgrades.
3. Another rollout of the same configuration, but for the number of permits, ends in the same state
   when the outcome of each upgrade is the same, and then with the same failures if it succeeds. -/
theorem bulk_admission (hc : Fleet.ofConfig c timeouts = .ok fleet) (calm : env.Calm) :
    (∀ {hs s₁ fleet₁ b}, Course env ctx ⟨s, fleet, .idle⟩ hs ⟨s₁, fleet₁, .rollout (.bulk b)⟩ →
      ((∀ t, ∃ source, env.opens t source) →
        (∃ new y, Scene.Acts env ctx ⟨s₁, fleet₁, .rollout (.bulk b)⟩ new y) ∨
          ∃ f, .flying f ∈ b.admitted) ∧
      (∀ {new y}, Scene.Acts env ctx ⟨s₁, fleet₁, .rollout (.bulk b)⟩ new y →
        (∃ b', y.phase = .rollout (.bulk b') ∧ b'.work < b.work) ∨
          (∃ result, y.phase = .rollout (.ended result)) ∨
          (y.phase = .rollout (.crashed Run.clockOverflow) ∧
            ctx.within? (env.moment s₁).now fleet.config.actionTimeout = none)) ∧
      ∀ {new y}, Scene.Hears env ctx ⟨s₁, fleet₁, .rollout (.bulk b)⟩ new y →
        ∃ b', y.phase = .rollout (.bulk b') ∧ b'.work ≤ b.work) ∧
    (∀ {hs fleet' result}, Finishes env ctx s fleet hs fleet' result →
      Concluded fleet fleet' hs result) ∧
    ∀ {τ : Type} {env' : Surroundings τ} {ctx' : Context} {t : τ} {n : UInt64}
      {timeouts' : StageTimeouts} {other : Fleet} {hs hs' fleet' other' result result'},
      Fleet.ofConfig { c with concurrency := n } timeouts' = .ok other → env'.Calm →
      Finishes env ctx s fleet hs fleet' result → Finishes env' ctx' t other hs' other' result' →
      ∀ outcome, Agrees outcome fleet.canaries hs → Agrees outcome fleet.canaries hs' →
        fleet'.endState = other'.endState ∧
        (fleet'.endState = .success →
          ∀ i, i ∈ fleet'.failures.map (·.index) ↔ i ∈ other'.failures.map (·.index)) := by
  obtain ⟨-, -, hnew⟩ := Fleet.config_of_ofConfig hc
  refine ⟨fun {hs s₁ fleet₁ b} h => ?_, fun h => h.concluded calm hnew, ?_⟩
  · have ho : b.Orderly fleet₁ := h.orderly calm hnew
    have hconfig : fleet₁.config = fleet.config := h.keeps.config
    have hconc : 0 < fleet₁.config.concurrency.toNat := by
      rw [hconfig]
      exact hnew.concurrency
    refine ⟨fun hopens => Bulk.goes_on ho hconc hopens, fun ha => ?_, fun hh => hh.work rfl⟩
    rw [← hconfig]
    exact ha.work rfl ho
  · intro τ env' ctx' t n timeouts' other hs hs' fleet' other' result result' hc' calm' h h' outcome
      ha ha'
    obtain ⟨-, -, hnew'⟩ := Fleet.config_of_ofConfig hc'
    obtain ⟨hcan, hsize, hmax⟩ := Fleet.limits_of_concurrency hc hc'
    have hend := h.concluded calm hnew
    have hend' := h'.concluded calm' hnew'
    rw [← hcan] at ha'
    have hstate : fleet'.endState = other'.endState := by
      rw [hend.endState_eq ha, hend'.endState_eq ha', Fleet.failing, Fleet.failing, hcan, hsize,
        hmax]
    refine ⟨hstate, fun hs i => ?_⟩
    rw [hend.failures_iff ha hs, hend'.failures_iff ha' (hstate ▸ hs), hcan, hsize]

/-- Neither of two upgrades finds its binary: both are entered, once each, and the rollout tells the
number of their failures. -/
theorem bulk_admission_pair : ∃ hs fleet' result,
    Finishes .free .background pairStart.around pairFleet hs fleet' result ∧
    (entries hs).Perm [0, 1] ∧ failedRuns 0 hs = 2 ∧
    result = .error (.maxFailuresExceeded (failedRuns 0 hs) 0) := by
  obtain ⟨rest, h⟩ := course_pair_ended
  have hf : Finishes .free .background pairStart.around pairFleet _
      { pairFailed 2 with endState := .maxFailuresExceeded }
      (.error (.maxFailuresExceeded 2 0)) := ⟨_, rest, _, _, _, _, rfl, course_pair, h⟩
  have law := (bulk_admission ofConfig_pair Surroundings.free_calm).2.1 hf
  -- Two failures are more than the limit, so that the result is an error with their number.
  have hlt : pairFleet.maxFailures < failedRuns 0 ([.asked ⟨0, []⟩] ++ rest) := by
    refine Nat.lt_of_not_le fun hle => ?_
    have hok : Except.error (RunError.maxFailuresExceeded 2 0) = .ok () := (law.success.mpr hle).1
    cases hok
  have htold := (law.exceeded hlt).1
  have htwo : 2 = failedRuns 0 ([.asked ⟨0, []⟩] ++ rest) := by
    injection htold with htold
    injection htold
  exact ⟨_, _, _, hf, law.entered, htwo.symm, htold⟩

end Courses

end Rollout
