import Rollout.Proofs.Fleet.Order

/-!
# The limit of failures

After the canaries there are never more upgrades under way than permits, and no more failures than
the limit and the permits together.

* **The measure** (`Bulk.uncounted`): an admitted upgrade whose outcome is not counted may still
  fail. A lead that has seen that the failures stay within their limit is about to admit one more.
* **The invariant** (`Bulk.Within`): the lead sees the count of failures while it has a permit, so
  at that time fewer upgrades than permits can still fail.
* **The limit** (`failure_budget`): it holds wherever a course comes to.
-/

namespace Rollout

/-- Whether the outcome of an admitted upgrade may still have to be counted. -/
def Admitted.isOpen : Admitted → Bool
  | counted _ => false
  | _ => true

/-- How many admitted upgrades have an outcome that is not counted yet. -/
def Bulk.uncounted (b : Bulk) : Nat := b.admitted.countP Admitted.isOpen

namespace Lead

/-- The permit of the lead, which it gives to the next upgrade. -/
def permits : Lead → Nat
  | holding | cleared => 1
  | _ => 0

/-- The upgrade that the lead is about to begin. -/
def pending : Lead → Nat
  | cleared => 1
  | _ => 0

end Lead

namespace Bulk

variable {fleet fleet' : Fleet} {b b' : Bulk}

/-- Upgrades and lead have no more permits than there are, and no more failures can come than the
limit and the permits allow. -/
structure Within (fleet : Fleet) (b : Bulk) : Prop where
  permits : b.admitted.length + b.lead.permits ≤ fleet.capacity
  budget : fleet.failureCount + b.uncounted + b.lead.pending ≤ fleet.maxFailures + fleet.capacity
  counted : fleet.failureCount + b.uncounted ≤ fleet.admitted

theorem uncounted_le (b : Bulk) : b.uncounted ≤ b.admitted.length := List.countP_le_length

namespace Within

theorem start (hf : fleet.failureCount = 0) : (Bulk.start fleet).Within fleet where
  permits := Nat.zero_le _
  budget := by rw [hf]; exact Nat.zero_le _
  counted := by rw [hf]; exact Nat.zero_le _

theorem lead (h : b.Within fleet) (hc : b.crashes = 0) (hl : b.Leads fleet fleet' b') :
    b'.Within fleet' := by
  obtain ⟨permits, budget, counted⟩ := h
  cases hl with
  | exhausts hl _ =>
    refine ⟨?_, ?_, counted⟩
    · exact Nat.le_trans (Nat.le_add_right _ _) permits
    · exact Nat.le_trans (Nat.le_add_right _ _) budget
  | takes hl hlt =>
    rw [hl] at budget
    exact ⟨hlt, budget, counted⟩
  | stops hl _ =>
    rw [hl] at budget
    exact ⟨Nat.le_trans (Nat.le_add_right _ _) permits, budget, counted⟩
  | clears hl hle =>
    -- The lead itself has a permit, so the upgrades have less than all of them.
    rw [hl] at permits
    refine ⟨permits, ?_, counted⟩
    have hopen := b.uncounted_le
    simp only [Lead.permits] at permits
    show fleet.failureCount + b.uncounted + 1 ≤ fleet.maxFailures + fleet.capacity
    omega
  | @admits index rest inner hl _ =>
    rw [hl] at permits budget
    have hcount : Bulk.uncounted
        { b with
          lead := .seeking, queue := rest, admitted := b.admitted ++ [.queued index inner] } =
        b.uncounted + 1 := by
      simp [Bulk.uncounted, Admitted.isOpen]
    refine ⟨?_, ?_, ?_⟩
    · simp only [List.length_append, List.length_singleton]
      exact permits
    · rw [hcount]
      exact budget
    · rw [hcount]
      exact Nat.succ_le_succ counted
  | gathers _ hpos => omega

/-- A step of a run changes neither the permits nor what may still fail. -/
theorem flies {a : Admitted} {landing : Landing} (h : b.Within fleet)
    (hf : b.Flies fleet a landing fleet' b') : b'.Within fleet' := by
  cases hf with
  | @of at_ u v ha hl hu _ _ hs =>
    have hopen : a.isOpen = true := by cases a <;> first | rfl | cases hl
    have hopen' : (landing.admitted a.index).isOpen = true := by
      cases landing with
      | crashed text => exact hs.elim
      | _ => rfl
    have hcount : (b.place at_ (landing.admitted a.index)).uncounted = b.uncounted := by
      have := countP_set_add ha (landing.admitted a.index) Admitted.isOpen
      rw [hopen, hopen'] at this
      exact Nat.add_right_cancel this
    refine ⟨?_, ?_, ?_⟩
    · rw [Fleet.put_capacity]
      have hlen : (b.place at_ (landing.admitted a.index)).admitted.length =
          b.admitted.length := List.length_set
      exact hlen.symm ▸ h.permits
    · rw [hcount, Fleet.put_capacity]
      exact h.budget
    · rw [hcount]
      exact h.counted

/-- A failure is counted, or a permit is freed whose upgrade is counted. -/
theorem accounts (h : b.Within fleet) (ha : b.Accounts fleet fleet' b') : b'.Within fleet' := by
  obtain ⟨permits, budget, counted⟩ := h
  cases ha with
  | @counts at_ index failed ha =>
    have hcount := countP_set_add ha (.counted index) Admitted.isOpen
    have hlen : (b.place at_ (.counted index)).admitted.length = b.admitted.length :=
      List.length_set
    change (b.place at_ (.counted index)).uncounted + 1 = b.uncounted + 0 at hcount
    have hfailed := failed.toNat_le
    refine ⟨?_, ?_, ?_⟩
    · rw [hlen]; exact permits
    · show fleet.failureCount + failed.toNat + (b.place at_ (.counted index)).uncounted +
        b.lead.pending ≤ fleet.maxFailures + fleet.capacity
      omega
    · show fleet.failureCount + failed.toNat + (b.place at_ (.counted index)).uncounted ≤
        fleet.admitted
      omega
  | @releases at_ index ha =>
    have hcount := countP_eraseIdx_add ha Admitted.isOpen
    change (b.release at_).uncounted + 0 = b.uncounted at hcount
    have hlen : (b.release at_).admitted.length ≤ b.admitted.length := List.length_eraseIdx_le _ _
    refine ⟨?_, ?_, ?_⟩
    · exact Nat.le_trans (Nat.add_le_add_right hlen _) permits
    · rw [← hcount] at budget; exact budget
    · rw [← hcount] at counted; exact counted

end Within

end Bulk

/-! ## Phases and courses -/

/-- The limit of failures in each phase, and what a rollout that ends with too many of them says. -/
def Phase.Within (fleet : Fleet) : Phase → Prop
  | rollout (.bulk b) => b.Within fleet
  | rollout (.ended (.error (.maxFailuresExceeded failures max))) =>
    failures = fleet.failureCount ∧ max = fleet.maxFailures ∧ max < failures ∧
      failures ≤ max + fleet.capacity
  | _ => fleet.failureCount ≤ fleet.maxFailures + fleet.capacity

namespace Phase

variable {fleet : Fleet} {phase : Phase}

theorem Within.le (h : phase.Within fleet) :
    fleet.failureCount ≤ fleet.maxFailures + fleet.capacity := by
  unfold Within at h
  split at h
  · have := h.budget
    omega
  · obtain ⟨rfl, rfl, -, hle⟩ := h
    exact hle
  · exact h

end Phase

theorem Flight.failureCount_start (fleet : Fleet) (index : Nat) (ctx : Context)
    (source : Except IoError Entry) (m : Moment) :
    (Flight.start fleet index ctx source m).1.failureCount = fleet.failureCount := by
  unfold start
  split
  · rfl
  · split <;> rfl

theorem Flight.failureCount_resume (fleet : Fleet) (f : Flight) (m : Moment) (e : Event f.wait) :
    (f.resume fleet m e).1.failureCount = fleet.failureCount := by
  unfold resume
  split <;> rfl

namespace Run

variable {fleet : Fleet} {index : Nat}

theorem within_landed (x : Fleet × Landing) (hx : x.1.failureCount = 0) :
    (Phase.rollout (canaryLanded index x).2).Within (canaryLanded index x).1 := by
  have hle (n : Nat) : x.1.failureCount ≤ n := hx ▸ Nat.zero_le n
  unfold canaryLanded
  split <;> exact hle _

theorem within_next (hf : fleet.failureCount = 0) (ctx : Context)
    (source : Except IoError Entry) (m : Moment) :
    (Phase.rollout (nextCanary fleet ctx source m index).2).Within
      (nextCanary fleet ctx source m index).1 := by
  have hle (n : Nat) : fleet.failureCount ≤ n := hf ▸ Nat.zero_le n
  have hn := nexts fleet ctx source m index
  generalize canaryHappenings fleet ctx source m index = seen,
    nextCanary fleet ctx source m index = x at hn ⊢
  cases hn with
  | overflows _ _ => exact hle _
  | begins _ _ => exact within_landed _ ((Flight.failureCount_start _ _ _ _ _).trans hf)
  | skips _ _ => exact .start hf
  | rests _ _ _ => exact hle _

theorem within_start (hf : fleet.failureCount = 0) (ctx : Context) (m : Moment) :
    (Phase.rollout (start fleet ctx m).2).Within (start fleet ctx m).1 := by
  have hle (n : Nat) : fleet.failureCount ≤ n := hf ▸ Nat.zero_le n
  have hs := starts fleet ctx m
  generalize start fleet ctx m = x at hs ⊢
  cases hs <;> exact hle _

theorem within_answered (hf : fleet.failureCount = 0) (e : Event (gateCall fleet)) :
    (Phase.rollout (gateAnswered fleet e).2).Within (gateAnswered fleet e).1 := by
  have hle (n : Nat) : fleet.failureCount ≤ n := hf ▸ Nat.zero_le n
  have ha := answers fleet e
  generalize gateAnswered fleet e = x at ha ⊢
  cases ha <;> exact hle _

end Run

theorem Bulk.within_conclude {fleet : Fleet} {b : Bulk} (h : b.Within fleet) :
    (Phase.rollout (.ended (Bulk.conclude fleet).2)).Within (Bulk.conclude fleet).1 := by
  have hle : fleet.failureCount ≤ fleet.maxFailures + fleet.capacity := by
    have := h.budget
    omega
  unfold conclude
  split
  · exact ⟨rfl, rfl, ‹_›, hle⟩
  · exact hle

namespace Retry

variable {fleet fleet' : Fleet} {r r' : Retry}

theorem within_flies {a : Attempt} {landing : Landing}
    (h : fleet.failureCount ≤ fleet.maxFailures + fleet.capacity)
    (hf : r.Flies fleet a landing fleet' r') : (Phase.retry r').Within fleet' := by
  cases hf with
  | of _ _ _ _ _ _ =>
    show _ ≤ _ + (fleet.put _ _).capacity
    rw [Fleet.put_capacity]
    exact h

theorem within_accounts (h : fleet.failureCount ≤ fleet.maxFailures + fleet.capacity)
    (ha : r.Accounts fleet fleet' r') : (Phase.retry r').Within fleet' := by
  cases ha with
  | ends _ => exact Nat.le_trans (Nat.sub_le _ _) h

end Retry

section Courses

variable {σ : Type} {env : Surroundings σ} {ctx : Context} {x y : Scene σ} {hs : List Happening}

theorem Scene.Acts.within (h : x.Acts env ctx hs y) (ho : x.phase.Orderly x.fleet)
    (hw : x.phase.Within x.fleet) : y.phase.Within y.fleet := by
  cases h with
  | start =>
    rw [Scene.ofRun_fleet, Scene.ofRun_phase]
    exact Run.within_start (Fleet.IsNew.failureCount ho) _ _
  | canaryDue _ =>
    rw [Scene.ofRun_fleet, Scene.ofRun_phase]
    exact Run.within_next (Fleet.Trying.failureCount ho) _ _ _
  | lead hl => exact Bulk.Within.lead hw (Bulk.Orderly.crashes ho) (Bulk.leads_of_moved hl)
  | conclude hl =>
    obtain ⟨-, -, -, rfl, rfl⟩ := Bulk.conclude_of_ended hl
    exact Bulk.within_conclude hw
  | overflow hl =>
    obtain ⟨-, -, rfl⟩ := Bulk.overflow_of_overflowed hl
    exact hw.le
  | takeOff ha _ => exact Bulk.Within.flies hw (Bulk.Orderly.flies_takeOff ho ha _ _)
  | account ha hl => exact Bulk.Within.accounts hw (Bulk.accounts ha hl)
  | again _ _ _ => exact hw.le
  | takeOffAgain ha _ => exact Retry.within_flies hw (Retry.Orderly.flies_takeOff ho ha _ _)
  | accountAgain ha hl => exact Retry.within_accounts hw (Retry.accounts ha hl)

theorem Scene.Hears.within (h : x.Hears env ctx hs y) (calm : env.Calm)
    (ho : x.phase.Orderly x.fleet) (hw : x.phase.Within x.fleet) : y.phase.Within y.fleet := by
  cases h with
  | gate _ => exact Run.within_answered (Fleet.IsNew.failureCount ho) _
  | canary _ =>
    refine Run.within_landed _ ?_
    rw [Flight.failureCount_resume]
    exact Fleet.Trying.failureCount ho
  | cooldown _ => exact Bulk.Within.start (Fleet.Trying.failureCount ho)
  | bulk ha he => exact Bulk.Within.flies hw (Bulk.Orderly.flies_resume ho ha _ (calm he))
  | retry ha he => exact Retry.within_flies hw (Retry.Orderly.flies_resume ho ha _ (calm he))

theorem Course.within (h : Course env ctx x hs y) (calm : env.Calm)
    (ho : x.phase.Orderly x.fleet) (hw : x.phase.Within x.fleet) : y.phase.Within y.fleet := by
  induction h with
  | here => exact hw
  | later _ _ ih => exact ih
  | act h ha ih => exact ha.within (h.orderly calm ho) ih
  | hear h hh ih => exact hh.within calm (h.orderly calm ho) ih

variable {c : Config} {timeouts : StageTimeouts} {fleet : Fleet} {s : σ}

/-- **The limit of failures.** Wherever a rollout comes to whose work does not crash: the upgrades
under way and the lead have no more permits than there are; the failures counted so far, together
with the admitted upgrades whose outcome is not counted yet, are no more than the limit and the
permits, and no more than the upgrades after the canaries; and a rollout that ends with too many
failures tells their number, which is above the limit by no more than the permits. -/
theorem failure_budget (hc : Fleet.ofConfig c timeouts = .ok fleet) (calm : env.Calm)
    (h : Course env ctx ⟨s, fleet, .idle⟩ hs x) :
    (∀ b, x.phase = .rollout (.bulk b) →
      b.admitted.length + b.lead.permits ≤ fleet.capacity ∧
      x.fleet.failureCount + b.uncounted ≤ fleet.maxFailures + fleet.capacity ∧
      x.fleet.failureCount + b.uncounted ≤ fleet.size - fleet.canaries) ∧
    x.fleet.failureCount ≤ fleet.maxFailures + fleet.capacity ∧
    ∀ failures max, x.phase = .rollout (.ended (.error (.maxFailuresExceeded failures max))) →
      max = fleet.maxFailures ∧ failures = x.fleet.failureCount ∧ max < failures ∧
        failures ≤ max + fleet.capacity := by
  obtain ⟨-, -, hnew⟩ := Fleet.config_of_ofConfig hc
  have hk : fleet.Keeps x.fleet := h.keeps
  have ho : x.phase.Orderly x.fleet := h.orderly calm hnew
  have hw : x.phase.Within x.fleet := by
    refine h.within calm hnew ?_
    show fleet.failureCount ≤ _
    rw [hnew.failureCount]
    exact Nat.zero_le _
  rw [← hk.capacity, ← hk.maxFailures, ← hk.size, ← hk.canaries]
  refine ⟨fun b hb => ?_, hw.le, fun failures max hm => ?_⟩
  · rw [hb] at ho hw
    have hle := Bulk.Orderly.le ho
    obtain ⟨permits, budget, counted⟩ : b.Within x.fleet := hw
    exact ⟨permits, by omega, by omega⟩
  · rw [hm] at hw
    obtain ⟨hf, hmax, hlt, hle⟩ := hw
    exact ⟨hmax, hf, hlt, hle⟩

end Courses

/-! ## A rollout that reaches the limit -/

/-- Two backends with a permit each, no failure allowed, and as much time for an upgrade as a clock
can show at its start. -/
def pairConfig : Config :=
  { (default : Config) with
    concurrency := 2, src := "web", lb := "127.0.0.1:8000", pattern := "/"
    backends := ["10.0.0.1:80", "10.0.0.2:80"], preconditionTimeoutSecs := 30
    actionTimeoutSecs := 9223372036854775807 }

/-- The backends of the two. -/
def pairBackends : List Backend := [⟨.v4 ⟨10, 0, 0, 1⟩, 80⟩, ⟨.v4 ⟨10, 0, 0, 2⟩, 80⟩]

/-- The fleet of the two. -/
def pairFleet : Fleet :=
  ⟨pairConfig, .standard, pairBackends,
    [.fresh "10.0.0.1:80" ⟨.v4 ⟨10, 0, 0, 1⟩, 80⟩, .fresh "10.0.0.2:80" ⟨.v4 ⟨10, 0, 0, 2⟩, 80⟩],
    0, .unknown, 0⟩

/-- The two in their pool, at the start of the clock. -/
def pairStart : Scene (Table × Moment) :=
  ⟨(Table.empty.seed "/" pairBackends, ⟨0, []⟩), pairFleet, .idle⟩

theorem ofConfig_pair : Fleet.ofConfig pairConfig .standard = .ok pairFleet := rfl

/-- The two after the health of their pool; there are no canaries. -/
def pairBulk : Scene (Table × Moment) :=
  ⟨pairStart.around, pairFleet, .rollout (.bulk (.start pairFleet))⟩

theorem course_pair : Course .free .background pairStart [.asked ⟨0, []⟩] pairBulk := by
  have start : Course .free .background pairStart _
      ⟨pairStart.around, pairFleet, .rollout (.gate ⟨some 30000000000, none⟩)⟩ :=
    .act .here .start
  have canaries : Course .free .background pairStart _
      ⟨pairStart.around, pairFleet, .rollout (.canaryDue 0)⟩ :=
    .hear start (.gate (e := .result (pairStart.around.1.health "/")) ⟨trivial, rfl, rfl⟩)
  have missing : Surroundings.free.opens pairStart.around (.error (.code 2)) := trivial
  exact .act canaries (.canaryDue missing)

/-- The fleet of the two after both have failed, with their failures counted or not. -/
def pairFailed (failureCount : Nat) : Fleet :=
  { pairFleet with
    upgrades := pairFleet.upgrades.map fun u => (u.refuse "web" (.code 2)).1
    failureCount, admitted := 2 }

/-- Both are admitted before either has failed. -/
theorem course_pair_admitted : ∃ inner, Course .free .background pairBulk []
    ⟨pairStart.around, { pairFleet with admitted := 2 },
      .rollout (.bulk ⟨.seeking, [], [.queued 0 inner, .queued 1 inner], 0⟩)⟩ := by
  have first : Course .free .background pairBulk _
      ⟨pairStart.around, { pairFleet with admitted := 1 },
        .rollout (.bulk ⟨.seeking, [1], [.queued 0 _], 0⟩)⟩ :=
    .act (.act (.act .here (.lead rfl)) (.lead rfl)) (.lead rfl)
  exact ⟨_, .act (.act (.act first (.lead rfl)) (.lead rfl)) (.lead rfl)⟩

/-- Neither finds its binary. -/
theorem course_pair_landed : ∃ hs, Course .free .background pairBulk hs
    ⟨pairStart.around, pairFailed 0,
      .rollout (.bulk ⟨.seeking, [], [.landed 0 true, .landed 1 true], 0⟩)⟩ := by
  obtain ⟨inner, both⟩ := course_pair_admitted
  have missing : Surroundings.free.opens pairStart.around (.error (.code 2)) := trivial
  have at₀ : [Admitted.queued 0 inner, .queued 1 inner][0]? = some (.queued 0 inner) := rfl
  have at₁ : [Admitted.landed 0 true, .queued 1 inner][1]? = some (.queued 1 inner) := rfl
  have first : Course .free .background pairBulk _
      ⟨pairStart.around, _,
        .rollout (.bulk ⟨.seeking, [], [.landed 0 true, .queued 1 inner], 0⟩)⟩ :=
    (both.act (.takeOff at₀ missing) :)
  exact ⟨_, (first.act (.takeOff at₁ missing) :)⟩

/-- Both failures are counted, and nothing is left to do. -/
theorem course_pair_ended : ∃ hs, Course .free .background pairBulk hs
    ⟨pairStart.around, { pairFailed 2 with endState := .maxFailuresExceeded },
      .rollout (.ended (.error (.maxFailuresExceeded 2 0)))⟩ := by
  obtain ⟨hs, both⟩ := course_pair_landed
  have at₀ : [Admitted.landed 0 true, .landed 1 true][0]? = some (.landed 0 true) := rfl
  have one : Course .free .background pairBulk _
      ⟨pairStart.around, pairFailed 1,
        .rollout (.bulk ⟨.seeking, [], [.counted 0, .landed 1 true], 0⟩)⟩ :=
    (both.act (.account at₀ rfl) :)
  have at₁ : [Admitted.counted 0, .landed 1 true][1]? = some (.landed 1 true) := rfl
  have two : Course .free .background pairBulk _
      ⟨pairStart.around, pairFailed 2,
        .rollout (.bulk ⟨.seeking, [], [.counted 0, .counted 1], 0⟩)⟩ :=
    (one.act (.account at₁ rfl) :)
  have at₀ : [Admitted.counted 0, .counted 1][0]? = some (.counted 0) := rfl
  have three : Course .free .background pairBulk _
      ⟨pairStart.around, pairFailed 2, .rollout (.bulk ⟨.seeking, [], [.counted 1], 0⟩)⟩ :=
    (two.act (.account at₀ rfl) :)
  have at₀ : [Admitted.counted 1][0]? = some (.counted 1) := rfl
  have four : Course .free .background pairBulk _
      ⟨pairStart.around, pairFailed 2, .rollout (.bulk ⟨.seeking, [], [], 0⟩)⟩ :=
    (three.act (.account at₀ rfl) :)
  exact ⟨_, .act (.act four (.lead rfl)) (.conclude rfl)⟩

/-- Both of the two fail, though no failure is allowed: one more than the limit for each permit. -/
theorem failure_budget_pair : ∃ hs x, Course .free .background pairStart hs x ∧
    x.phase = .rollout (.ended (.error (.maxFailuresExceeded 2 0))) ∧
    pairFleet.capacity = 2 ∧ 0 < 2 ∧ 2 ≤ 0 + pairFleet.capacity := by
  obtain ⟨hs, rest⟩ := course_pair_ended
  have h := course_pair.trans rest
  have law := failure_budget ofConfig_pair Surroundings.free_calm h
  exact ⟨_, _, h, rfl, rfl, (law.2.2 2 0 rfl).2.2⟩

end Rollout
