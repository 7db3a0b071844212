import Rollout.Fleet.Clock
import Rollout.Proofs.Fleet.Gate
import Rollout.Proofs.Fleet.Progress

/-!
# Canaries take turns

The canaries are upgraded one by one, each after the one before it is back in its pool.

- **The order** (`InTurn`): nothing happens to a canary after its run returned, or once something
  happened to a later upgrade; and nothing happens to an upgrade before all canaries before it are
  back in their pool. `InTurn.append` is what an upgrade does next.
- **Turns** (`Turn`): the canaries up to an index are done, and later upgrades are untouched.
- **Courses** (`Leading`): how far a course is with its canaries. `Course.leading` is the induction.
-/

namespace Rollout

/-! ## The order of happenings -/

namespace Happening

/-- Whether one happening may come before another, with `k` canaries. -/
def Before (k : Nat) (x y : Happening) : Prop :=
  ∀ i j, x.index? = some i → y.index? = some j → j < k → i ≤ j ∧ (x.returned?.isSome → i < j)

theorem index?_of_returned? {x : Happening} (h : x.returned?.isSome) :
    ∃ m i r, x = .returned m i r := by
  cases x with
  | returned m i r => exact ⟨m, i, r, rfl⟩
  | _ => cases h

end Happening

/-- With `k` canaries, upgrades take turns: nothing happens to a canary after its run returned or
after something happened to a later upgrade, and nothing happens to any upgrade before each canary
before it is in the pool again. -/
structure InTurn (k : Nat) (hs : List Happening) : Prop where
  order : hs.Pairwise (Happening.Before k)
  added : ∀ {p : Nat} {y : Happening} {j : Nat}, hs[p]? = some y → y.index? = some j →
    ∀ i < k, i < j → ∃ x ∈ hs.take p, x.Succeeds i .addToPool

namespace InTurn

variable {k j : Nat} {hs new : List Happening}

theorem of_none (h : ∀ x ∈ hs, x.index? = none) : InTurn k hs where
  order := List.pairwise_of_forall_mem_list fun x hx _ _ i _ hi => by
    rw [h x hx] at hi
    cases hi
  added hy hj := by
    rw [h _ (List.mem_of_getElem? hy)] at hj
    cases hj

/-- Something happens to one upgrade. If it is a canary, neither a later upgrade nor a run of its
own that returned came before. -/
theorem append (h : InTurn k hs) (own : ∀ y ∈ new, y.index? = some j)
    (order : j < k → (∀ x ∈ hs, ∀ i, x.index? = some i → i ≤ j ∧ (x.returned?.isSome → i < j)) ∧
      new.Pairwise fun x _ => x.returned? = none)
    (added : ∀ i < k, i < j → ∃ x ∈ hs, x.Succeeds i .addToPool) : InTurn k (hs ++ new) where
  order := by
    refine List.pairwise_append.mpr ⟨h.order, ?_, fun x hx y hy i j' hi hj hlt => ?_⟩
    · by_cases hjk : j < k
      · refine (order hjk).2.imp_of_mem fun {x y} hx hy hnone i j' hi hj _ => ?_
        rw [own x hx] at hi
        rw [own y hy] at hj
        cases hi
        cases hj
        exact ⟨Nat.le_refl _, fun hs => by rw [hnone] at hs; cases hs⟩
      · refine List.pairwise_of_forall_mem_list fun x hx y hy i j' _ hj hlt => ?_
        rw [own y hy] at hj
        cases hj
        exact absurd hlt hjk
    · rw [own y hy] at hj
      cases hj
      exact (order hlt).1 x hx i hi
  added {p y j'} hy hj i hik hij := by
    by_cases hp : p < hs.length
    · rw [List.getElem?_append_left hp] at hy
      obtain ⟨x, hx, ha⟩ := h.added hy hj i hik hij
      rw [List.take_append_of_le_length (Nat.le_of_lt hp)]
      exact ⟨x, hx, ha⟩
    · have hle : hs.length ≤ p := Nat.le_of_not_lt hp
      rw [List.getElem?_append_right hle] at hy
      rw [own y (List.mem_of_getElem? hy)] at hj
      cases hj
      obtain ⟨x, hx, ha⟩ := added i hik hij
      refine ⟨x, ?_, ha⟩
      rw [List.take_append, List.take_of_length_le hle]
      exact List.mem_append_left _ hx

end InTurn

/-! ## Turns -/

/-- The canaries before the index `low` are done, in turn, nothing happened to the upgrades from the
index `next` on, and no run returned an error. -/
structure Turn (fleet₀ fleet : Fleet) (hs : List Happening) (low next : Nat) : Prop where
  inTurn : InTurn fleet₀.canaries hs
  below : ∀ x ∈ hs, ∀ i, x.index? = some i → i < next
  returned : ∀ {m i r}, .returned m i r ∈ hs → i < low ∧ r = .ok ()
  done : ∀ i < low, ∃ u, fleet.upgrade? i = some u ∧ u.current = .done ∧ u.err = none
  added : ∀ i < low, ∃ x ∈ hs, x.Succeeds i .addToPool
  untouched : ∀ i, next ≤ i → fleet.upgrade? i = fleet₀.upgrade? i

/-- The run of the canary at an index returned the error `e`, and the rollout ended with it. -/
structure CanaryFailed (fleet₀ fleet : Fleet) (hs : List Happening) (index : Nat)
    (endpoint : String) (e : UpgradeError) : Prop where
  lt : index < fleet₀.canaries
  inTurn : InTurn fleet₀.canaries hs
  endpoint : ∃ u, fleet₀.upgrade? index = some u ∧ u.endpoint = endpoint
  returned : ∀ {m i e'}, .returned m i (.error e') ∈ hs → i = index ∧ e' = e
  error : ∃ v, fleet.upgrade? index = some v ∧ v.err = some e
  failures : fleet.failures.map (·.index) = [index]
  done : ∀ i < index, ∃ u, fleet.upgrade? i = some u ∧ u.current = .done ∧ u.err = none
  later : ∀ i, index < i → fleet.upgrade? i = fleet₀.upgrade? i ∧ ∀ x ∈ hs, x.index? ≠ some i
  endState : fleet.endState = .canaryFailure
  failureCount : fleet.failureCount = 0
  admitted : fleet.admitted = 0

/-- The failures of a fleet where only the upgrade at an index has an error. -/
theorem Fleet.failures_eq_singleton {fleet : Fleet} {index : Nat} {v : Upgrade}
    (hv : fleet.upgrade? index = some v) (he : v.err.isSome)
    (hrest : ∀ {i : Nat} {w : Upgrade}, fleet.upgrade? i = some w → i ≠ index → w.err = none) :
    fleet.failures.map (·.index) = [index] := by
  refine List.perm_singleton.mp ((List.perm_ext_iff_of_nodup (nodup_failuresFrom 0 fleet.upgrades)
    (List.nodup_singleton index)).mpr fun i => ?_)
  rw [List.mem_singleton]
  refine mem_index_failures.trans ⟨fun ⟨w, hw, hs⟩ => ?_, fun hi => ⟨v, hi ▸ hv, he⟩⟩
  by_contra hne
  rw [hrest hw hne] at hs
  cases hs

namespace Turn

variable {fleet₀ fleet : Fleet} {hs new : List Happening} {index next : Nat} {u v : Upgrade}
  {landing : Landing} {m : Moment}

theorem start (h : ∀ x ∈ hs, x.index? = none)
    (hf : ∀ i, fleet.upgrade? i = fleet₀.upgrade? i) : Turn fleet₀ fleet hs 0 0 where
  inTurn := .of_none h
  below x hx i hi := by rw [h x hx] at hi; cases hi
  returned hr := by cases h _ hr
  done i hi := absurd hi (Nat.not_lt_zero _)
  added i hi := absurd hi (Nat.not_lt_zero _)
  untouched i _ := hf i

section Steps

variable (h : Turn fleet₀ fleet hs index next) (hn : next ≤ index + 1)
  (hu : fleet.upgrade? index = some u) (he : landing.Ends m index u v new)
include h hn he

/-- A step of the canary whose turn it is keeps the order. -/
theorem inTurn_append : InTurn fleet₀.canaries (hs ++ new) := by
  refine h.inTurn.append he.own (fun _ => ⟨fun x hx i hi => ⟨?_, fun hr => ?_⟩, he.pairwise⟩)
    fun i _ hi => h.added i hi
  · have := h.below x hx i hi
    omega
  · obtain ⟨m', i', r, rfl⟩ := Happening.index?_of_returned? hr
    cases hi
    exact (h.returned hx).1

theorem below_append (x : Happening) (hx : x ∈ hs ++ new) (i : Nat) (hi : x.index? = some i) :
    i < index + 1 := by
  rcases List.mem_append.mp hx with hx | hx
  · exact Nat.lt_of_lt_of_le (h.below x hx i hi) hn
  · rw [he.own x hx] at hi
    cases hi
    exact Nat.lt_succ_self _

omit he in
theorem untouched_put (i : Nat) (hi : index + 1 ≤ i) :
    (fleet.put index v).upgrade? i = fleet₀.upgrade? i := by
  rw [Fleet.upgrade?_put_of_ne (Nat.ne_of_lt hi)]
  exact h.untouched i (Nat.le_trans hn hi)

omit hn he in
theorem done_put (i : Nat) (hi : i < index) :
    ∃ w, (fleet.put index v).upgrade? i = some w ∧ w.current = .done ∧ w.err = none := by
  rw [Fleet.upgrade?_put_of_ne (Nat.ne_of_gt hi)]
  exact h.done i hi

/-- The run of the canary goes on, or crashed. -/
theorem fly (hl : ∀ r, landing ≠ .landed r) :
    Turn fleet₀ (fleet.put index v) (hs ++ new) index (index + 1) where
  inTurn := h.inTurn_append hn he
  below := h.below_append hn he
  returned hr := by
    rcases List.mem_append.mp hr with hr | hr
    · exact h.returned hr
    · exact absurd (he.returned hr).1 (hl _)
  done := h.done_put
  added i hi := by
    obtain ⟨x, hx, ha⟩ := h.added i hi
    exact ⟨x, List.mem_append_left _ hx, ha⟩
  untouched := h.untouched_put hn

include hu

/-- The run of the canary succeeded, and the next one has its turn. -/
theorem succeed (hd : u.current ≠ .done) (hl : landing = .landed (.ok ())) :
    Turn fleet₀ (fleet.put index v) (hs ++ new) (index + 1) (index + 1) where
  inTurn := h.inTurn_append hn he
  below := h.below_append hn he
  returned hr := by
    rcases List.mem_append.mp hr with hr | hr
    · obtain ⟨hi, hok⟩ := h.returned hr
      exact ⟨Nat.lt_succ_of_lt hi, hok⟩
    · obtain ⟨hr, rfl⟩ := he.returned hr
      rw [hl] at hr
      cases hr
      exact ⟨Nat.lt_succ_self _, rfl⟩
  done i hi := by
    rcases Nat.lt_succ_iff_lt_or_eq.mp hi with hi | rfl
    · exact h.done_put i hi
    · obtain ⟨hdone, herr⟩ := he.ok hl
      exact ⟨v, Fleet.upgrade?_put_self hu, hdone, herr⟩
  added i hi := by
    rcases Nat.lt_succ_iff_lt_or_eq.mp hi with hi | rfl
    · obtain ⟨x, hx, ha⟩ := h.added i hi
      exact ⟨x, List.mem_append_left _ hx, ha⟩
    · obtain ⟨x, hx, ha⟩ := he.added hd hl
      exact ⟨x, List.mem_append_right _ hx, ha⟩
  untouched := h.untouched_put hn

/-- The run of the canary failed, while no other upgrade had an error. -/
theorem fail {e : UpgradeError} (hl : landing = .landed (.error e))
    (hlt : index < fleet₀.canaries) (hk : fleet₀.Keeps (fleet.put index v))
    (hrest : ∀ {i : Nat} {w : Upgrade}, fleet.upgrade? i = some w → w.err = none)
    (hf : fleet.failureCount = 0) (ha : fleet.admitted = 0) :
    CanaryFailed fleet₀ { fleet.put index v with endState := .canaryFailure } (hs ++ new) index
      ((((fleet.put index v).upgrade? index).map (·.endpoint)).getD "") e := by
  have hv : (fleet.put index v).upgrade? index = some v := Fleet.upgrade?_put_self hu
  have herr : v.err = some e := he.error e hl
  refine ⟨hlt, h.inTurn_append hn he, ?_, fun {m' i e'} hr => ?_, ⟨v, hv, herr⟩, ?_, h.done_put,
    fun i hi => ⟨h.untouched_put hn i hi, fun x hx hxi => ?_⟩, rfl, hf, ha⟩
  · obtain ⟨u₀, hu₀⟩ := Fleet.exists_upgrade (Nat.lt_of_lt_of_le hlt fleet₀.canaries_le)
    refine ⟨u₀, hu₀, ?_⟩
    rw [hv, ← hk.endpoint hu₀ hv]
    rfl
  · rcases List.mem_append.mp hr with hr | hr
    · cases (h.returned hr).2
    · obtain ⟨hr, rfl⟩ := he.returned hr
      rw [hl] at hr
      cases hr
      exact ⟨rfl, rfl⟩
  · show (fleet.put index v).failures.map (·.index) = [index]
    refine Fleet.failures_eq_singleton hv (by rw [herr]; rfl) fun {i w} hw hi => ?_
    rcases Fleet.upgrade?_put_cases hu hw with ⟨rfl, -⟩ | ⟨-, hw⟩
    · exact absurd rfl hi
    · exact hrest hw
  · have := h.below_append hn he x hx i hxi
    omega

end Steps

end Turn

/-! ## Courses -/

/-- Whether the canary before an index, if there is one, has returned by a point of time. -/
def Rested (hs : List Happening) (index : Nat) (now : Instant) : Prop :=
  0 < index → ∃ m, .returned m (index - 1) (.ok ()) ∈ hs ∧ m.now ≤ now

theorem Rested.later {hs : List Happening} {index : Nat} {now now' : Instant}
    (h : Rested hs index now) (hn : now ≤ now') : Rested hs index now' := fun hi => by
  obtain ⟨m, hm, hle⟩ := h hi
  exact ⟨m, hm, Nat.le_trans hle hn⟩

/-- Whether the others may be upgraded at a point of time: the last canary returned so long ago that
the wait after the canaries is over. A clock that could not show the end of such a wait is
excused. -/
def Fleet.Cooled (fleet : Fleet) (hs : List Happening) (now : Instant) : Prop :=
  ∃ m, .returned m (fleet.canaries - 1) (.ok ()) ∈ hs ∧
    (m.now.after fleet.config.canaryCooldown ≤ now ∨
      now.after? fleet.config.canaryCooldown = none)

/-- A sleeper who is awake has slept for the whole time, if a clock can show its end. -/
theorem Instant.after_le_of_wakeAfter_le {t now : Instant} {d : Duration}
    (hwake : t.wakeAfter d ≤ now) : t.after d ≤ now ∨ now.after? d = none := by
  by_cases hlt : t + d.nanos < limit
  · rw [wakeAfter, after?, if_pos hlt] at hwake
    exact .inl hwake
  · rw [wakeAfter, after?, if_neg hlt] at hwake
    have hle : t ≤ now := Nat.le_trans (Nat.le_add_right t longestSleep.nanos) hwake
    refine .inr (if_neg fun hnow => hlt ?_)
    exact Nat.lt_of_le_of_lt (Nat.add_le_add_right hle d.nanos) hnow

/-- A sleeper who lay down after the last canary returned, and is awake, has waited long enough. -/
theorem Rested.cooled {fleet : Fleet} {hs : List Happening} {t now : Instant}
    (h : Rested hs fleet.canaries t) (hk : 0 < fleet.canaries)
    (hwake : t.wakeAfter fleet.config.canaryCooldown ≤ now) : fleet.Cooled hs now := by
  obtain ⟨m, hm, hle⟩ := h hk
  refine ⟨m, hm, (Instant.after_le_of_wakeAfter_le hwake).imp_left fun hnow => ?_⟩
  exact Nat.le_trans (Nat.add_le_add_right hle _) hnow

section Courses

variable {σ : Type} {env : Surroundings σ} {ctx : Context} {fleet₀ fleet : Fleet} {s s' s₀ : σ}
  {phase : Phase} {x y : Scene σ} {hs new : List Happening} {index next : Nat}

/-- Why a rollout may upgrade the others: there are no canaries, the wait after them is over, or the
context has stopped. -/
def Waited (env : Surroundings σ) (ctx : Context) (fleet : Fleet) (hs : List Happening) (s : σ) :
    Prop :=
  fleet.canaries = 0 ∨ fleet.Cooled hs (env.moment s).now ∨ (ctx.stopped (env.moment s)).isSome

/-- How far a rollout of `fleet₀` is with its canaries, and what happened so far. -/
inductive Leading (env : Surroundings σ) (ctx : Context) (fleet₀ : Fleet) (s₀ : σ) :
    List Happening → Scene σ → Prop
  /-- It has not begun. -/
  | idle {s : σ} : Leading env ctx fleet₀ s₀ [] ⟨s, fleet₀, .idle⟩
  /-- It waits for the health of the pool. -/
  | gate {hs : List Happening} {s : σ} {inner : Context} : (∀ x ∈ hs, x.index? = none) →
    Leading env ctx fleet₀ s₀ hs ⟨s, fleet₀, .rollout (.gate inner)⟩
  /-- The pool does not allow it. -/
  | refused {hs : List Happening} {s : σ} {g : GateError} : (∀ x ∈ hs, x.index? = none) →
    Leading env ctx fleet₀ s₀ hs (.ofRun s (Run.refuse fleet₀ g))
  /-- The canary at an index has its turn, or there are no more of them. -/
  | due {hs : List Happening} {s : σ} {fleet : Fleet} {index : Nat} : fleet.Trying index [] →
    Turn fleet₀ fleet hs index index → Rested hs index (env.moment s).now →
    Leading env ctx fleet₀ s₀ hs ⟨s, fleet, .rollout (.canaryDue index)⟩
  /-- A canary is under way. -/
  | flying {hs : List Happening} {s : σ} {fleet : Fleet} {f : Flight} :
    fleet.Trying (f.index + 1) [f] → Turn fleet₀ fleet hs f.index (f.index + 1) →
    Leading env ctx fleet₀ s₀ hs ⟨s, fleet, .rollout (.canary f)⟩
  /-- A canary failed. -/
  | failed {hs : List Happening} {s : σ} {fleet : Fleet} {index : Nat} {endpoint : String}
      {e : UpgradeError} : CanaryFailed fleet₀ fleet hs index endpoint e →
    Leading env ctx fleet₀ s₀ hs ⟨s, fleet, .rollout (.ended (.error (.canary endpoint e)))⟩
  /-- A canary crashed, or the clock could not show the end of its time. -/
  | crashed {hs : List Happening} {s : σ} {fleet : Fleet} {low next : Nat} {text : String} :
    Turn fleet₀ fleet hs low next → next ≤ fleet₀.canaries → fleet.admitted = 0 →
    Leading env ctx fleet₀ s₀ hs ⟨s, fleet, .rollout (.crashed text)⟩
  /-- It waits after the canaries. -/
  | cooling {hs : List Happening} {s : σ} {fleet : Fleet} {t : Instant} :
    fleet.Trying fleet.canaries [] → Turn fleet₀ fleet hs fleet.canaries fleet.canaries →
    Rested hs fleet.canaries t → 0 < fleet.canaries →
    Leading env ctx fleet₀ s₀ hs
      ⟨s, fleet, .rollout (.cooldown (t.wakeAfter fleet.config.canaryCooldown))⟩
  /-- It came past the canaries. -/
  | past {hs₁ hs₂ : List Happening} {s₁ : σ} {fleet₁ : Fleet} {x : Scene σ} :
    fleet₁.Trying fleet₁.canaries [] →
    Turn fleet₀ fleet₁ hs₁ fleet₁.canaries fleet₁.canaries → Waited env ctx fleet₁ hs₁ s₁ →
    Course env ctx ⟨s₀, fleet₀, .idle⟩ hs₁ ⟨s₁, fleet₁, .rollout (.bulk (.start fleet₁))⟩ →
    Course env ctx ⟨s₁, fleet₁, .rollout (.bulk (.start fleet₁))⟩ hs₂ x →
    Leading env ctx fleet₀ s₀ (hs₁ ++ hs₂) x

namespace Leading

theorem start (hnew : fleet₀.IsNew) (m : Moment) :
    Leading env ctx fleet₀ s₀ ((Run.start fleet₀ ctx m).2.happenings m)
      (.ofRun s (Run.start fleet₀ ctx m)) := by
  have hs := Run.starts fleet₀ ctx m
  generalize Run.start fleet₀ ctx m = x at hs ⊢
  cases hs with
  | overflows _ =>
    have hnil : ∀ x ∈ ([] : List Happening), x.index? = none :=
      fun _ h => absurd h List.not_mem_nil
    exact .crashed (.start hnil fun _ => rfl) (Nat.zero_le _) hnew.admitted
  | halts _ _ => exact .refused fun _ h => absurd h List.not_mem_nil
  | asks _ _ => exact .gate fun x hx => List.mem_singleton.mp hx ▸ rfl

theorem answered (hnew : fleet₀.IsNew) (hs' : ∀ x ∈ hs, x.index? = none)
    (e : Event (Run.gateCall fleet₀)) :
    Leading env ctx fleet₀ s₀ hs (.ofRun s (Run.gateAnswered fleet₀ e)) := by
  have ha := Run.answers fleet₀ e
  generalize Run.gateAnswered fleet₀ e = x at ha ⊢
  cases ha with
  | admits _ =>
    exact .due hnew.trying (.start hs' fun _ => rfl) fun h => absurd h (Nat.lt_irrefl _)
  | denies _ => exact .refused hs'
  | halts => exact .refused hs'
  | crashes => exact .crashed (.start hs' fun _ => rfl) (Nat.zero_le _) hnew.admitted

/-- What becomes of a rollout where the run of the canary at an index landed. -/
theorem landed {u v : Upgrade} {landing : Landing} (ht : Turn fleet₀ fleet hs index next)
    (hn : next ≤ index + 1) (hk : fleet₀.Keeps fleet)
    (hkv : fleet.Keeps (fleet.put index v)) (hu : fleet.upgrade? index = some u)
    (hd : u.current ≠ .done)
    (hlt : index < fleet.canaries) (hun : ∀ {j : Nat} {w : Upgrade},
      fleet.upgrade? j = some w → w.err = none)
    (hrest : ∀ {j : Nat} {w : Upgrade}, fleet.upgrade? j = some w → j ≠ index →
      w.AtRest ∧ w.err = none ∧ (index < j → w.IsFresh))
    (hf : fleet.failureCount = 0) (ha : fleet.admitted = 0)
    (hs' : landing.Suits fleet.config index u v)
    (he : landing.Ends (env.moment s) index u v new) :
    Leading env ctx fleet₀ s₀ (hs ++ new)
      (.ofRun s (Run.canaryLanded index (fleet.put index v, landing))) := by
  have ho := Fleet.Trying.landed hu hlt hrest hf ha (hun hu) hs'
  cases landing with
  | crashed text => exact hs'.elim
  | flying f =>
    obtain rfl : f.index = index := hs'.1
    exact .flying ho (ht.fly hn he nofun)
  | landed result =>
    cases result with
    | ok a =>
      exact .due ho (ht.succeed hn hu he hd rfl) fun _ =>
        ⟨_, List.mem_append_right _ (he.mem_returned rfl), Nat.le_refl _⟩
    | error e =>
      exact .failed (ht.fail hn hu he rfl (hk.canaries ▸ hlt) (hk.trans hkv) hun hf ha)

/-- What becomes of a rollout where the canary at an index is due. -/
theorem onward {source : Except IoError Entry} (h : fleet.Trying index [])
    (ht : Turn fleet₀ fleet hs index index) (hr : Rested hs index (env.moment s).now)
    (hc : Course env ctx ⟨s₀, fleet₀, .idle⟩ hs ⟨s, fleet, .rollout (.canaryDue index)⟩)
    (ho : env.opens s source) :
    Leading env ctx fleet₀ s₀ (hs ++ Run.canaryHappenings fleet ctx source (env.moment s) index)
      (.ofRun s (Run.nextCanary fleet ctx source (env.moment s) index)) := by
  have hk : fleet₀.Keeps fleet := hc.keeps
  have step : Scene.Acts env ctx ⟨s, fleet, .rollout (.canaryDue index)⟩ _ _ := .canaryDue ho
  have hc' := hc.act step
  have hn := Run.nexts fleet ctx source (env.moment s) index
  generalize Run.canaryHappenings fleet ctx source (env.moment s) index = seen,
    Run.nextCanary fleet ctx source (env.moment s) index = x at hn hc' ⊢
  cases hn with
  | overflows hlt _ =>
    rw [List.append_nil]
    exact .crashed ht (hk.canaries ▸ Nat.le_of_lt hlt) h.admitted
  | @begins inner hlt _ =>
    obtain ⟨u, hu⟩ := Fleet.exists_upgrade (Nat.lt_of_lt_of_le hlt fleet.canaries_le)
    have hfresh := h.fresh hu (Nat.le_refl _)
    have hkv := Fleet.Keeps.start fleet index inner source (env.moment s)
    obtain ⟨v, landing, hstart, hs', he⟩ :=
      Flight.start_ends hu hfresh.atRest hfresh.ne_done inner source (env.moment s)
    rw [hstart] at hkv ⊢
    refine landed ht (Nat.le_succ _) hk hkv hu hfresh.ne_done hlt h.unfailed (fun hw hne => ?_)
      h.failureCount h.admitted hs' he
    exact ⟨h.tends.rest hw List.not_mem_nil, h.unfailed hw, fun hj =>
      h.fresh hw (Nat.le_of_lt hj)⟩
  | skips hle hwhy =>
    obtain rfl := Nat.le_antisymm h.le hle
    have hpast := Leading.past h ht (hwhy.imp_right .inr) (List.append_nil hs ▸ hc') .here
    rwa [List.append_nil] at hpast ⊢
  | rests hle hpos _ =>
    obtain rfl := Nat.le_antisymm h.le hle
    rw [List.append_nil]
    exact .cooling h ht hr hpos

/-- What becomes of a rollout where the wait of a canary ends. -/
theorem resumed {f : Flight} (h : fleet.Trying (f.index + 1) [f])
    (ht : Turn fleet₀ fleet hs f.index (f.index + 1)) (hk : fleet₀.Keeps fleet)
    (e : Event f.wait) :
    Leading env ctx fleet₀ s₀ (hs ++ f.resumeHappenings fleet (env.moment s) e)
      (.ofRun s (Run.canaryResumed fleet (env.moment s) f e)) := by
  obtain ⟨u, hu, hf⟩ := h.tends.suits f List.mem_cons_self
  have calm (hcalm : e.IsCalm) : Leading env ctx fleet₀ s₀
      (hs ++ f.resumeHappenings fleet (env.moment s) e)
      (.ofRun s (Run.canaryResumed fleet (env.moment s) f e)) := by
    have hkv := Fleet.Keeps.resume fleet f (env.moment s) e
    obtain ⟨v, landing, hresume, hs', he⟩ := Flight.resume_ends hu hf (env.moment s) hcalm
    rw [Run.canaryResumed, hresume]
    rw [hresume] at hkv
    have hd : u.current ≠ .done := hf.stage ▸ f.position.stage_ne_done
    refine landed ht (Nat.le_refl _) hk hkv hu hd h.le h.unfailed (fun hw hne => ?_)
      h.failureCount h.admitted hs' he
    exact ⟨h.tends.rest hw (by simpa using hne), h.unfailed hw, fun hj => h.fresh hw hj⟩
  cases e with
  | result r => exact calm trivial
  | stopped reason => exact calm trivial
  | crashed text =>
    obtain ⟨hresume, he⟩ := Flight.resume_crashed hu (env.moment s) text
    rw [Run.canaryResumed, hresume]
    exact .crashed (ht.fly (Nat.le_refl _) he fun _ h => by cases h) (hk.canaries ▸ h.le) h.admitted

/-- What becomes of a rollout where the wait after the canaries ends. -/
theorem cooled {t : Instant} {m : Moment}
    {e : Event (.pause (t.wakeAfter fleet.config.canaryCooldown))}
    (hr : Rested hs fleet.canaries t) (hk : 0 < fleet.canaries) (he : ctx.Times m e) :
    fleet.Cooled hs m.now ∨ (ctx.stopped m).isSome := by
  cases e with
  | result r => exact .inl (hr.cooled hk he)
  | stopped reason => exact .inr (Option.isSome_iff_exists.mpr ⟨reason, he⟩)
  | crashed text => exact he.elim

theorem later (h : Leading env ctx fleet₀ s₀ hs ⟨s, fleet, phase⟩) (timely : env.Timely)
    (hp : env.passes s s') : Leading env ctx fleet₀ s₀ hs ⟨s', fleet, phase⟩ := by
  cases h with
  | idle => exact .idle
  | gate hn => exact .gate hn
  | refused hn => exact .refused hn
  | due ht hturn hr => exact .due ht hturn (hr.later (timely.passes hp).now)
  | flying ht hturn => exact .flying ht hturn
  | failed hf => exact .failed hf
  | crashed hturn hle ha => exact .crashed hturn hle ha
  | cooling ht hturn hr hk => exact .cooling ht hturn hr hk
  | past ht hturn hw h₁ h₂ => exact .past ht hturn hw h₁ (h₂.later hp)

theorem acts (h : Leading env ctx fleet₀ s₀ hs x) (hnew : fleet₀.IsNew)
    (hx : Course env ctx ⟨s₀, fleet₀, .idle⟩ hs x) (ha : x.Acts env ctx new y) :
    Leading env ctx fleet₀ s₀ (hs ++ new) y := by
  cases h with
  | idle =>
    rw [List.nil_append]
    cases ha with
    | start => exact .start hnew _
    | again hover _ _ => cases hover
  | gate _ => cases ha with | again hover _ _ => cases hover
  | refused _ => exact ha.refused_elim.elim
  | due ht hturn hr =>
    cases ha with
    | canaryDue ho => exact .onward ht hturn hr hx ho
    | again hover _ _ => cases hover
  | flying _ _ => cases ha with | again hover _ _ => cases hover
  | failed hf =>
    -- No pass begins after a rollout that failed.
    cases ha with
    | again _ hmay _ =>
      have hend := Fleet.endState_of_mayRetry hmay
      rw [hf.endState] at hend
      cases hend
  | crashed _ _ _ => cases ha with | again hover _ _ => cases hover
  | cooling _ _ _ _ => cases ha with | again hover _ _ => cases hover
  | past ht hturn hw h₁ h₂ =>
    rw [List.append_assoc]
    exact .past ht hturn hw h₁ (h₂.act ha)

theorem hears (h : Leading env ctx fleet₀ s₀ hs x) (timely : env.Timely) (hnew : fleet₀.IsNew)
    (hx : Course env ctx ⟨s₀, fleet₀, .idle⟩ hs x) (hh : x.Hears env ctx new y) :
    Leading env ctx fleet₀ s₀ (hs ++ new) y := by
  cases h with
  | idle => cases hh
  | gate hn =>
    cases hh with
    | gate he =>
      rw [List.append_nil]
      exact .answered hnew hn _
  | refused _ => cases hh
  | due _ _ _ => cases hh
  | flying ht hturn =>
    cases hh with
    | canary he => exact .resumed ht hturn hx.keeps _
  | failed _ => cases hh
  | crashed _ _ _ => cases hh
  | cooling ht hturn hr hk =>
    have hy := hx.hear hh
    cases hh with
    | cooldown he =>
      rw [List.append_nil] at hy ⊢
      have hw := Leading.cooled hr hk (timely.ends he).2
      have hpast := Leading.past ht hturn (.inr hw) hy .here
      rwa [List.append_nil] at hpast
  | past ht hturn hw h₁ h₂ =>
    rw [List.append_assoc]
    exact .past ht hturn hw h₁ (h₂.hear hh)

end Leading

/-- How far a course is with its canaries. -/
theorem Course.leading (timely : env.Timely) (hnew : fleet₀.IsNew)
    (h : Course env ctx ⟨s₀, fleet₀, .idle⟩ hs x) : Leading env ctx fleet₀ s₀ hs x := by
  induction h with
  | here => exact .idle
  | later _ hp ih => exact ih.later timely hp
  | act h ha ih => exact ih.acts hnew h ha
  | hear h hh ih => exact ih.hears timely hnew h hh

end Courses

end Rollout
