import Mathlib.Algebra.Ring.Nat
import Mathlib.Data.List.Nodup
import Rollout.Fleet.Course
import Rollout.Proofs.Upgrade.Steps

/-!
# What a step of a rollout can do

* **Fleets** (`Fleet.IsNew`, `Fleet.upgrade?_put_cases`): the fleet of a configuration, and what
  changes when one upgrade changes.
* **Flights** (`Flight.start_ok`, `Flight.resume_eq`): a step of a flight is a step of its upgrade's
  run.
* **Up to the last canary** (`Run.Starts`, `Run.Answers`, `Run.Nexts`): everything
  that the beginning of a rollout, the answer about its pool and its canaries can lead to.
* **The lead** (`Bulk.LeadsTo`): everything that a step of the lead can do. Each fact about one
  outcome is a case of `Bulk.leadsTo_leadStep`.
* **Admitted upgrades and attempts** (`mem_set_iff`, `mem_eraseIdx_iff`): a step changes one of
  them, the one with its index.
-/

namespace Rollout

/-! ## Fleets -/

namespace Fleet

section Lists

variable {α β ε : Type} {f : α → Except ε β} {l : List α} {l' : List β}

/-- What comes of reading each item of a list comes of the first item and of the others. -/
theorem exists_of_mapM_cons {a : α} (h : (a :: l).mapM f = .ok l') :
    ∃ b rest, f a = .ok b ∧ l.mapM f = .ok rest ∧ l' = b :: rest := by
  rw [List.mapM_cons] at h
  cases ha : f a with
  | error e => rw [ha] at h; cases h
  | ok b =>
    cases hrest : l.mapM f with
    | error e => rw [ha, hrest] at h; cases h
    | ok rest =>
      rw [ha, hrest] at h
      cases h
      exact ⟨b, rest, rfl, rfl, rfl⟩

/-- What stands at a place of a list after each of its items was read. -/
theorem getElem?_mapM (h : l.mapM f = .ok l') {i : Nat} {b : β} :
    l'[i]? = some b ↔ ∃ a, l[i]? = some a ∧ f a = .ok b := by
  induction l generalizing l' i with
  | nil => cases h; simp
  | cons a rest ih =>
    obtain ⟨b', rest', ha, hrest, rfl⟩ := exists_of_mapM_cons h
    cases i with
    | zero => simp [ha]
    | succ i => exact ih hrest

theorem length_mapM (h : l.mapM f = .ok l') : l'.length = l.length := by
  induction l generalizing l' with
  | nil => cases h; rfl
  | cons a rest ih =>
    obtain ⟨b, rest', -, hrest, rfl⟩ := exists_of_mapM_cons h
    exact congrArg (· + 1) (ih hrest)

end Lists

/-- The fleet of a configuration that nothing was done with. -/
structure IsNew (fleet : Fleet) : Prop where
  concurrency : 0 < fleet.config.concurrency.toNat
  backends : fleet.upgrades.map (·.backend) = fleet.backends
  fresh : ∀ u ∈ fleet.upgrades, ∃ endpoint b, u = .fresh endpoint b
  failureCount : fleet.failureCount = 0
  admitted : fleet.admitted = 0
  endState : fleet.endState = .unknown

theorem mapM_ofEndpoint {endpoints : List String} {bs : List Backend} {us : List Upgrade}
    (hb : endpoints.mapM Backend.ofConfigured = .ok bs)
    (hu : endpoints.mapM Upgrade.ofEndpoint = .ok us) :
    us.map (·.backend) = bs ∧ ∀ u ∈ us, ∃ endpoint b, u = .fresh endpoint b := by
  induction endpoints generalizing bs us with
  | nil =>
    cases hb; cases hu
    exact ⟨rfl, fun u hm => absurd hm List.not_mem_nil⟩
  | cons endpoint rest ih =>
    obtain ⟨b, bs', hr, hbs, rfl⟩ := exists_of_mapM_cons hb
    obtain ⟨u, us', he, hus, rfl⟩ := exists_of_mapM_cons hu
    obtain ⟨hmap, hfresh⟩ := ih hbs hus
    rw [Upgrade.ofEndpoint, hr] at he
    cases he
    refine ⟨congrArg (b :: ·) hmap, fun u hm => ?_⟩
    rcases List.mem_cons.mp hm with rfl | hm
    · exact ⟨endpoint, b, rfl⟩
    · exact hfresh u hm

/-- A fleet is made of a configuration that passed its check. -/
theorem exists_of_ofConfig {c : Config} {timeouts : StageTimeouts} {fleet : Fleet}
    (h : ofConfig c timeouts = .ok fleet) : c.check = .ok () ∧ ∃ bs us,
      c.backendList = .ok bs ∧ c.backends.mapM Upgrade.ofEndpoint = .ok us ∧
        fleet = ⟨c, timeouts, bs, us, 0, .unknown, 0⟩ := by
  unfold ofConfig at h
  cases hc : c.check with
  | error e => rw [hc] at h; cases h
  | ok a =>
    cases hb : c.backendList with
    | error e => rw [hc, hb] at h; cases h
    | ok bs =>
      cases hu : c.backends.mapM Upgrade.ofEndpoint with
      | error e => rw [hc, hb, hu] at h; cases h
      | ok us =>
        rw [hc, hb, hu] at h
        cases h
        exact ⟨rfl, bs, us, rfl, rfl, rfl⟩

theorem config_of_ofConfig {c : Config} {timeouts : StageTimeouts} {fleet : Fleet}
    (h : ofConfig c timeouts = .ok fleet) :
    fleet.config = c ∧ c.backends.mapM Upgrade.ofEndpoint = .ok fleet.upgrades ∧ fleet.IsNew := by
  obtain ⟨hc, bs, us, hb, hu, rfl⟩ := exists_of_ofConfig h
  obtain ⟨-, -, -, -, hconcurrency⟩ := Config.check_eq_ok.mp hc
  obtain ⟨hmap, hfresh⟩ := mapM_ofEndpoint hb hu
  exact ⟨rfl, hu, UInt64.le_iff_toNat_le.mp hconcurrency, hmap, hfresh, rfl, rfl, rfl⟩

theorem ofConfigured_eq_ok {addr : String} {b : Backend} :
    Backend.ofConfigured addr = .ok b ↔ Backend.read addr = .ok b := by
  unfold Backend.ofConfigured Backend.ofText
  cases Backend.read addr with
  | error fault => exact ⟨nofun, nofun⟩
  | ok a => exact ⟨fun h => by cases h; rfl, fun h => by cases h; rfl⟩

/-- What else is known of the fleet of a configuration: its backends are those that the configured
addresses name, in their order, with an upgrade for each, and there is at least one. -/
theorem targets_of_ofConfig {c : Config} {timeouts : StageTimeouts} {fleet : Fleet}
    (h : ofConfig c timeouts = .ok fleet) :
    fleet.timeouts = timeouts ∧ c.backends ≠ [] ∧
      c.backends.mapM Backend.ofConfigured = .ok fleet.backends ∧
        c.backends.mapM Upgrade.ofEndpoint = .ok fleet.upgrades := by
  obtain ⟨hc, bs, us, hb, hu, rfl⟩ := exists_of_ofConfig h
  obtain ⟨-, hne, -⟩ := Config.check_eq_ok.mp hc
  exact ⟨rfl, hne, hb, hu⟩

/-- The upgrade at an index is for the endpoint that is configured there. -/
theorem endpoint_of_ofConfig {c : Config} {timeouts : StageTimeouts} {fleet : Fleet}
    (h : ofConfig c timeouts = .ok fleet) {i : Nat} {u : Upgrade} (hu : fleet.upgrade? i = some u) :
    c.backends[i]? = some u.endpoint := by
  obtain ⟨endpoint, he, hof⟩ := (getElem?_mapM (targets_of_ofConfig h).2.2.2).mp hu
  unfold Upgrade.ofEndpoint at hof
  cases hb : Backend.ofConfigured endpoint with
  | error e => rw [hb] at hof; cases hof
  | ok b => rw [hb] at hof; cases hof; exact he

/-- The number of permits does not change the canaries, the targets or the limit of failures. -/
theorem limits_of_concurrency {c : Config} {n : UInt64} {timeouts timeouts' : StageTimeouts}
    {fleet fleet' : Fleet} (h : ofConfig c timeouts = .ok fleet)
    (h' : ofConfig { c with concurrency := n } timeouts' = .ok fleet') :
    fleet'.canaries = fleet.canaries ∧ fleet'.size = fleet.size ∧
      fleet'.maxFailures = fleet.maxFailures := by
  obtain ⟨hc, hu, -⟩ := config_of_ofConfig h
  obtain ⟨hc', hu', -⟩ := config_of_ofConfig h'
  have hups : fleet'.upgrades = fleet.upgrades := Except.ok.inj (hu'.symm.trans hu)
  have hsize : fleet'.size = fleet.size := by rw [size, hups, size]
  refine ⟨?_, hsize, ?_⟩
  · rw [canaries, canaries, hc, hc', hsize]
  · rw [maxFailures, maxFailures, hc, hc']

end Fleet

namespace Fleet

variable {fleet : Fleet} {i j : Nat} {u v : Upgrade}

theorem IsNew.upgrade (h : fleet.IsNew) (hu : fleet.upgrade? i = some u) :
    ∃ endpoint b, u = .fresh endpoint b := h.fresh u (List.mem_of_getElem? hu)

@[simp] theorem put_config : (fleet.put i v).config = fleet.config := rfl

@[simp] theorem put_backends : (fleet.put i v).backends = fleet.backends := rfl

@[simp] theorem put_failureCount : (fleet.put i v).failureCount = fleet.failureCount := rfl

@[simp] theorem put_endState : (fleet.put i v).endState = fleet.endState := rfl

@[simp] theorem put_admitted : (fleet.put i v).admitted = fleet.admitted := rfl

@[simp] theorem put_size : (fleet.put i v).size = fleet.size := List.length_set

@[simp] theorem put_canaries : (fleet.put i v).canaries = fleet.canaries := by simp [canaries]

@[simp] theorem put_capacity : (fleet.put i v).capacity = fleet.capacity := by simp [capacity]

@[simp] theorem put_maxFailures : (fleet.put i v).maxFailures = fleet.maxFailures := rfl

theorem upgrade?_put_self (h : fleet.upgrade? i = some u) :
    (fleet.put i v).upgrade? i = some v := by
  have hlt : i < fleet.upgrades.length := (List.getElem?_eq_some_iff.mp h).1
  simp [upgrade?, put, hlt]

theorem upgrade?_put_of_ne (h : i ≠ j) : (fleet.put i v).upgrade? j = fleet.upgrade? j := by
  simp [upgrade?, put, h]

theorem lt_size (h : fleet.upgrade? i = some u) : i < fleet.size :=
  (List.getElem?_eq_some_iff.mp h).1

theorem exists_upgrade (h : i < fleet.size) : ∃ u, fleet.upgrade? i = some u :=
  ⟨_, List.getElem?_eq_getElem h⟩

/-- An upgrade after a change is the changed one, or one that was there before. -/
theorem upgrade?_put_cases (h : fleet.upgrade? i = some u) {w : Upgrade}
    (hw : (fleet.put i v).upgrade? j = some w) :
    (j = i ∧ w = v) ∨ (j ≠ i ∧ fleet.upgrade? j = some w) := by
  by_cases hj : j = i
  · rw [hj, upgrade?_put_self h] at hw
    exact .inl ⟨hj, (Option.some.inj hw).symm⟩
  · rw [upgrade?_put_of_ne (Ne.symm hj)] at hw
    exact .inr ⟨hj, hw⟩

end Fleet

/-! ## Flights -/

namespace Flight

variable {fleet : Fleet} {index : Nat} {u : Upgrade}

theorem start_error (h : fleet.upgrade? index = some u) (ctx : Context) (e : IoError) (m : Moment) :
    start fleet index ctx (.error e) m =
      (fleet.put index { u with err := some (.openSource fleet.config.src e) },
        .landed (.error (.openSource fleet.config.src e))) := by
  rw [start, h]; rfl

theorem start_ok (h : fleet.upgrade? index = some u) (ctx : Context) (source : Entry)
    (m : Moment) :
    start fleet index ctx (.ok source) m =
      (fleet.put index (u.start (fleet.job u source) ctx m).1,
        landing index ctx (fleet.job u source) (u.start (fleet.job u source) ctx m).2) := by
  rw [start, h]

theorem resume_eq {f : Flight} (h : fleet.upgrade? f.index = some u) (m : Moment)
    (e : Event f.wait) :
    f.resume fleet m e =
      (fleet.put f.index (u.resume f.job f.ctx m f.position e).1,
        landing f.index f.ctx f.job (u.resume f.job f.ctx m f.position e).2) := by
  rw [resume, h]

/-- A flight goes on where its run waits again. -/
theorem waiting_of_landing {ctx : Context} {j : Job} {p : Progress} {f : Flight}
    (h : landing index ctx j p = .flying f) :
    ∃ q, p = .waiting q ∧ f = ⟨index, ctx, j, q⟩ := by
  cases p <;> cases h
  exact ⟨_, rfl, rfl⟩

end Flight

/-! ## Up to the last canary -/

namespace Run

/-- Everything that the beginning of a rollout can do. -/
inductive Starts (fleet : Fleet) (ctx : Context) (m : Moment) : Fleet × Run → Prop
  /-- The clock cannot show the end of the wait for the pool. -/
  | overflows : ctx.within? m.now fleet.config.preconditionTimeout = none →
    Starts fleet ctx m (fleet, .crashed clockOverflow)
  /-- The context has stopped already. -/
  | halts {inner : Context} {reason : StopReason} :
    ctx.within? m.now fleet.config.preconditionTimeout = some inner →
    inner.stopped m = some reason →
    Starts fleet ctx m (refuse fleet (.context fleet.config.pattern reason))
  /-- It asks for the pool. -/
  | asks {inner : Context} :
    ctx.within? m.now fleet.config.preconditionTimeout = some inner → inner.stopped m = none →
    Starts fleet ctx m (fleet, .gate inner)

theorem starts (fleet : Fleet) (ctx : Context) (m : Moment) :
    Starts fleet ctx m (start fleet ctx m) := by
  unfold start
  cases hw : ctx.within? m.now fleet.config.preconditionTimeout with
  | none => exact .overflows hw
  | some inner =>
    rw [askGate]
    cases hs : inner.stopped m with
    | some reason => exact .halts hw hs
    | none => exact .asks hw hs

/-- Everything that the end of the wait for the pool can do. -/
inductive Answers (fleet : Fleet) : Event (gateCall fleet) → Fleet × Run → Prop
  | admits {r : Except PoolError PoolHealth} : fleet.checkAnswer r = .ok () →
    Answers fleet (.result r) (fleet, .canaryDue 0)
  | denies {r : Except PoolError PoolHealth} {g : GateError} : fleet.checkAnswer r = .error g →
    Answers fleet (.result r) (refuse fleet g)
  | halts {reason : StopReason} :
    Answers fleet (.stopped reason) (refuse fleet (.context fleet.config.pattern reason))
  | crashes {text : String} : Answers fleet (.crashed text) (fleet, .crashed text)

theorem answers (fleet : Fleet) (e : Event (gateCall fleet)) :
    Answers fleet e (gateAnswered fleet e) := by
  cases e with
  | result r =>
    rw [gateAnswered]
    split
    · exact .admits ‹_›
    · exact .denies ‹_›
  | stopped reason => exact .halts
  | crashed text => exact .crashes

/-- Everything that can be done, and what is seen of it, where the canary at an index is due. -/
inductive Nexts (fleet : Fleet) (ctx : Context) (source : Except IoError Entry) (m : Moment)
    (index : Nat) : List Happening → Fleet × Run → Prop
  /-- The clock cannot show the end of the canary's time. -/
  | overflows : index < fleet.canaries → ctx.within? m.now fleet.config.actionTimeout = none →
    Nexts fleet ctx source m index [] (fleet, .crashed clockOverflow)
  /-- Its run begins. -/
  | begins {inner : Context} : index < fleet.canaries →
    ctx.within? m.now fleet.config.actionTimeout = some inner →
    Nexts fleet ctx source m index (Flight.startHappenings fleet index inner source m)
      (canaryLanded index (Flight.start fleet index inner source m))
  /-- All canaries returned, and there was none or the context has stopped. -/
  | skips : fleet.canaries ≤ index → fleet.canaries = 0 ∨ (ctx.stopped m).isSome →
    Nexts fleet ctx source m index [] (fleet, .bulk (.start fleet))
  /-- All canaries returned, and the rollout rests. -/
  | rests : fleet.canaries ≤ index → 0 < fleet.canaries → ctx.stopped m = none →
    Nexts fleet ctx source m index []
      (fleet, .cooldown (m.now.wakeAfter fleet.config.canaryCooldown))

theorem nexts (fleet : Fleet) (ctx : Context) (source : Except IoError Entry) (m : Moment)
    (index : Nat) : Nexts fleet ctx source m index (canaryHappenings fleet ctx source m index)
      (nextCanary fleet ctx source m index) := by
  unfold nextCanary canaryHappenings
  by_cases hlt : index < fleet.canaries
  · rw [if_pos hlt, if_pos hlt]
    cases hw : ctx.within? m.now fleet.config.actionTimeout with
    | none => exact .overflows hlt hw
    | some inner => exact .begins hlt hw
  · rw [if_neg hlt, if_neg hlt, coolDown]
    have hle := Nat.le_of_not_lt hlt
    split
    · exact .skips hle ‹_›
    · have hneither := not_or.mp ‹_›
      exact .rests hle (Nat.pos_of_ne_zero hneither.1)
        (Option.not_isSome_iff_eq_none.mp hneither.2)

end Run

/-! ## The lead -/

namespace Bulk

variable {fleet fleet' : Fleet} {b b' : Bulk} {ctx : Context} {now : Instant}

/-- What a step of the lead makes of the fleet and of the upgrades after the canaries. -/
inductive Leads (fleet : Fleet) (b : Bulk) : Fleet → Bulk → Prop
  /-- There is nothing left to begin. -/
  | exhausts : b.lead = .seeking ∨ b.lead = .cleared → b.queue = [] →
    Leads fleet b fleet { b with lead := .draining }
  /-- The lead takes a permit. -/
  | takes : b.lead = .seeking → b.admitted.length < fleet.capacity →
    Leads fleet b fleet { b with lead := .holding }
  /-- There are more failures than the limit. -/
  | stops : b.lead = .holding → fleet.maxFailures < fleet.failureCount →
    Leads fleet b fleet { b with lead := .draining }
  /-- The failures stay within their limit. -/
  | clears : b.lead = .holding → fleet.failureCount ≤ fleet.maxFailures →
    Leads fleet b fleet { b with lead := .cleared }
  /-- The next upgrade is admitted. -/
  | admits {index : Nat} {rest : List Nat} (inner : Context) : b.lead = .cleared →
    b.queue = index :: rest →
      Leads fleet b { fleet with admitted := fleet.admitted + 1 }
        { b with
          lead := .seeking, queue := rest, admitted := b.admitted ++ [.queued index inner] }
  /-- The failure of an upgrade that crashed is counted. -/
  | gathers : b.lead = .draining → 0 < b.crashes →
    Leads fleet b { fleet with failureCount := fleet.failureCount + 1 }
      { b with crashes := b.crashes - 1 }

/-- What a step of the lead comes to, and where. -/
inductive LeadsTo (fleet : Fleet) (b : Bulk) (ctx : Context) (now : Instant) : LeadStep → Prop
  | moved {fleet' : Fleet} {b' : Bulk} : Leads fleet b fleet' b' →
    LeadsTo fleet b ctx now (.moved fleet' b')
  /-- No permit is left for the next upgrade. -/
  | full : b.lead = .seeking → b.queue ≠ [] → fleet.capacity ≤ b.admitted.length →
    LeadsTo fleet b ctx now .blocked
  /-- The clock cannot show the end of the next upgrade's time, yet it counts as admitted. -/
  | overflowed : b.lead = .cleared → ctx.within? now fleet.config.actionTimeout = none →
    LeadsTo fleet b ctx now (.overflowed { fleet with admitted := fleet.admitted + 1 })
  /-- Upgrades are still under way. -/
  | drains : b.lead = .draining → b.admitted ≠ [] → LeadsTo fleet b ctx now .blocked
  /-- All upgrades ended. -/
  | ended : b.lead = .draining → b.crashes = 0 → b.admitted = [] →
    LeadsTo fleet b ctx now (.ended (conclude fleet).1 (conclude fleet).2)

theorem leadsTo_leadStep (fleet : Fleet) (b : Bulk) (ctx : Context) (now : Instant) :
    LeadsTo fleet b ctx now (b.leadStep fleet ctx now) := by
  obtain ⟨lead, queue, admitted, crashes⟩ := b
  unfold leadStep
  cases lead with
  | seeking =>
    cases queue with
    | nil => exact .moved (.exhausts (.inl rfl) rfl)
    | cons index rest =>
      dsimp only
      split
      · exact .moved (.takes rfl ‹_›)
      · exact .full rfl nofun (Nat.le_of_not_lt ‹_›)
  | holding =>
    dsimp only
    split
    · exact .moved (.stops rfl ‹_›)
    · exact .moved (.clears rfl (Nat.le_of_not_lt ‹_›))
  | cleared =>
    cases queue with
    | nil => exact .moved (.exhausts (.inr rfl) rfl)
    | cons index rest =>
      dsimp only
      cases hw : ctx.within? now fleet.config.actionTimeout with
      | none => exact .overflowed rfl hw
      | some inner => exact .moved (.admits inner rfl rfl)
  | draining =>
    dsimp only
    split
    · exact .moved (.gathers rfl ‹_›)
    · split
      · exact .ended rfl (Nat.eq_zero_of_not_pos ‹_›) (List.isEmpty_iff.mp ‹_›)
      · exact .drains rfl fun ha => ‹¬_› (List.isEmpty_iff.mpr ha)

theorem leads_of_moved (h : b.leadStep fleet ctx now = .moved fleet' b') :
    Leads fleet b fleet' b' := by
  have hto := leadsTo_leadStep fleet b ctx now
  rw [h] at hto
  cases hto
  assumption

/-- The rollout ends when all upgrades ended, and then by its count of failures. -/
theorem conclude_of_ended {result : Except RunError Unit}
    (h : b.leadStep fleet ctx now = .ended fleet' result) :
    b.lead = .draining ∧ b.crashes = 0 ∧ b.admitted = [] ∧
      fleet' = (conclude fleet).1 ∧ result = (conclude fleet).2 := by
  have hto := leadsTo_leadStep fleet b ctx now
  rw [h] at hto
  cases hto
  exact ⟨‹_›, ‹_›, ‹_›, rfl, rfl⟩

theorem conclude_of_le (h : fleet.failureCount ≤ fleet.maxFailures) :
    conclude fleet = ({ fleet with endState := .success }, .ok ()) :=
  if_neg (Nat.not_lt.mpr h)

theorem conclude_of_lt (h : fleet.maxFailures < fleet.failureCount) :
    conclude fleet = ({ fleet with endState := .maxFailuresExceeded },
      .error (.maxFailuresExceeded fleet.failureCount fleet.maxFailures)) :=
  if_pos h

@[simp] theorem upgrades_conclude (fleet : Fleet) :
    (conclude fleet).1.upgrades = fleet.upgrades := by
  unfold conclude
  split <;> rfl

@[simp] theorem upgrade?_conclude (fleet : Fleet) (i : Nat) :
    (conclude fleet).1.upgrade? i = fleet.upgrade? i :=
  congrArg (·[i]?) (upgrades_conclude fleet)

@[simp] theorem admitted_conclude (fleet : Fleet) :
    (conclude fleet).1.admitted = fleet.admitted := by
  unfold conclude
  split <;> rfl

/-- Where the clock overflows, an upgrade was counted as admitted that is none. -/
theorem overflow_of_overflowed (h : b.leadStep fleet ctx now = .overflowed fleet') :
    b.lead = .cleared ∧ ctx.within? now fleet.config.actionTimeout = none ∧
      fleet' = { fleet with admitted := fleet.admitted + 1 } := by
  have hto := leadsTo_leadStep fleet b ctx now
  rw [h] at hto
  cases hto
  exact ⟨‹_›, ‹_›, rfl⟩

/-- The lead waits for a permit, or for the upgrades under way. -/
theorem blocked_cases (h : b.leadStep fleet ctx now = .blocked) :
    (b.lead = .seeking ∧ b.queue ≠ [] ∧ fleet.capacity ≤ b.admitted.length) ∨
      (b.lead = .draining ∧ b.admitted ≠ []) := by
  have hto := leadsTo_leadStep fleet b ctx now
  rw [h] at hto
  cases hto with
  | full hl hq hle => exact .inl ⟨hl, hq, hle⟩
  | drains hl ha => exact .inr ⟨hl, ha⟩

theorem lead_of_blocked (h : b.leadStep fleet ctx now = .blocked) :
    (b.queue ≠ [] ∧ fleet.capacity ≤ b.admitted.length) ∨ b.admitted ≠ [] :=
  (blocked_cases h).imp And.right And.right

end Bulk

/-! ## Admitted upgrades and attempts -/

section Keyed

variable {α β : Type} {key : α → β} {l : List α} {at_ : Nat} {a a' : α}

/-- To put another in the place of one with the same key changes no key. -/
theorem map_key_set (h : l[at_]? = some a) (hk : key a' = key a) :
    (l.set at_ a').map key = l.map key := by
  rw [List.map_set, hk]
  obtain ⟨hlt, rfl⟩ := List.getElem?_eq_some_iff.mp h
  rw [← List.getElem_map (f := key) (h := by simpa using hlt), List.set_getElem_self]

/-- The others keep their place around the one at a position. -/
theorem split_at (h : l[at_]? = some a) :
    ∃ front back, l = front ++ a :: back ∧ (∀ x, l.set at_ x = front ++ x :: back) ∧
      l.eraseIdx at_ = front ++ back := by
  obtain ⟨hlt, rfl⟩ := List.getElem?_eq_some_iff.mp h
  refine ⟨l.take at_, l.drop (at_ + 1), ?_, fun x => ?_, List.eraseIdx_eq_take_drop_succ l at_⟩
  · rw [← List.drop_eq_getElem_cons hlt, List.take_append_drop]
  · rw [List.set_eq_take_append_cons_drop, if_pos hlt]

theorem key_ne {front back : List α} (hn : ((front ++ a :: back).map key).Nodup) {x : α}
    (hx : x ∈ front ++ back) : key x ≠ key a := by
  rw [List.map_append, List.map_cons, List.nodup_middle, List.nodup_cons, ← List.map_append] at hn
  exact fun he => hn.1 (he ▸ List.mem_map_of_mem hx)

theorem mem_set_iff (hn : (l.map key).Nodup) (h : l[at_]? = some a) {x : α} :
    x ∈ l.set at_ a' ↔ x = a' ∨ (x ∈ l ∧ key x ≠ key a) := by
  obtain ⟨front, back, rfl, hset, -⟩ := split_at h
  rw [hset]
  constructor
  · intro hx
    rcases List.mem_append.mp hx with hx | hx
    · exact .inr ⟨List.mem_append_left _ hx, key_ne hn (List.mem_append_left _ hx)⟩
    · rcases List.mem_cons.mp hx with rfl | hx
      · exact .inl rfl
      · exact .inr ⟨List.mem_append_right _ (List.mem_cons_of_mem _ hx),
          key_ne hn (List.mem_append_right _ hx)⟩
  · rintro (rfl | ⟨hx, hne⟩)
    · simp
    · simp only [List.mem_append, List.mem_cons] at hx ⊢
      rcases hx with hx | rfl | hx
      · exact .inl hx
      · exact absurd rfl hne
      · exact .inr (.inr hx)

theorem mem_eraseIdx_iff (hn : (l.map key).Nodup) (h : l[at_]? = some a) {x : α} :
    x ∈ l.eraseIdx at_ ↔ x ∈ l ∧ key x ≠ key a := by
  obtain ⟨front, back, rfl, -, herase⟩ := split_at h
  rw [herase]
  constructor
  · intro hx
    refine ⟨?_, key_ne hn hx⟩
    rcases List.mem_append.mp hx with hx | hx
    · exact List.mem_append_left _ hx
    · exact List.mem_append_right _ (List.mem_cons_of_mem _ hx)
  · rintro ⟨hx, hne⟩
    simp only [List.mem_append, List.mem_cons] at hx ⊢
    rcases hx with hx | rfl | hx
    · exact .inl hx
    · exact absurd rfl hne
    · exact .inr hx

theorem countP_set_add (h : l[at_]? = some a) (x : α) (p : α → Bool) :
    (l.set at_ x).countP p + (p a).toNat = l.countP p + (p x).toNat := by
  obtain ⟨front, back, rfl, hset, -⟩ := split_at h
  rw [hset]
  simp only [List.countP_append, List.countP_cons]
  cases p a <;> cases p x <;> simp <;> omega

theorem countP_eraseIdx_add (h : l[at_]? = some a) (p : α → Bool) :
    (l.eraseIdx at_).countP p + (p a).toNat = l.countP p := by
  obtain ⟨front, back, rfl, -, herase⟩ := split_at h
  rw [herase]
  simp only [List.countP_append, List.countP_cons]
  cases p a with
  | false => simp
  | true => simp; omega

theorem sum_set_add (h : l[at_]? = some a) (x : α) (w : α → Nat) :
    ((l.set at_ x).map w).sum + w a = (l.map w).sum + w x := by
  obtain ⟨front, back, rfl, hset, -⟩ := split_at h
  rw [hset]
  simp only [List.map_append, List.map_cons, List.sum_append, List.sum_cons]
  omega

theorem sum_eraseIdx_add (h : l[at_]? = some a) (w : α → Nat) :
    ((l.eraseIdx at_).map w).sum + w a = (l.map w).sum := by
  obtain ⟨front, back, rfl, -, herase⟩ := split_at h
  rw [herase]
  simp only [List.map_append, List.map_cons, List.sum_append, List.sum_cons]
  omega

/-- What is found at a position is counted before and after a change there. -/
theorem filterMap_set_perm {γ : Type} (h : l[at_]? = some a) (x : α) (g : α → Option γ) :
    ((g a).toList ++ (l.set at_ x).filterMap g).Perm ((g x).toList ++ l.filterMap g) := by
  obtain ⟨front, back, rfl, hset, -⟩ := split_at h
  rw [hset]
  have hcons (y : α) : (front ++ y :: back).filterMap g =
      front.filterMap g ++ ((g y).toList ++ back.filterMap g) := by
    rw [List.filterMap_append, List.filterMap_cons]
    cases g y <;> rfl
  rw [hcons, hcons]
  refine (List.perm_append_comm_assoc _ _ _).trans (.trans ?_ (List.perm_append_comm_assoc _ _ _))
  exact (List.perm_append_comm_assoc _ _ _).append_left _

theorem filterMap_set_eq {γ : Type} (h : l[at_]? = some a) {x : α} {g : α → Option γ}
    (hg : g x = g a) : (l.set at_ x).filterMap g = l.filterMap g := by
  obtain ⟨front, back, rfl, hset, -⟩ := split_at h
  rw [hset, List.filterMap_append, List.filterMap_append, List.filterMap_cons, List.filterMap_cons,
    hg]

theorem filterMap_eraseIdx_eq {γ : Type} (h : l[at_]? = some a) {g : α → Option γ}
    (hg : g a = none) : (l.eraseIdx at_).filterMap g = l.filterMap g := by
  obtain ⟨front, back, rfl, -, herase⟩ := split_at h
  rw [herase, List.filterMap_append, List.filterMap_append, List.filterMap_cons, hg]

end Keyed

/-! ## Flights and records -/

/-- A flight stands at the stage of its upgrade's record and works for its backend. -/
structure Flight.Fits (c : Config) (f : Flight) (u : Upgrade) : Prop where
  stage : f.position.stage = u.current
  backend : f.job.backend = u.backend
  config : f.job.config = c

/-- A step of a flight made the record `v` of the record `u`, and this landing. -/
def Landing.Suits (c : Config) (index : Nat) (u v : Upgrade) : Landing → Prop
  | .flying f => f.index = index ∧ f.Fits c v ∧ v.err = u.err
  | .landed result => v.AtRest ∧ v.err.isSome = !result.isOk
  | .crashed _ => False

namespace Flight

variable {c : Config} {j : Job} {fleet : Fleet} {index : Nat} {u v : Upgrade} {progress : Progress}

theorem backend_of_starts (h : u.Starts (v, progress)) : v.backend = u.backend := by
  cases h <;> rfl

theorem backend_of_moves {passed : Bool} (h : u.Moves passed (v, progress)) :
    v.backend = u.backend := by
  cases h <;> rfl

theorem landing_of_starts (h : u.Starts (v, progress)) (hr : u.AtRest) (hd : u.current ≠ .done)
    (hb : j.backend = u.backend) (hc : j.config = c) (ctx : Context) :
    (landing index ctx j progress).Suits c index u v ∧ v.current = u.current := by
  have he := hr.entry hd
  cases h with
  | waits q hq => exact ⟨⟨rfl, ⟨hq, hb, hc⟩, rfl⟩, he⟩
  | halts reason hne => exact ⟨⟨.of_failed hne rfl rfl, rfl⟩, he⟩
  | finishes hdone => exact absurd (he.symm.trans hdone) hd

theorem landing_of_moves {passed : Bool} (h : u.Moves passed (v, progress))
    (hne : u.current ≠ .done) (hb : j.backend = u.backend) (hc : j.config = c) (ctx : Context) :
    (landing index ctx j progress).Suits c index u v := by
  cases h with
  | stays q hq _ => exact ⟨rfl, ⟨hq, hb, hc⟩, rfl⟩
  | advances q _ hq => exact ⟨rfl, ⟨hq, hb, hc⟩, rfl⟩
  | finishes _ => exact ⟨.of_done rfl rfl, rfl⟩
  | halts reason hn => exact ⟨.of_failed hn rfl rfl, rfl⟩
  | fails e => exact ⟨.of_failed hne rfl rfl, rfl⟩

/-- The beginning of a flight, for an upgrade that no run is under way for and that is not done. -/
theorem start_suits (hu : fleet.upgrade? index = some u) (hr : u.AtRest) (hd : u.current ≠ .done)
    (ctx : Context) (source : Except IoError Entry) (m : Moment) :
    ∃ v landing, start fleet index ctx source m = (fleet.put index v, landing) ∧
      landing.Suits fleet.config index u v ∧ v.backend = u.backend ∧ v.current = u.current := by
  cases source with
  | error e =>
    exact ⟨_, _, start_error hu ctx e m, ⟨hr.refuse _ e hd, rfl⟩, rfl, rfl⟩
  | ok source =>
    have hs := u.starts (fleet.job u source) ctx m
    obtain ⟨hsuits, hcur⟩ :=
      landing_of_starts (c := fleet.config) (j := fleet.job u source) hs hr hd rfl rfl ctx
    exact ⟨_, _, start_ok hu ctx source m, hsuits, backend_of_starts hs, hcur⟩

/-- The end of a wait of a flight. -/
theorem resume_suits {f : Flight} (hu : fleet.upgrade? f.index = some u)
    (hf : f.Fits fleet.config u) (m : Moment) {e : Event f.wait} (he : e.IsCalm) :
    ∃ v landing, f.resume fleet m e = (fleet.put f.index v, landing) ∧
      landing.Suits fleet.config f.index u v ∧ v.backend = u.backend := by
  have hm : u.Moves _ (u.resume f.job f.ctx m f.position e) := Upgrade.moves hf.stage he
  have hne : u.current ≠ .done := hf.stage ▸ f.position.stage_ne_done
  exact ⟨_, _, resume_eq hu m e, landing_of_moves hm hne hf.backend hf.config f.ctx,
    backend_of_moves hm⟩

end Flight

end Rollout
