import Rollout.Proofs.Fleet.Steps

/-!
# Who works on which upgrade

* **Slots** (`Fleet.Tends`): those who work on upgrades have one upgrade each, whose record suits
  them, and all other records are at rest. `Tends.place`, `Tends.swap`, `Tends.erase` and
  `Tends.add` are the changes of one slot.
* **Phases** (`Phase.Orderly`): what holds in each phase of a rollout, and in the passes after it.
* **Courses** (`Course.orderly`): it holds wherever a course comes to.
-/

namespace Rollout

/-! ## Slots -/

/-- Each slot of a list has an upgrade of its own, whose record suits it, and the records of the
others are at rest. -/
structure Fleet.Tends {α : Type} (fleet : Fleet) (key : α → Nat) (Suits : Upgrade → α → Prop)
    (l : List α) : Prop where
  nodup : (l.map key).Nodup
  suits : ∀ a ∈ l, ∃ u, fleet.upgrade? (key a) = some u ∧ Suits u a
  rest : ∀ {i : Nat} {u : Upgrade}, fleet.upgrade? i = some u → i ∉ l.map key → u.AtRest

namespace Fleet.Tends

variable {α : Type} {fleet : Fleet} {key : α → Nat} {Suits : Upgrade → α → Prop} {l : List α}
  {at_ : Nat} {a a' : α} {v : Upgrade}

theorem nil (h : ∀ {i : Nat} {u : Upgrade}, fleet.upgrade? i = some u → u.AtRest) :
    fleet.Tends key Suits [] :=
  ⟨List.nodup_nil, fun _ h => absurd h List.not_mem_nil, fun hu _ => h hu⟩

theorem slot (h : fleet.Tends key Suits l) (ha : l[at_]? = some a) :
    ∃ u, fleet.upgrade? (key a) = some u ∧ Suits u a :=
  h.suits a (List.mem_of_getElem? ha)

/-- A record is at rest, or it has a slot that it suits. -/
theorem atRest_or (h : fleet.Tends key Suits l) {i : Nat} {u : Upgrade}
    (hu : fleet.upgrade? i = some u) : u.AtRest ∨ ∃ a ∈ l, key a = i ∧ Suits u a := by
  by_cases hi : i ∈ l.map key
  · obtain ⟨a, ha, rfl⟩ := List.mem_map.mp hi
    obtain ⟨w, hw, hs⟩ := h.suits a ha
    obtain rfl : u = w := Option.some.inj (hu.symm.trans hw)
    exact .inr ⟨a, ha, rfl, hs⟩
  · exact .inl (h.rest hu hi)

/-- The record of a slot and the slot change together. -/
theorem place (h : fleet.Tends key Suits l) (ha : l[at_]? = some a) (hk : key a' = key a)
    (hs : Suits v a') : (fleet.put (key a) v).Tends key Suits (l.set at_ a') := by
  obtain ⟨u, hu, -⟩ := h.slot ha
  refine ⟨by rw [map_key_set ha hk]; exact h.nodup, fun x hx => ?_, fun {i w} hw hi => ?_⟩
  · rcases (mem_set_iff h.nodup ha).mp hx with rfl | ⟨hx, hne⟩
    · exact ⟨v, by rw [hk]; exact upgrade?_put_self hu, hs⟩
    · obtain ⟨w, hw, hsw⟩ := h.suits x hx
      exact ⟨w, by rw [upgrade?_put_of_ne (Ne.symm hne)]; exact hw, hsw⟩
  · rw [map_key_set ha hk] at hi
    rcases upgrade?_put_cases hu hw with ⟨rfl, -⟩ | ⟨-, hw⟩
    · exact absurd (List.mem_map_of_mem (List.mem_of_getElem? ha)) hi
    · exact h.rest hw hi

/-- A slot changes, and its record suits it still. -/
theorem swap (h : fleet.Tends key Suits l) (ha : l[at_]? = some a) (hk : key a' = key a)
    (hs : ∀ u, Suits u a → Suits u a') : fleet.Tends key Suits (l.set at_ a') := by
  refine ⟨by rw [map_key_set ha hk]; exact h.nodup, fun x hx => ?_, fun {i w} hw hi => ?_⟩
  · rcases (mem_set_iff h.nodup ha).mp hx with rfl | ⟨hx, -⟩
    · obtain ⟨u, hu, hsu⟩ := h.slot ha
      exact ⟨u, by rw [hk]; exact hu, hs u hsu⟩
    · exact h.suits x hx
  · rw [map_key_set ha hk] at hi
    exact h.rest hw hi

/-- A slot goes away whose record is at rest. -/
theorem erase (h : fleet.Tends key Suits l) (ha : l[at_]? = some a)
    (hs : ∀ u, Suits u a → u.AtRest) : fleet.Tends key Suits (l.eraseIdx at_) := by
  refine ⟨?_, fun x hx => h.suits x ((mem_eraseIdx_iff h.nodup ha).mp hx).1, fun {i w} hw hi => ?_⟩
  · exact h.nodup.sublist ((List.eraseIdx_sublist l at_).map key)
  · by_cases hi' : i = key a
    · obtain ⟨u, hu, hsu⟩ := h.slot ha
      rw [hi', hu] at hw
      exact Option.some.inj hw ▸ hs u hsu
    · rcases h.atRest_or hw with hr | ⟨x, hx, rfl, -⟩
      · exact hr
      · exact absurd (List.mem_map_of_mem ((mem_eraseIdx_iff h.nodup ha).mpr ⟨hx, hi'⟩)) hi

/-- A slot is added for an upgrade that had none. -/
theorem add (h : fleet.Tends key Suits l) (ha : key a ∉ l.map key)
    (hs : ∃ u, fleet.upgrade? (key a) = some u ∧ Suits u a) :
    fleet.Tends key Suits (l ++ [a]) := by
  refine ⟨?_, fun x hx => ?_, fun {i w} hw hi => h.rest hw fun hl => hi ?_⟩
  · rw [List.map_append, List.nodup_append]
    refine ⟨h.nodup, by simp, fun i hi j hj => ?_⟩
    rw [List.map_singleton, List.mem_singleton] at hj
    exact fun hij => ha (hj ▸ hij ▸ hi)
  · rcases List.mem_append.mp hx with hx | hx
    · exact h.suits x hx
    · exact List.mem_singleton.mp hx ▸ hs
  · rw [List.map_append]
    exact List.mem_append_left _ hl

end Fleet.Tends

/-! ## Phases -/

/-- A record that no run touched. -/
def Upgrade.IsFresh (u : Upgrade) : Prop := ∃ endpoint b, u = .fresh endpoint b

theorem Upgrade.IsFresh.atRest {u : Upgrade} (h : u.IsFresh) : u.AtRest := by
  obtain ⟨endpoint, b, rfl⟩ := h
  exact .fresh endpoint b

theorem Upgrade.IsFresh.ne_done {u : Upgrade} (h : u.IsFresh) : u.current ≠ .done := by
  obtain ⟨endpoint, b, rfl⟩ := h
  exact Stage.noConfusion

theorem Upgrade.IsFresh.err {u : Upgrade} (h : u.IsFresh) : u.err = none := by
  obtain ⟨endpoint, b, rfl⟩ := h
  rfl

/-- A record with an error that no run is under way for still has something to do. -/
theorem Upgrade.AtRest.ne_done {u : Upgrade} (h : u.AtRest) (he : u.err.isSome) :
    u.current ≠ .done := fun hd => by rw [h.done hd] at he; cases he

/-- What the record of an admitted upgrade looks like. -/
def Admitted.Suits (c : Config) (u : Upgrade) : Admitted → Prop
  | queued _ _ => u.IsFresh
  | flying f => f.Fits c u ∧ u.err = none
  | landed _ failed => u.AtRest ∧ u.err.isSome = failed
  | counted _ => u.AtRest

/-- What the record of an attempt's upgrade looks like. -/
def Attempt.Suits (c : Config) (u : Upgrade) : Attempt → Prop
  | queued _ _ => u.AtRest ∧ u.err.isSome
  | flying f => f.Fits c u ∧ u.err.isSome
  | landed _ failed => u.AtRest ∧ u.err.isSome = failed

/-- Only a run that is under way keeps the record of an admitted upgrade from rest. -/
theorem Admitted.Suits.atRest {c : Config} {u : Upgrade} {a : Admitted} (h : a.Suits c u)
    (hf : ∀ f, a ≠ flying f) : u.AtRest := by
  cases a with
  | queued index inner => exact Upgrade.IsFresh.atRest h
  | flying f => exact absurd rfl (hf f)
  | landed index failed => exact h.1
  | counted index => exact h

/-- Only a run that is under way keeps the record of an attempt's upgrade from rest. -/
theorem Attempt.Suits.atRest {c : Config} {u : Upgrade} {a : Attempt} (h : a.Suits c u)
    (hf : ∀ f, a ≠ flying f) : u.AtRest := by
  cases a with
  | queued index inner => exact h.1
  | flying f => exact absurd rfl (hf f)
  | landed index failed => exact h.1

/-- A fleet before and while its canaries are upgraded: no upgrade has failed, and those from the
index `next` on are untouched. -/
structure Fleet.Trying (fleet : Fleet) (next : Nat) (flights : List Flight) : Prop where
  tends : fleet.Tends Flight.index (fun u f => f.Fits fleet.config u) flights
  unfailed : ∀ {i : Nat} {u : Upgrade}, fleet.upgrade? i = some u → u.err = none
  fresh : ∀ {i : Nat} {u : Upgrade}, fleet.upgrade? i = some u → next ≤ i → u.IsFresh
  le : next ≤ fleet.canaries
  failureCount : fleet.failureCount = 0
  admitted : fleet.admitted = 0

/-- The upgrades after the canaries are admitted in their order, each once, and the others are
untouched. -/
structure Bulk.Orderly (fleet : Fleet) (b : Bulk) : Prop where
  tends : fleet.Tends Admitted.index (Admitted.Suits fleet.config) b.admitted
  queue : b.queue = (List.range fleet.size).drop (fleet.canaries + fleet.admitted)
  range : ∀ a ∈ b.admitted, fleet.canaries ≤ a.index ∧ a.index < fleet.canaries + fleet.admitted
  fresh : ∀ {i : Nat} {u : Upgrade}, fleet.upgrade? i = some u →
    fleet.canaries + fleet.admitted ≤ i → u.IsFresh
  le : fleet.canaries + fleet.admitted ≤ fleet.size
  crashes : b.crashes = 0

/-- What holds of a fleet in a phase. -/
def Phase.Orderly (fleet : Fleet) : Phase → Prop
  | idle | rollout (.gate _) => fleet.IsNew
  | rollout (.canaryDue index) => fleet.Trying index []
  | rollout (.canary f) => fleet.Trying (f.index + 1) [f]
  | rollout (.cooldown _) => fleet.Trying fleet.canaries []
  | rollout (.bulk b) => b.Orderly fleet
  | rollout (.ended _) => ∀ {i : Nat} {u : Upgrade}, fleet.upgrade? i = some u → u.AtRest
  | rollout (.crashed _) => True
  | retry r => fleet.Tends Attempt.index (Attempt.Suits fleet.config) r.attempts

namespace Fleet

variable {fleet : Fleet}

theorem canaries_le (fleet : Fleet) : fleet.canaries ≤ fleet.size := Nat.min_le_right _ _

theorem IsNew.trying (h : fleet.IsNew) : fleet.Trying 0 [] where
  tends := .nil fun hu => Upgrade.IsFresh.atRest (h.upgrade hu)
  unfailed hu := Upgrade.IsFresh.err (h.upgrade hu)
  fresh hu _ := h.upgrade hu
  le := Nat.zero_le _
  failureCount := h.failureCount
  admitted := h.admitted

/-- After the canaries nothing is admitted yet. -/
theorem Trying.bulk (h : fleet.Trying fleet.canaries []) : (Bulk.start fleet).Orderly fleet where
  tends := .nil fun hu => h.tends.rest hu List.not_mem_nil
  queue := by rw [h.admitted]; rfl
  range a ha := absurd ha List.not_mem_nil
  fresh hu hi := h.fresh hu (by rw [h.admitted] at hi; exact hi)
  le := by rw [h.admitted]; exact fleet.canaries_le
  crashes := rfl

end Fleet

/-! ## Steps before the others -/

namespace Fleet.Trying

variable {fleet : Fleet} {index : Nat} {u v : Upgrade} {landing : Landing}

/-- A step of the canary at an index, while no other upgrade is under way. -/
theorem landed (hu : fleet.upgrade? index = some u) (hlt : index < fleet.canaries)
    (hrest : ∀ {j : Nat} {w : Upgrade}, fleet.upgrade? j = some w → j ≠ index →
      w.AtRest ∧ w.err = none ∧ (index < j → w.IsFresh))
    (hf : fleet.failureCount = 0) (ha : fleet.admitted = 0) (he : u.err = none)
    (hs : landing.Suits fleet.config index u v) :
    (Phase.rollout (Run.canaryLanded index (fleet.put index v, landing)).2).Orderly
      (Run.canaryLanded index (fleet.put index v, landing)).1 := by
  have hfresh {j : Nat} {w : Upgrade} (hw : (fleet.put index v).upgrade? j = some w)
      (hj : index + 1 ≤ j) : w.IsFresh := by
    rcases upgrade?_put_cases hu hw with ⟨rfl, -⟩ | ⟨hne, hw⟩
    · omega
    · exact (hrest hw hne).2.2 hj
  have hle : index + 1 ≤ (fleet.put index v).canaries := by rw [put_canaries]; exact hlt
  cases landing with
  | flying f =>
    obtain ⟨rfl, hfits, herr⟩ := hs
    refine ⟨⟨by simp, fun x hx => ?_, fun hw hj => ?_⟩, fun hw => ?_, hfresh, hle, hf, ha⟩
    · rw [List.mem_singleton.mp hx]
      exact ⟨v, upgrade?_put_self hu, hfits⟩
    · rcases upgrade?_put_cases hu hw with ⟨rfl, -⟩ | ⟨hne, hw⟩
      · exact absurd (by simp) hj
      · exact (hrest hw hne).1
    · rcases upgrade?_put_cases hu hw with ⟨-, rfl⟩ | ⟨hne, hw⟩
      · exact herr.trans he
      · exact (hrest hw hne).2.1
  | landed result =>
    obtain ⟨hv, herr⟩ := hs
    have hall {j : Nat} {w : Upgrade} (hw : (fleet.put index v).upgrade? j = some w) :
        w.AtRest := by
      rcases upgrade?_put_cases hu hw with ⟨-, rfl⟩ | ⟨hne, hw⟩
      · exact hv
      · exact (hrest hw hne).1
    cases result with
    | ok a =>
      refine ⟨.nil hall, fun hw => ?_, hfresh, hle, hf, ha⟩
      rcases upgrade?_put_cases hu hw with ⟨-, rfl⟩ | ⟨hne, hw⟩
      · simpa [Except.isOk, Except.toBool] using herr
      · exact (hrest hw hne).2.1
    | error e => exact @hall
  | crashed text => exact hs.elim

/-- The run of the canary that is due begins. -/
theorem begins (h : fleet.Trying index []) (hlt : index < fleet.canaries) (ctx : Context)
    (source : Except IoError Entry) (m : Moment) :
    ∃ u v landing, fleet.upgrade? index = some u ∧ u.IsFresh ∧
      v.backend = u.backend ∧ v.current = u.current ∧ landing.Suits fleet.config index u v ∧
      Flight.start fleet index ctx source m = (fleet.put index v, landing) := by
  obtain ⟨u, hu⟩ := exists_upgrade (Nat.lt_of_lt_of_le hlt fleet.canaries_le)
  have hfresh := h.fresh hu (Nat.le_refl _)
  obtain ⟨v, landing, hstart, hs, hb, hcur⟩ :=
    Flight.start_suits hu hfresh.atRest hfresh.ne_done ctx source m
  exact ⟨u, v, landing, hu, hfresh, hb, hcur, hs, hstart⟩

theorem next (h : fleet.Trying index []) (ctx : Context) (source : Except IoError Entry)
    (m : Moment) :
    (Phase.rollout (Run.nextCanary fleet ctx source m index).2).Orderly
      (Run.nextCanary fleet ctx source m index).1 := by
  have hn := Run.nexts fleet ctx source m index
  generalize Run.canaryHappenings fleet ctx source m index = seen,
    Run.nextCanary fleet ctx source m index = x at hn ⊢
  cases hn with
  | overflows _ _ => trivial
  | @begins inner hlt _ =>
    obtain ⟨u, v, landing, hu, -, -, -, hs, hstart⟩ := h.begins hlt inner source m
    rw [hstart]
    refine landed hu hlt (fun hw hne => ⟨h.tends.rest hw List.not_mem_nil, h.unfailed hw, ?_⟩)
      h.failureCount h.admitted (h.unfailed hu) hs
    exact fun hj => h.fresh hw (Nat.le_of_lt hj)
  | skips hle _ => obtain rfl := Nat.le_antisymm h.le hle; exact h.bulk
  | rests hle _ _ => obtain rfl := Nat.le_antisymm h.le hle; exact h

theorem resumed {f : Flight} (h : fleet.Trying (f.index + 1) [f]) (m : Moment) {e : Event f.wait}
    (he : e.IsCalm) :
    (Phase.rollout (Run.canaryResumed fleet m f e).2).Orderly
      (Run.canaryResumed fleet m f e).1 := by
  obtain ⟨u, hu, hf⟩ := h.tends.suits f (by simp)
  obtain ⟨v, landing, hresume, hs, -⟩ := Flight.resume_suits hu hf m he
  unfold Run.canaryResumed
  rw [hresume]
  refine landed hu h.le (fun hw hne => ⟨h.tends.rest hw (by simpa using hne), h.unfailed hw, ?_⟩)
    h.failureCount h.admitted (h.unfailed hu) hs
  exact fun hj => h.fresh hw hj

end Fleet.Trying

namespace Fleet.IsNew

variable {fleet : Fleet}

theorem refuse (h : fleet.IsNew) (e : GateError) :
    (Phase.rollout (Run.refuse fleet e).2).Orderly (Run.refuse fleet e).1 :=
  fun hu => Upgrade.IsFresh.atRest (h.upgrade hu)

theorem start (h : fleet.IsNew) (ctx : Context) (m : Moment) :
    (Phase.rollout (Run.start fleet ctx m).2).Orderly (Run.start fleet ctx m).1 := by
  have hs := Run.starts fleet ctx m
  generalize Run.start fleet ctx m = x at hs ⊢
  cases hs with
  | overflows _ => trivial
  | halts _ _ => exact @refuse fleet h _
  | asks _ _ => exact h

theorem answered (h : fleet.IsNew) (e : Event (Run.gateCall fleet)) :
    (Phase.rollout (Run.gateAnswered fleet e).2).Orderly (Run.gateAnswered fleet e).1 := by
  have ha := Run.answers fleet e
  generalize Run.gateAnswered fleet e = x at ha ⊢
  cases ha with
  | admits _ => exact h.trying
  | denies _ => exact @refuse fleet h _
  | halts => exact @refuse fleet h _
  | crashes => trivial

end Fleet.IsNew

/-! ## Steps after the canaries -/

theorem drop_range_eq_cons {n m i : Nat} {rest : List Nat}
    (h : (List.range n).drop m = i :: rest) :
    i = m ∧ m < n ∧ rest = (List.range n).drop (m + 1) := by
  have hlt : m < n := by
    by_cases hm : m < n
    · exact hm
    · rw [List.drop_eq_nil_of_le (by rw [List.length_range]; omega)] at h
      cases h
  rw [List.drop_eq_getElem_cons (by rw [List.length_range]; exact hlt), List.getElem_range] at h
  obtain ⟨rfl, rfl⟩ := List.cons.inj h
  exact ⟨rfl, hlt, rfl⟩

/-- What a landing makes of the admitted upgrade at an index; one that crashed is none any more. -/
def Landing.admitted (index : Nat) : Landing → Admitted
  | .flying f => .flying f
  | .landed result => .landed index !result.isOk
  | .crashed _ => .counted index

/-- What a landing makes of the attempt at an index; one that crashed is none any more. -/
def Landing.attempt (index : Nat) : Landing → Attempt
  | .flying f => .flying f
  | .landed result => .landed index !result.isOk
  | .crashed _ => .landed index true

namespace Landing

variable {c : Config} {index : Nat} {u v : Upgrade} {landing : Landing}

theorem Suits.admitted_index (h : landing.Suits c index u v) :
    (landing.admitted index).index = index := by
  cases landing with
  | flying f => exact h.1
  | landed result => rfl
  | crashed text => rfl

theorem Suits.admitted (h : landing.Suits c index u v) (he : u.err = none) :
    (landing.admitted index).Suits c v := by
  cases landing with
  | flying f => exact ⟨h.2.1, h.2.2.trans he⟩
  | landed result => exact h
  | crashed text => exact h.elim

theorem Suits.settle (h : landing.Suits c index u v) (b : Bulk) (at_ : Nat) :
    b.settle at_ index landing = b.place at_ (landing.admitted index) := by
  cases landing with
  | flying f => rfl
  | landed result => cases result <;> rfl
  | crashed text => exact h.elim

theorem Suits.attempt_index (h : landing.Suits c index u v) :
    (landing.attempt index).index = index := by
  cases landing with
  | flying f => exact h.1
  | landed result => rfl
  | crashed text => rfl

theorem Suits.attempt (h : landing.Suits c index u v) (he : u.err.isSome) :
    (landing.attempt index).Suits c v := by
  cases landing with
  | flying f => exact ⟨h.2.1, h.2.2 ▸ he⟩
  | landed result => exact h
  | crashed text => exact h.elim

theorem Suits.settleAgain (h : landing.Suits c index u v) (r : Retry) (at_ : Nat) :
    r.settle at_ index landing = r.place at_ (landing.attempt index) := by
  cases landing with
  | flying f => rfl
  | landed result => cases result <;> rfl
  | crashed text => exact h.elim

end Landing

namespace Bulk

variable {fleet fleet' : Fleet} {b b' : Bulk} {at_ index : Nat}

/-- What a step of the run of an admitted upgrade makes of the fleet and of the upgrades after the
canaries. -/
inductive Flies (fleet : Fleet) (b : Bulk) (a : Admitted) (landing : Landing) : Fleet → Bulk → Prop
  | of {at_ : Nat} {u v : Upgrade} : b.admitted[at_]? = some a → a.hasLanded = false →
    fleet.upgrade? a.index = some u → u.err = none → v.backend = u.backend →
    landing.Suits fleet.config a.index u v →
      Flies fleet b a landing (fleet.put a.index v) (b.place at_ (landing.admitted a.index))

/-- What the account of an upgrade that landed makes of them. -/
inductive Accounts (fleet : Fleet) (b : Bulk) : Fleet → Bulk → Prop
  | counts {at_ index : Nat} {failed : Bool} : b.admitted[at_]? = some (.landed index failed) →
    Accounts fleet b { fleet with failureCount := fleet.failureCount + failed.toNat }
      (b.place at_ (.counted index))
  | releases {at_ index : Nat} : b.admitted[at_]? = some (.counted index) →
    Accounts fleet b fleet (b.release at_)

theorem accounts {a : Admitted} (ha : b.admitted[at_]? = some a) (hl : a.hasLanded = true) :
    Accounts fleet b (b.account fleet at_).1 (b.account fleet at_).2 := by
  unfold account
  rw [ha]
  cases a with
  | queued index inner => cases hl
  | flying f => cases hl
  | counted index => exact .releases ha
  | landed index failed =>
    cases failed with
    | false => exact .counts ha
    | true => exact .counts ha

/-- The beginning of the run of an admitted upgrade. -/
theorem takeOff_eq {inner : Context} (ha : b.admitted[at_]? = some (.queued index inner))
    (source : Except IoError Entry) (m : Moment) :
    b.takeOff fleet at_ source m = ((Flight.start fleet index inner source m).1,
      b.settle at_ index (Flight.start fleet index inner source m).2) := by
  unfold takeOff
  rw [ha]

namespace Orderly

theorem flies_takeOff (h : b.Orderly fleet) {inner : Context}
    (ha : b.admitted[at_]? = some (.queued index inner)) (source : Except IoError Entry)
    (m : Moment) :
    Flies fleet b (.queued index inner) (Flight.start fleet index inner source m).2
      (b.takeOff fleet at_ source m).1 (b.takeOff fleet at_ source m).2 := by
  obtain ⟨u, hu, hfresh⟩ : ∃ u, fleet.upgrade? index = some u ∧ u.IsFresh := h.tends.slot ha
  obtain ⟨v, landing, hstart, hs, hb, -⟩ :=
    Flight.start_suits hu hfresh.atRest hfresh.ne_done inner source m
  rw [takeOff_eq ha, hstart]
  simp only [hs.settle]
  exact .of ha rfl hu hfresh.err hb hs

theorem flies_resume (h : b.Orderly fleet) {f : Flight}
    (ha : b.admitted[at_]? = some (.flying f)) (m : Moment) {e : Event f.wait} (he : e.IsCalm) :
    Flies fleet b (.flying f) (f.resume fleet m e).2 (b.resume fleet at_ f m e).1
      (b.resume fleet at_ f m e).2 := by
  obtain ⟨u, hu, hf, herr⟩ := h.tends.slot ha
  obtain ⟨v, landing, hresume, hs, hb⟩ := Flight.resume_suits hu hf m he
  unfold resume
  simp only [hresume]
  rw [hs.settle]
  exact .of ha rfl hu herr hb hs

theorem lead (h : b.Orderly fleet) (hl : b.Leads fleet fleet' b') : b'.Orderly fleet' := by
  cases hl with
  | exhausts _ _ => exact ⟨h.tends, h.queue, h.range, h.fresh, h.le, h.crashes⟩
  | takes _ _ => exact ⟨h.tends, h.queue, h.range, h.fresh, h.le, h.crashes⟩
  | stops _ _ => exact ⟨h.tends, h.queue, h.range, h.fresh, h.le, h.crashes⟩
  | clears _ _ => exact ⟨h.tends, h.queue, h.range, h.fresh, h.le, h.crashes⟩
  | gathers _ hc => exact absurd h.crashes (Nat.ne_of_gt hc)
  | @admits index rest inner _ hq =>
    obtain ⟨rfl, hlt, hrest⟩ := drop_range_eq_cons (h.queue.symm.trans hq)
    have hout : fleet.canaries + fleet.admitted ∉ b.admitted.map Admitted.index := fun hm => by
      obtain ⟨a, ha, hi⟩ := List.mem_map.mp hm
      have := (h.range a ha).2
      omega
    obtain ⟨u, hu⟩ := Fleet.exists_upgrade hlt
    have tends := h.tends.add (a := Admitted.queued (fleet.canaries + fleet.admitted) inner) hout
      ⟨u, hu, h.fresh hu (Nat.le_refl _)⟩
    refine ⟨⟨tends.nodup, tends.suits, tends.rest⟩, hrest, fun a ha => ?_, fun hu hi => ?_, hlt,
      h.crashes⟩
    · show fleet.canaries ≤ a.index ∧ a.index < fleet.canaries + (fleet.admitted + 1)
      rcases List.mem_append.mp ha with ha | ha
      · have := h.range a ha
        omega
      · rw [List.mem_singleton.mp ha, Admitted.index]
        omega
    · exact h.fresh hu (Nat.le_of_succ_le hi)

theorem flies {a : Admitted} {landing : Landing} (h : b.Orderly fleet)
    (hf : b.Flies fleet a landing fleet' b') : b'.Orderly fleet' := by
  cases hf with
  | @of at_ u v ha _ hu he _ hs =>
    have hrange := h.range a (List.mem_of_getElem? ha)
    refine ⟨h.tends.place ha hs.admitted_index (hs.admitted he), ?_, fun x hx => ?_,
      fun hw hi => ?_, ?_, h.crashes⟩
    · rw [Fleet.put_size, Fleet.put_canaries]; exact h.queue
    · rw [Fleet.put_canaries]
      rcases (mem_set_iff h.tends.nodup ha).mp hx with rfl | ⟨hx, -⟩
      · rw [hs.admitted_index]; exact hrange
      · exact h.range x hx
    · rw [Fleet.put_canaries] at hi
      rcases Fleet.upgrade?_put_cases hu hw with ⟨rfl, -⟩ | ⟨-, hw⟩
      · exact absurd hi (Nat.not_le_of_lt hrange.2)
      · exact h.fresh hw hi
    · rw [Fleet.put_size, Fleet.put_canaries]; exact h.le

theorem accounts (h : b.Orderly fleet) (ha : b.Accounts fleet fleet' b') : b'.Orderly fleet' := by
  cases ha with
  | @counts at_ index failed ha =>
    have tends := h.tends.swap ha (rfl : (Admitted.counted index).index = index)
      fun u hu => hu.1
    refine ⟨⟨tends.nodup, tends.suits, tends.rest⟩, h.queue, fun x hx => ?_, h.fresh, h.le,
      h.crashes⟩
    rcases (mem_set_iff h.tends.nodup ha).mp hx with rfl | ⟨hx, -⟩
    · exact h.range (.landed index failed) (List.mem_of_getElem? ha)
    · exact h.range x hx
  | @releases at_ index ha =>
    refine ⟨h.tends.erase ha fun u hu => hu, h.queue, fun x hx => ?_, h.fresh, h.le, h.crashes⟩
    exact h.range x ((mem_eraseIdx_iff h.tends.nodup ha).mp hx).1

/-- When the rollout ends, no run of an upgrade is under way. -/
theorem atRest (h : b.Orderly fleet) (ha : b.admitted = []) {i : Nat} {u : Upgrade}
    (hu : fleet.upgrade? i = some u) : u.AtRest :=
  h.tends.rest hu (by rw [ha]; exact List.not_mem_nil)

end Orderly

end Bulk

/-! ## Passes -/

namespace Fleet

theorem mem_failuresFrom {k : Nat} {us : List Upgrade} {f : FailedUpgrade}
    (h : f ∈ failuresFrom k us) :
    k ≤ f.index ∧ ∃ u, us[f.index - k]? = some u ∧ u.err.isSome := by
  induction us generalizing k with
  | nil => exact absurd h List.not_mem_nil
  | cons u rest ih =>
    have later (h : f ∈ failuresFrom (k + 1) rest) :
        k ≤ f.index ∧ ∃ w, (u :: rest)[f.index - k]? = some w ∧ w.err.isSome := by
      obtain ⟨hle, w, hw, he⟩ := ih h
      refine ⟨by omega, w, ?_, he⟩
      rw [show f.index - k = f.index - (k + 1) + 1 by omega, List.getElem?_cons_succ]
      exact hw
    unfold failuresFrom at h
    split at h
    · rename_i e he
      rcases List.mem_cons.mp h with rfl | h
      · exact ⟨Nat.le_refl _, u, by simp, by rw [he]; rfl⟩
      · exact later h
    · exact later h

theorem nodup_failuresFrom (k : Nat) (us : List Upgrade) :
    ((failuresFrom k us).map (·.index)).Nodup := by
  induction us generalizing k with
  | nil => exact List.nodup_nil
  | cons u rest ih =>
    unfold failuresFrom
    split
    · rw [List.map_cons, List.nodup_cons]
      refine ⟨fun hm => ?_, ih (k + 1)⟩
      obtain ⟨f, hf, hk : f.index = k⟩ := List.mem_map.mp hm
      have := (mem_failuresFrom hf).1
      omega
    · exact ih (k + 1)

theorem mem_index_failuresFrom {i k : Nat} {us : List Upgrade} {u : Upgrade} (hu : us[i]? = some u)
    (he : u.err.isSome) : k + i ∈ (failuresFrom k us).map (·.index) := by
  induction us generalizing i k with
  | nil => cases hu
  | cons w rest ih =>
    unfold failuresFrom
    cases i with
    | zero =>
      obtain rfl : w = u := Option.some.inj hu
      obtain ⟨e, he⟩ := Option.isSome_iff_exists.mp he
      rw [he]
      exact List.mem_cons_self
    | succ i =>
      have hm := ih (k := k + 1) hu
      rw [show k + (i + 1) = k + 1 + i by omega]
      split
      · exact List.mem_cons_of_mem _ hm
      · exact hm

theorem upgrade?_of_mem_failures {fleet : Fleet} {f : FailedUpgrade} (h : f ∈ fleet.failures) :
    ∃ u, fleet.upgrade? f.index = some u ∧ u.err.isSome := (mem_failuresFrom h).2

/-- The failures are the upgrades with an error. -/
theorem mem_index_failures {fleet : Fleet} {i : Nat} :
    i ∈ fleet.failures.map (·.index) ↔ ∃ u, fleet.upgrade? i = some u ∧ u.err.isSome := by
  constructor
  · intro h
    obtain ⟨f, hf, rfl⟩ := List.mem_map.mp h
    exact upgrade?_of_mem_failures hf
  · rintro ⟨u, hu, he⟩
    have := mem_index_failuresFrom (k := 0) hu he
    rwa [Nat.zero_add] at this

end Fleet

namespace Retry

variable {fleet fleet' : Fleet} {r r' : Retry} {at_ index : Nat}

/-- What a step of the run of an attempt makes of the fleet and of the pass. -/
inductive Flies (fleet : Fleet) (r : Retry) (a : Attempt) (landing : Landing) :
    Fleet → Retry → Prop
  | of {at_ : Nat} {u v : Upgrade} : r.attempts[at_]? = some a → a.hasLanded = false →
    fleet.upgrade? a.index = some u → u.err.isSome → v.backend = u.backend →
    landing.Suits fleet.config a.index u v →
      Flies fleet r a landing (fleet.put a.index v) (r.place at_ (landing.attempt a.index))

/-- What the account of an attempt that landed makes of them. -/
inductive Accounts (fleet : Fleet) (r : Retry) : Fleet → Retry → Prop
  | ends {at_ index : Nat} {failed : Bool} : r.attempts[at_]? = some (.landed index failed) →
    Accounts fleet r { fleet with failureCount := fleet.failureCount - (!failed).toNat }
      ⟨r.attempts.eraseIdx at_⟩

theorem accounts {a : Attempt} (ha : r.attempts[at_]? = some a) (hl : a.hasLanded = true) :
    Accounts fleet r (r.account fleet at_).1 (r.account fleet at_).2 := by
  unfold account
  rw [ha]
  cases a with
  | queued index inner => cases hl
  | flying f => cases hl
  | landed index failed =>
    cases failed with
    | false => exact .ends ha
    | true => exact .ends ha

/-- The beginning of the run of an attempt. -/
theorem takeOff_eq {inner : Context} (ha : r.attempts[at_]? = some (.queued index inner))
    (source : Except IoError Entry) (m : Moment) :
    r.takeOff fleet at_ source m = ((Flight.start fleet index inner source m).1,
      r.settle at_ index (Flight.start fleet index inner source m).2) := by
  unfold takeOff
  rw [ha]

/-- What holds in a pass. -/
abbrev Orderly (fleet : Fleet) (r : Retry) : Prop :=
  fleet.Tends Attempt.index (Attempt.Suits fleet.config) r.attempts

namespace Orderly

theorem start {ctx : Context} {now : Instant}
    (hall : ∀ {i : Nat} {u : Upgrade}, fleet.upgrade? i = some u → u.AtRest)
    (h : Retry.start? fleet ctx now = some r) : r.Orderly fleet := by
  unfold start? at h
  split at h
  · cases h
    exact .nil hall
  · obtain ⟨inner, -, rfl⟩ := Option.map_eq_some_iff.mp h
    refine ⟨?_, fun a ha => ?_, fun hu _ => hall hu⟩
    · rw [List.map_map]
      exact Fleet.nodup_failuresFrom 0 fleet.upgrades
    · obtain ⟨f, hf, rfl⟩ := List.mem_map.mp ha
      obtain ⟨u, hu, he⟩ := Fleet.upgrade?_of_mem_failures hf
      exact ⟨u, hu, hall hu, he⟩

theorem flies_takeOff (h : r.Orderly fleet) {inner : Context}
    (ha : r.attempts[at_]? = some (.queued index inner)) (source : Except IoError Entry)
    (m : Moment) :
    Flies fleet r (.queued index inner) (Flight.start fleet index inner source m).2
      (r.takeOff fleet at_ source m).1 (r.takeOff fleet at_ source m).2 := by
  obtain ⟨u, hu, hrest, he⟩ : ∃ u, fleet.upgrade? index = some u ∧ u.AtRest ∧ u.err.isSome :=
    h.slot ha
  obtain ⟨v, landing, hstart, hs, hb, -⟩ :=
    Flight.start_suits hu hrest (hrest.ne_done he) inner source m
  rw [takeOff_eq ha, hstart]
  simp only [hs.settleAgain]
  exact .of ha rfl hu he hb hs

theorem flies_resume (h : r.Orderly fleet) {f : Flight}
    (ha : r.attempts[at_]? = some (.flying f)) (m : Moment) {e : Event f.wait} (he : e.IsCalm) :
    Flies fleet r (.flying f) (f.resume fleet m e).2 (r.resume fleet at_ f m e).1
      (r.resume fleet at_ f m e).2 := by
  obtain ⟨u, hu, hf, herr⟩ := h.slot ha
  obtain ⟨v, landing, hresume, hs, hb⟩ := Flight.resume_suits hu hf m he
  unfold resume
  simp only [hresume]
  rw [hs.settleAgain]
  exact .of ha rfl hu herr hb hs

theorem flies {a : Attempt} {landing : Landing} (h : r.Orderly fleet)
    (hf : r.Flies fleet a landing fleet' r') : r'.Orderly fleet' := by
  cases hf with
  | of ha _ hu he _ hs => exact h.place ha hs.attempt_index (hs.attempt he)

theorem accounts (h : r.Orderly fleet) (ha : r.Accounts fleet fleet' r') : r'.Orderly fleet' := by
  cases ha with
  | ends ha =>
    have tends := h.erase ha fun u hu => hu.1
    exact ⟨tends.nodup, tends.suits, tends.rest⟩

/-- When a pass is over, no run of an upgrade is under way. -/
theorem atRest (h : r.Orderly fleet) (ho : r.isOver = true) {i : Nat} {u : Upgrade}
    (hu : fleet.upgrade? i = some u) : u.AtRest := by
  refine h.rest hu ?_
  rw [List.isEmpty_iff.mp ho]
  exact List.not_mem_nil

end Orderly

end Retry

/-- When nothing is under way, all records are at rest. -/
theorem Phase.Orderly.settled {fleet : Fleet} {phase : Phase} (h : phase.Orderly fleet)
    (hover : phase.isOver = true) {i : Nat} {u : Upgrade} (hu : fleet.upgrade? i = some u) :
    u.AtRest := by
  cases phase with
  | idle => cases hover
  | retry r => exact Retry.Orderly.atRest h hover hu
  | rollout run =>
    cases run with
    | ended result => exact h hu
    | _ => cases hover

/-! ## What never changes -/

/-- A fleet that went on keeps its configuration, its limits of time and its targets. -/
structure Fleet.Keeps (fleet fleet' : Fleet) : Prop where
  config : fleet'.config = fleet.config
  timeouts : fleet'.timeouts = fleet.timeouts
  backends : fleet'.backends = fleet.backends
  targets : fleet'.upgrades.map (·.backend) = fleet.upgrades.map (·.backend)
  endpoints : fleet'.upgrades.map (·.endpoint) = fleet.upgrades.map (·.endpoint)

namespace Upgrade

variable {u : Upgrade} {j : Job} {ctx : Context} {m : Moment}

theorem backend_guard (p : Position) : (u.guard ctx m p).1.backend = u.backend := by
  unfold guard
  split <;> rfl

theorem backend_enter (s : Stage) : (u.enter j ctx m s).1.backend = u.backend := by
  unfold enter
  split
  · rfl
  · exact backend_guard _

theorem backend_resume (p : Position) (e : Event (p.wait j)) :
    (u.resume j ctx m p e).1.backend = u.backend := by
  cases e with
  | stopped reason => rfl
  | crashed text => rfl
  | result r =>
    rw [resume]
    cases p.resume j m.now r with
    | stay q => exact backend_guard q
    | passed => exact backend_enter _
    | failed e => rfl

theorem endpoint_guard (p : Position) : (u.guard ctx m p).1.endpoint = u.endpoint := by
  unfold guard
  split <;> rfl

theorem endpoint_enter (s : Stage) : (u.enter j ctx m s).1.endpoint = u.endpoint := by
  unfold enter
  split
  · rfl
  · exact endpoint_guard _

theorem endpoint_resume (p : Position) (e : Event (p.wait j)) :
    (u.resume j ctx m p e).1.endpoint = u.endpoint := by
  cases e with
  | stopped reason => rfl
  | crashed text => rfl
  | result r =>
    rw [resume]
    cases p.resume j m.now r with
    | stay q => exact endpoint_guard q
    | passed => exact endpoint_enter _
    | failed e => rfl

end Upgrade

namespace Fleet.Keeps

variable {fleet fleet' fleet'' : Fleet} {index : Nat} {u v : Upgrade}

theorem refl (fleet : Fleet) : fleet.Keeps fleet := ⟨rfl, rfl, rfl, rfl, rfl⟩

theorem trans (h : fleet.Keeps fleet') (h' : fleet'.Keeps fleet'') : fleet.Keeps fleet'' :=
  ⟨h'.config.trans h.config, h'.timeouts.trans h.timeouts, h'.backends.trans h.backends,
    h'.targets.trans h.targets, h'.endpoints.trans h.endpoints⟩

theorem put (hu : fleet.upgrade? index = some u) (hb : v.backend = u.backend)
    (he : v.endpoint = u.endpoint) : fleet.Keeps (fleet.put index v) :=
  ⟨rfl, rfl, rfl, map_key_set hu hb, map_key_set hu he⟩

/-- The upgrade at an index is for the same endpoint as before. -/
theorem endpoint (h : fleet.Keeps fleet') (hu : fleet.upgrade? index = some u)
    (hv : fleet'.upgrade? index = some v) : v.endpoint = u.endpoint := by
  have hmap := congrArg (·[index]?) h.endpoints
  simp only [List.getElem?_map] at hmap
  change Option.map _ (fleet'.upgrade? index) = Option.map _ (fleet.upgrade? index) at hmap
  rw [hu, hv] at hmap
  exact Option.some.inj hmap

theorem size (h : fleet.Keeps fleet') : fleet'.size = fleet.size := by
  have := congrArg List.length h.targets
  rwa [List.length_map, List.length_map] at this

theorem canaries (h : fleet.Keeps fleet') : fleet'.canaries = fleet.canaries := by
  rw [Fleet.canaries, h.config, h.size, Fleet.canaries]

theorem capacity (h : fleet.Keeps fleet') : fleet'.capacity = fleet.capacity := by
  rw [Fleet.capacity, h.config, h.size, h.canaries, Fleet.capacity]

theorem maxFailures (h : fleet.Keeps fleet') : fleet'.maxFailures = fleet.maxFailures := by
  rw [Fleet.maxFailures, h.config, Fleet.maxFailures]

theorem start (fleet : Fleet) (index : Nat) (ctx : Context) (source : Except IoError Entry)
    (m : Moment) : fleet.Keeps (Flight.start fleet index ctx source m).1 := by
  cases hu : fleet.upgrade? index with
  | none => unfold Flight.start; rw [hu]; exact refl fleet
  | some u =>
    cases source with
    | error e => rw [Flight.start_error hu]; exact put hu rfl rfl
    | ok source =>
      rw [Flight.start_ok hu]
      exact put hu (Upgrade.backend_enter _) (Upgrade.endpoint_enter _)

theorem resume (fleet : Fleet) (f : Flight) (m : Moment) (e : Event f.wait) :
    fleet.Keeps (f.resume fleet m e).1 := by
  cases hu : fleet.upgrade? f.index with
  | none => unfold Flight.resume; rw [hu]; exact refl fleet
  | some u =>
    rw [Flight.resume_eq hu]
    exact put hu (Upgrade.backend_resume _ _) (Upgrade.endpoint_resume _ _)

theorem landed (index : Nat) (x : Fleet × Landing) :
    x.1.Keeps (Run.canaryLanded index x).1 := by
  unfold Run.canaryLanded
  split <;> exact ⟨rfl, rfl, rfl, rfl, rfl⟩

theorem next (fleet : Fleet) (ctx : Context) (source : Except IoError Entry) (m : Moment)
    (index : Nat) : fleet.Keeps (Run.nextCanary fleet ctx source m index).1 := by
  have hn := Run.nexts fleet ctx source m index
  generalize Run.canaryHappenings fleet ctx source m index = seen,
    Run.nextCanary fleet ctx source m index = x at hn ⊢
  cases hn with
  | overflows _ _ => exact refl fleet
  | begins _ _ => exact (start fleet index _ source m).trans (landed index _)
  | skips _ _ => exact refl fleet
  | rests _ _ _ => exact refl fleet

theorem refuse (fleet : Fleet) (e : GateError) : fleet.Keeps (Run.refuse fleet e).1 :=
  ⟨rfl, rfl, rfl, rfl, rfl⟩

theorem startRun (fleet : Fleet) (ctx : Context) (m : Moment) :
    fleet.Keeps (Run.start fleet ctx m).1 := by
  have hs := Run.starts fleet ctx m
  generalize Run.start fleet ctx m = x at hs ⊢
  cases hs with
  | overflows _ => exact refl fleet
  | halts _ _ => exact refuse fleet _
  | asks _ _ => exact refl fleet

theorem gateAnswered (fleet : Fleet) (e : Event (Run.gateCall fleet)) :
    fleet.Keeps (Run.gateAnswered fleet e).1 := by
  have ha := Run.answers fleet e
  generalize Run.gateAnswered fleet e = x at ha ⊢
  cases ha with
  | admits _ => exact refl fleet
  | denies _ => exact refuse fleet _
  | halts => exact refuse fleet _
  | crashes => exact refl fleet

theorem leads {b b' : Bulk} (h : b.Leads fleet fleet' b') : fleet.Keeps fleet' := by
  cases h <;> exact ⟨rfl, rfl, rfl, rfl, rfl⟩

theorem conclude (fleet : Fleet) : fleet.Keeps (Bulk.conclude fleet).1 := by
  unfold Bulk.conclude
  split <;> exact ⟨rfl, rfl, rfl, rfl, rfl⟩

theorem takeOff (fleet : Fleet) (b : Bulk) (at_ : Nat) (source : Except IoError Entry)
    (m : Moment) : fleet.Keeps (b.takeOff fleet at_ source m).1 := by
  unfold Bulk.takeOff
  split
  · exact start _ _ _ _ _
  · exact refl fleet

theorem account (fleet : Fleet) (b : Bulk) (at_ : Nat) :
    fleet.Keeps (b.account fleet at_).1 := by
  unfold Bulk.account
  split <;> exact ⟨rfl, rfl, rfl, rfl, rfl⟩

theorem takeOffAgain (fleet : Fleet) (r : Retry) (at_ : Nat) (source : Except IoError Entry)
    (m : Moment) : fleet.Keeps (r.takeOff fleet at_ source m).1 := by
  unfold Retry.takeOff
  split
  · exact start _ _ _ _ _
  · exact refl fleet

theorem accountAgain (fleet : Fleet) (r : Retry) (at_ : Nat) :
    fleet.Keeps (r.account fleet at_).1 := by
  unfold Retry.account
  split <;> exact ⟨rfl, rfl, rfl, rfl, rfl⟩

end Fleet.Keeps

/-! ## Courses -/

section Courses

variable {σ : Type} {env : Surroundings σ} {ctx : Context} {x y : Scene σ}
  {hs new : List Happening}

theorem Scene.Acts.keeps (h : x.Acts env ctx hs y) : x.fleet.Keeps y.fleet := by
  cases h with
  | start => rw [Scene.ofRun_fleet]; exact .startRun _ _ _
  | canaryDue _ => rw [Scene.ofRun_fleet]; exact .next _ _ _ _ _
  | lead hl => exact .leads (Bulk.leads_of_moved hl)
  | conclude hl =>
    obtain ⟨-, -, -, rfl, -⟩ := Bulk.conclude_of_ended hl
    exact .conclude _
  | overflow hl =>
    obtain ⟨-, -, rfl⟩ := Bulk.overflow_of_overflowed hl
    exact ⟨rfl, rfl, rfl, rfl, rfl⟩
  | takeOff _ _ => exact .takeOff _ _ _ _ _
  | account _ _ => exact .account _ _ _
  | again _ _ _ => exact .refl _
  | takeOffAgain _ _ => exact .takeOffAgain _ _ _ _ _
  | accountAgain _ _ => exact .accountAgain _ _ _

theorem Scene.Hears.keeps (h : x.Hears env ctx hs y) : x.fleet.Keeps y.fleet := by
  cases h with
  | gate _ => exact .gateAnswered _ _
  | canary _ => exact (Fleet.Keeps.resume _ _ _ _).trans (.landed _ _)
  | cooldown _ => exact .refl _
  | bulk _ _ => exact .resume _ _ _ _
  | retry _ _ => exact .resume _ _ _ _

theorem Course.keeps (h : Course env ctx x hs y) : x.fleet.Keeps y.fleet := by
  induction h with
  | here => exact .refl _
  | later _ _ ih => exact ih
  | act _ ha ih => exact ih.trans ha.keeps
  | hear _ hh ih => exact ih.trans hh.keeps

theorem Scene.Acts.orderly (h : x.Acts env ctx hs y) (ho : x.phase.Orderly x.fleet) :
    y.phase.Orderly y.fleet := by
  cases h with
  | start => rw [Scene.ofRun_fleet, Scene.ofRun_phase]; exact Fleet.IsNew.start ho _ _
  | canaryDue _ => rw [Scene.ofRun_fleet, Scene.ofRun_phase]; exact Fleet.Trying.next ho _ _ _
  | lead hl => exact Bulk.Orderly.lead ho (Bulk.leads_of_moved hl)
  | conclude hl =>
    obtain ⟨-, -, ha, rfl, -⟩ := Bulk.conclude_of_ended hl
    exact fun hu => Bulk.Orderly.atRest ho ha (Bulk.upgrade?_conclude _ _ ▸ hu)
  | overflow _ => trivial
  | takeOff ha _ => exact Bulk.Orderly.flies ho (Bulk.Orderly.flies_takeOff ho ha _ _)
  | account ha hl => exact Bulk.Orderly.accounts ho (Bulk.accounts ha hl)
  | again hover _ hr => exact Retry.Orderly.start (fun hu => ho.settled hover hu) hr
  | takeOffAgain ha _ => exact Retry.Orderly.flies ho (Retry.Orderly.flies_takeOff ho ha _ _)
  | accountAgain ha hl => exact Retry.Orderly.accounts ho (Retry.accounts ha hl)

theorem Scene.Hears.orderly (h : x.Hears env ctx hs y) (calm : env.Calm)
    (ho : x.phase.Orderly x.fleet) : y.phase.Orderly y.fleet := by
  cases h with
  | gate _ => exact Fleet.IsNew.answered ho _
  | canary he => exact Fleet.Trying.resumed ho _ (calm he)
  | cooldown _ => exact Fleet.Trying.bulk ho
  | bulk ha he => exact Bulk.Orderly.flies ho (Bulk.Orderly.flies_resume ho ha _ (calm he))
  | retry ha he => exact Retry.Orderly.flies ho (Retry.Orderly.flies_resume ho ha _ (calm he))

theorem Course.trans {z : Scene σ} (h : Course env ctx x hs y) (h' : Course env ctx y new z) :
    Course env ctx x (hs ++ new) z := by
  induction h' with
  | here => rw [List.append_nil]; exact h
  | later _ hp ih => exact .later ih hp
  | act _ ha ih => rw [← List.append_assoc]; exact .act ih ha
  | hear _ hh ih => rw [← List.append_assoc]; exact .hear ih hh

/-- Where no work crashes, everything is in order wherever a course comes to. -/
theorem Course.orderly (h : Course env ctx x hs y) (calm : env.Calm)
    (ho : x.phase.Orderly x.fleet) : y.phase.Orderly y.fleet := by
  induction h with
  | here => exact ho
  | later _ _ ih => exact ih
  | act _ ha ih => exact ha.orderly ih
  | hear _ hh ih => exact hh.orderly calm ih

end Courses

end Rollout
