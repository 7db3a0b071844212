import Mathlib.Data.List.Induction
import Mathlib.Logic.Basic
import Mathlib.Tactic.Push
import Rollout.Control.History
import Rollout.Proofs.Pool.Table

/-!
# The history of a table tells its pools

What a table says of a pool is what can be told from the operations on it and their answers.

* **Longer histories** (`standing_concat`, `lastMark?_concat`, `created_concat`): what one more
  operation changes in what is told.
* **Operations** (`Told.perform`): what is told of a pool stays right with each operation, by the
  cases of the operation. Most operations say nothing of a pool (`Logged.Silent`).
* **Runs** (`told_performAll`): so it is right after any operations, by induction.
-/

namespace Rollout

/-! ## Tables -/

namespace Pool

variable {p : Pool} {b : Backend}

theorem backends_add : (p.add b).backends = p.backends ++ [b] := by
  simp [add, backends]

theorem backends_drop : (p.drop b).backends = p.backends.filter (· != b) := by
  simp only [drop, backends, List.filter_map]
  rfl

theorem backends_mark (healthy : Bool) : (p.mark b healthy).backends = p.backends := by
  simp only [mark, backends, List.map_map]
  refine List.map_congr_left fun m _ => ?_
  simp only [Function.comp]
  split <;> rfl

/-- A mark for a backend that is no member changes nothing. -/
theorem mark_of_not_mem (h : b ∉ p.backends) (healthy : Bool) : p.mark b healthy = p := by
  have hmembers : (p.members.map fun m => if m.backend = b then { m with healthy } else m) =
      p.members := by
    refine (List.map_congr_left fun m hm => ?_).trans (List.map_id _)
    have hne : m.backend ≠ b := fun he => h (he ▸ List.mem_map_of_mem hm)
    exact if_neg hne
  rw [mark, hmembers]

end Pool

namespace Table

variable {t : Table} {pattern : String} {p : Pool}

theorem putIn_self {pools : List (String × Pool)} (h : pools.lookup pattern = some p) :
    putIn pattern p pools = pools := by
  induction pools with
  | nil => cases h
  | cons entry rest ih =>
    obtain ⟨name, q⟩ := entry
    rw [lookup_cons_eq] at h
    rw [putIn]
    by_cases hn : name = pattern
    · rw [if_pos hn.symm] at h
      obtain rfl := Option.some.inj h
      rw [if_pos hn]
    · rw [if_neg (Ne.symm hn)] at h
      rw [if_neg hn, ih h]

/-- Putting a pool where it stands changes nothing. -/
theorem put_self (h : t.pool? pattern = some p) : t.put pattern p = t := by
  rw [put, putIn_self h]

variable {t' : Table} {b : Backend}

/-- A pool is only added where there is none. -/
theorem addPool_eq_ok {type : PoolType} {checks : HealthChecks}
    (h : t.addPool pattern type checks = .ok t') :
    t.pool? pattern = none ∧ t' = t.put pattern ⟨type, checks, []⟩ := by
  unfold addPool at h
  split at h
  · cases h
  · rename_i hp
    exact ⟨hp, (Except.ok.inj h).symm⟩

/-- A backend is only added where it is no member. -/
theorem addBackend_eq_ok (h : t.addBackend pattern b = .ok t') :
    ∃ p, t.pool? pattern = some p ∧ b ∉ p.backends ∧ t' = t.put pattern (p.add b) := by
  unfold addBackend at h
  split at h
  · cases h
  · rename_i p hp
    split at h
    · cases h
    · rename_i hb
      exact ⟨p, hp, fun hmem => hb (Pool.has_iff.mpr hmem), (Except.ok.inj h).symm⟩

/-- A backend is only removed from a pool that is there. -/
theorem removeBackend_eq_ok (h : t.removeBackend pattern b = .ok t') :
    ∃ p, t.pool? pattern = some p ∧ t' = t.put pattern (p.drop b) := by
  unfold removeBackend at h
  split at h
  · cases h
  · rename_i p hp
    split at h
    · exact ⟨p, hp, (Except.ok.inj h).symm⟩
    · cases h

end Table

namespace Control

/-! ## Longer histories -/

section Longer

variable {pattern : String} {b : Backend} {e : Logged} {history : List Logged}

theorem created_concat :
    created pattern (history ++ [e]) = (created pattern history || e.creates pattern) := by
  simp [created]

/-- One more operation takes out what it touches and puts in what it inserts. -/
theorem standing_concat :
    standing pattern (history ++ [e]) =
      (standing pattern history).filter (fun b => !e.touches pattern b) ++ e.inserted pattern := by
  induction history with
  | nil => simp [standing]
  | cons e' later ih =>
    rw [List.cons_append, standing, standing, ih, List.filter_append, List.append_assoc,
      List.filter_filter]
    congr 1
    refine List.filter_congr fun b _ => ?_
    rw [List.all_append, Bool.and_comm]
    simp

theorem lastMark?_concat :
    lastMark? pattern b (history ++ [e]) =
      if (e.inserted pattern).contains b then none
      else (e.mark? pattern b).or (lastMark? pattern b history) := by
  rw [lastMark?, List.reverse_append, List.reverse_singleton, List.singleton_append]
  split
  · rename_i h
    rw [List.takeWhile_cons_of_neg (by simpa using h), List.findSome?_nil]
  · rename_i h
    rw [List.takeWhile_cons_of_pos (by simpa using h), List.findSome?_cons]
    cases e.mark? pattern b <;> rfl

/-- A backend stands where it was inserted and not touched since. -/
theorem mem_standing :
    b ∈ standing pattern history ↔
      ∃ before e later, history = before ++ e :: later ∧ b ∈ e.inserted pattern ∧
        ∀ e' ∈ later, e'.touches pattern b = false := by
  induction history with
  | nil => simp [standing]
  | cons e later ih =>
    rw [standing, List.mem_append, List.mem_filter, ih]
    constructor
    · rintro (⟨hb, hlater⟩ | ⟨before, e', later', rfl, h⟩)
      · refine ⟨[], e, later, rfl, hb, fun e' he' => ?_⟩
        simpa using List.all_eq_true.mp hlater e' he'
      · exact ⟨e :: before, e', later', rfl, h⟩
    · rintro ⟨before, e', later', heq, hb, hlater⟩
      cases before with
      | nil =>
        obtain ⟨rfl, rfl⟩ := List.cons.inj heq
        exact .inl ⟨hb, List.all_eq_true.mpr fun e' he' => by simp [hlater e' he']⟩
      | cons e'' before =>
        obtain ⟨rfl, rfl⟩ := List.cons.inj heq
        exact .inr ⟨before, e', later', rfl, hb, hlater⟩

end Longer

/-! ## What is told of a pool -/

/-- An operation that has nothing to tell of a pool: it creates none, moves no backend and marks
none. -/
structure Logged.Silent (e : Logged) (pattern : String) : Prop where
  creates : e.creates pattern = false
  inserted : e.inserted pattern = []
  clears : ∀ b, e.clears pattern b = false
  mark : ∀ b, e.mark? pattern b = none

/-- What a history tells of a pool is right. -/
def Told (pattern : String) (history : List Logged) : Option Pool → Prop
  | none => created pattern history = false ∧ standing pattern history = []
  | some p =>
    created pattern history = true ∧ p.backends = standing pattern history ∧ p.backends.Nodup ∧
      ∀ m ∈ p.members, m.healthy = (lastMark? pattern m.backend history != some false)

section Steps

variable {pattern : String} {e : Logged} {history : List Logged} {pool : Option Pool}

theorem Told.silent (h : Told pattern history pool) (he : e.Silent pattern) :
    Told pattern (history ++ [e]) pool := by
  have htouches : ∀ b, e.touches pattern b = false := by
    intro b
    simp [Logged.touches, he.inserted, he.clears b]
  have hcreated : created pattern (history ++ [e]) = created pattern history := by
    rw [created_concat, he.creates, Bool.or_false]
  have hstanding : standing pattern (history ++ [e]) = standing pattern history := by
    simp [standing_concat, htouches, he.inserted]
  have hmark : ∀ b, lastMark? pattern b (history ++ [e]) = lastMark? pattern b history := by
    intro b
    simp [lastMark?_concat, he.inserted, he.mark b]
  cases pool with
  | none =>
    rw [Told, hcreated, hstanding]
    exact h
  | some p =>
    simp only [Told, hcreated, hstanding, hmark]
    exact h

/-- An operation on another pool is silent. -/
theorem silent_of_ne {o : Operation} (h : pattern ≠ o.pattern) (answer : Except PoolError Answer) :
    Logged.Silent ⟨o, answer⟩ pattern := by
  have hbeq : (o.pattern == pattern) = false := beq_false_of_ne (Ne.symm h)
  have hne : ¬ o.pattern = pattern := Ne.symm h
  cases o with
  | seed name backends =>
    exact ⟨hbeq, if_neg hne, fun _ => hbeq, fun _ => rfl⟩
  | mark name b healthy =>
    exact ⟨rfl, rfl, fun _ => rfl, fun _ => if_neg fun h => hne h.1⟩
  | request r =>
    cases r with
    | poolHealth name => exact ⟨rfl, rfl, fun _ => rfl, fun _ => rfl⟩
    | addPool name type checks =>
      have hbeq : (name == pattern) = false := hbeq
      exact ⟨by simp [Logged.creates, hbeq], rfl, fun _ => rfl, fun _ => rfl⟩
    | addBackend name b =>
      have hbeq : (name == pattern) = false := hbeq
      exact ⟨rfl, by simp [Logged.inserted, hbeq], fun _ => rfl, fun _ => rfl⟩
    | removeBackend name b =>
      have hbeq : (name == pattern) = false := hbeq
      exact ⟨rfl, rfl, fun _ => by simp [Logged.clears, hbeq], fun _ => rfl⟩

/-- A request that is refused is silent. -/
theorem silent_of_error (r : Request) (error : PoolError) :
    Logged.Silent ⟨.request r, .error error⟩ pattern := by
  cases r <;> exact ⟨rfl, rfl, fun _ => rfl, fun _ => rfl⟩

/-- A pool is created without members. -/
theorem Told.addPool (h : Told pattern history none) (type : PoolType) (checks : HealthChecks)
    (a : Answer) :
    Told pattern (history ++ [⟨.request (.addPool pattern type checks), .ok a⟩])
      (some ⟨type, checks, []⟩) := by
  refine ⟨?_, ?_, List.nodup_nil, nofun⟩
  · simp [created_concat, Logged.creates, Except.isOk, Except.toBool]
  · rw [standing_concat, h.2]
    rfl

/-- A pool is seeded with members in place of those it had. -/
theorem Told.seed {backends : List Backend} (hdistinct : backends.Nodup) (a : Answer)
    (type : PoolType) (checks : HealthChecks) :
    Told pattern (history ++ [⟨.seed pattern backends, .ok a⟩])
      (some ⟨type, checks, backends.map fun b => ⟨b, true⟩⟩) := by
  have hinserted : Logged.inserted ⟨.seed pattern backends, .ok a⟩ pattern = backends := if_pos rfl
  have hbackends : Pool.backends ⟨type, checks, backends.map fun b => ⟨b, true⟩⟩ = backends := by
    rw [Pool.backends, List.map_map]
    exact List.map_id _
  refine ⟨?_, ?_, ?_, ?_⟩
  · simp [created_concat, Logged.creates]
  · rw [hbackends, standing_concat, hinserted]
    simp [Logged.touches, Logged.clears]
  · rw [hbackends]
    exact hdistinct
  · intro m hm
    obtain ⟨b, hb, rfl⟩ := List.mem_map.mp hm
    rw [lastMark?_concat, hinserted, if_pos (List.contains_iff_mem.mpr hb)]
    rfl

variable {p : Pool} {b : Backend}

/-- A backend that is no member is put behind the members, and counts as healthy. -/
theorem Told.add (h : Told pattern history (some p)) (hb : b ∉ p.backends) (a : Answer) :
    Told pattern (history ++ [⟨.request (.addBackend pattern b), .ok a⟩]) (some (p.add b)) := by
  obtain ⟨hcreated, hbackends, hdistinct, hhealthy⟩ := h
  have hinserted : Logged.inserted ⟨.request (.addBackend pattern b), .ok a⟩ pattern = [b] := by
    simp [Logged.inserted, Except.isOk, Except.toBool]
  refine ⟨?_, ?_, ?_, ?_⟩
  · rw [created_concat, hcreated, Bool.true_or]
  · have hkept : (standing pattern history).filter (fun b' =>
        !Logged.touches ⟨.request (.addBackend pattern b), .ok a⟩ pattern b') =
        standing pattern history := by
      refine List.filter_eq_self.mpr fun b' hb' => ?_
      have hne : b' ≠ b := fun he => hb (hbackends ▸ he ▸ hb')
      simp [Logged.touches, hinserted, Logged.clears, hne]
    rw [Pool.backends_add, standing_concat, hkept, hinserted, hbackends]
  · rw [Pool.backends_add]
    refine List.nodup_append.mpr ⟨hdistinct, by simp, fun b' hb' c hc he => ?_⟩
    rw [List.mem_singleton] at hc
    exact hb (hc ▸ he ▸ hb')
  · intro m hm
    rcases List.mem_append.mp hm with hm | hm
    · have hne : m.backend ≠ b := fun he => hb (he ▸ List.mem_map_of_mem hm)
      rw [hhealthy m hm, lastMark?_concat, hinserted, if_neg (by simpa using hne)]
      rfl
    · rw [List.mem_singleton.mp hm, lastMark?_concat, hinserted, if_pos (by simp)]
      rfl

/-- A member is taken out, and the others stay in order. -/
theorem Told.drop (h : Told pattern history (some p)) (a : Answer) :
    Told pattern (history ++ [⟨.request (.removeBackend pattern b), .ok a⟩]) (some (p.drop b)) := by
  obtain ⟨hcreated, hbackends, hdistinct, hhealthy⟩ := h
  have htouches : ∀ b', Logged.touches ⟨.request (.removeBackend pattern b), .ok a⟩ pattern b' =
      (b == b') := by
    intro b'
    simp [Logged.touches, Logged.inserted, Logged.clears, Except.isOk, Except.toBool]
  refine ⟨?_, ?_, ?_, ?_⟩
  · rw [created_concat, hcreated, Bool.true_or]
  · rw [Pool.backends_drop, standing_concat, hbackends]
    simp only [htouches]
    rw [show Logged.inserted ⟨.request (.removeBackend pattern b), .ok a⟩ pattern = [] from rfl,
      List.append_nil]
    refine List.filter_congr fun b' _ => ?_
    rw [bne, Bool.beq_comm]
  · rw [Pool.backends_drop]
    exact hdistinct.filter _
  · intro m hm
    rw [hhealthy m (List.mem_filter.mp hm).1, lastMark?_concat]
    rfl

/-- A mark sets the health of the member that it is for. -/
theorem Told.mark (h : Told pattern history (some p)) (healthy : Bool) (a : Answer) :
    Told pattern (history ++ [⟨.mark pattern b healthy, .ok a⟩]) (some (p.mark b healthy)) := by
  obtain ⟨hcreated, hbackends, hdistinct, hhealthy⟩ := h
  have htouches : ∀ b', Logged.touches ⟨.mark pattern b healthy, .ok a⟩ pattern b' = false :=
    fun _ => rfl
  have hinserted : Logged.inserted ⟨.mark pattern b healthy, .ok a⟩ pattern = [] := rfl
  refine ⟨?_, ?_, ?_, ?_⟩
  · rw [created_concat, hcreated, Bool.true_or]
  · simp only [Pool.backends_mark, standing_concat, htouches, hinserted, hbackends,
      List.append_nil]
    exact (List.filter_eq_self.mpr fun _ _ => rfl).symm
  · rw [Pool.backends_mark]
    exact hdistinct
  · intro m hm
    obtain ⟨m, hmem, rfl⟩ := List.mem_map.mp hm
    rw [lastMark?_concat, hinserted]
    by_cases hb : m.backend = b
    · rw [if_pos hb]
      cases healthy <;> simp [Logged.mark?, hb]
    · rw [if_neg hb, hhealthy m hmem]
      simp [Logged.mark?, Ne.symm hb]

end Steps

/-! ## Operations -/

/-- A change that is answered with success took place. -/
theorem Request.exists_of_settle {t : Table} {x : Except PoolError Table} {a : Answer}
    (h : (Request.perform.settle t x).1 = .ok a) :
    ∃ t', x = .ok t' ∧ (Request.perform.settle t x).2 = t' := by
  cases x with
  | error _ => cases h
  | ok t' => exact ⟨t', rfl, rfl⟩

namespace Operation

variable {t : Table}

theorem perform_health (pattern : String) :
    ((request (.poolHealth pattern)).perform t).2 = t := by
  show (Request.perform _ t).2 = t
  rw [Request.perform]
  split <;> rfl

/-- An operation that fails leaves the table as it was. -/
theorem perform_of_error {o : Operation} {e : PoolError} (h : (o.perform t).1 = .error e) :
    (o.perform t).2 = t := by
  have hsettle : ∀ {x : Except PoolError Table}, (Request.perform.settle t x).1 = .error e →
      (Request.perform.settle t x).2 = t := by
    intro x hx
    cases x with
    | error _ => rfl
    | ok _ => cases hx
  cases o with
  | seed | mark => cases h
  | request r =>
    cases r with
    | poolHealth pattern => exact perform_health pattern
    | addPool | addBackend | removeBackend => exact hsettle h

/-- A mark for a backend that is no member leaves the table as it was. -/
theorem perform_mark {pattern : String} {b : Backend} (h : b ∉ t.backends pattern)
    (healthy : Bool) : ((mark pattern b healthy).perform t).2 = t := by
  show t.mark pattern b healthy = t
  rw [Table.mark]
  split
  · rename_i p hp
    rw [Table.backends_of_pool? hp] at h
    rw [Pool.mark_of_not_mem h, Table.put_self hp]
  · rfl

section Success

variable {pattern : String} {b : Backend} {a : Answer}

theorem perform_addPool {type : PoolType} {checks : HealthChecks}
    (h : ((request (.addPool pattern type checks)).perform t).1 = .ok a) :
    t.pool? pattern = none ∧
      ((request (.addPool pattern type checks)).perform t).2 =
        t.put pattern ⟨type, checks, []⟩ := by
  obtain ⟨t', hok, ht⟩ := Request.exists_of_settle h
  obtain ⟨hp, rfl⟩ := Table.addPool_eq_ok hok
  exact ⟨hp, ht⟩

theorem perform_addBackend (h : ((request (.addBackend pattern b)).perform t).1 = .ok a) :
    ∃ p, t.pool? pattern = some p ∧ b ∉ p.backends ∧
      ((request (.addBackend pattern b)).perform t).2 = t.put pattern (p.add b) := by
  obtain ⟨t', hok, ht⟩ := Request.exists_of_settle h
  obtain ⟨p, hp, hb, rfl⟩ := Table.addBackend_eq_ok hok
  exact ⟨p, hp, hb, ht⟩

theorem perform_removeBackend (h : ((request (.removeBackend pattern b)).perform t).1 = .ok a) :
    ∃ p, t.pool? pattern = some p ∧
      ((request (.removeBackend pattern b)).perform t).2 = t.put pattern (p.drop b) := by
  obtain ⟨t', hok, ht⟩ := Request.exists_of_settle h
  obtain ⟨p, hp, rfl⟩ := Table.removeBackend_eq_ok hok
  exact ⟨p, hp, ht⟩

end Success

/-- An operation leaves the table as it was, or puts a pool under its own name. -/
theorem perform_cases (o : Operation) (t : Table) :
    (o.perform t).2 = t ∨ ∃ p, (o.perform t).2 = t.put o.pattern p := by
  cases o with
  | seed pattern backends => exact .inr ⟨_, rfl⟩
  | mark pattern b healthy =>
    rw [perform, Table.mark]
    split
    · exact .inr ⟨_, rfl⟩
    · exact .inl rfl
  | request r =>
    cases hanswer : (perform (.request r) t).1 with
    | error e => exact .inl (perform_of_error hanswer)
    | ok a =>
      cases r with
      | poolHealth pattern => exact .inl (perform_health pattern)
      | addPool pattern type checks => exact .inr ⟨_, (perform_addPool hanswer).2⟩
      | addBackend pattern b =>
        obtain ⟨p, -, -, ht⟩ := perform_addBackend hanswer
        exact .inr ⟨_, ht⟩
      | removeBackend pattern b =>
        obtain ⟨p, -, ht⟩ := perform_removeBackend hanswer
        exact .inr ⟨_, ht⟩

/-- An operation changes no pool but its own. -/
theorem pool?_perform_of_ne {o : Operation} {name : String} (h : name ≠ o.pattern) :
    (o.perform t).2.pool? name = t.pool? name := by
  rcases perform_cases o t with ht | ⟨p, ht⟩
  · rw [ht]
  · rw [ht, Table.pool?_put_of_ne h]

end Operation

section Tables

variable {pattern : String} {history : List Logged} {t : Table} {a : Answer}

/-- What is told of a pool stays right with a mark, whether or not there is the pool. -/
theorem Told.mark_table (h : Told pattern history (t.pool? pattern)) (b : Backend)
    (healthy : Bool) :
    Told pattern (history ++ [⟨.mark pattern b healthy, .ok a⟩])
      ((t.mark pattern b healthy).pool? pattern) := by
  cases hp : t.pool? pattern with
  | none =>
    rw [hp] at h
    rw [Table.mark, hp]
    show Told pattern _ (t.pool? pattern)
    rw [hp]
    exact ⟨by rw [created_concat, h.1]; rfl, by rw [standing_concat, h.2]; rfl⟩
  | some p =>
    rw [hp] at h
    rw [Table.mark, hp]
    show Told pattern _ ((t.put pattern _).pool? pattern)
    rw [Table.pool?_put_self]
    exact h.mark healthy a

/-- What is told of a pool stays right with a request that succeeds. -/
theorem Told.request {r : Request} (h : Told (Operation.request r).pattern history
      (t.pool? (Operation.request r).pattern))
    (hanswer : ((Operation.request r).perform t).1 = .ok a) :
    Told (Operation.request r).pattern (history ++ [⟨.request r, .ok a⟩])
      (((Operation.request r).perform t).2.pool? (Operation.request r).pattern) := by
  cases r with
  | poolHealth pattern =>
    rw [Operation.perform_health]
    exact h.silent ⟨rfl, rfl, fun _ => rfl, fun _ => rfl⟩
  | addPool pattern type checks =>
    obtain ⟨hp, ht⟩ := Operation.perform_addPool hanswer
    rw [Operation.pattern, hp] at h
    rw [ht, Operation.pattern, Table.pool?_put_self]
    exact h.addPool type checks a
  | addBackend pattern b =>
    obtain ⟨p, hp, hb, ht⟩ := Operation.perform_addBackend hanswer
    rw [Operation.pattern, hp] at h
    rw [ht, Operation.pattern, Table.pool?_put_self]
    exact h.add hb a
  | removeBackend pattern b =>
    obtain ⟨p, hp, ht⟩ := Operation.perform_removeBackend hanswer
    rw [Operation.pattern, hp] at h
    rw [ht, Operation.pattern, Table.pool?_put_self]
    exact h.drop a

end Tables

/-- What is told of the pools of a table stays right with an operation. -/
theorem Told.perform {history : List Logged} {t : Table}
    (h : ∀ pattern, Told pattern history (t.pool? pattern)) {o : Operation} (ho : o.Distinct)
    (pattern : String) :
    Told pattern (history ++ [⟨o, (o.perform t).1⟩]) ((o.perform t).2.pool? pattern) := by
  by_cases hname : pattern = o.pattern
  case neg =>
    rw [Operation.pool?_perform_of_ne hname]
    exact (h pattern).silent (silent_of_ne hname _)
  subst hname
  cases o with
  | seed pattern backends =>
    show Told pattern _ ((t.put pattern _).pool? pattern)
    rw [Table.pool?_put_self]
    exact Told.seed ho _ _ _
  | mark pattern b healthy => exact (h pattern).mark_table b healthy
  | request r =>
    cases hanswer : (Operation.perform (.request r) t).1 with
    | error e =>
      rw [Operation.perform_of_error hanswer]
      exact (h _).silent (silent_of_error r e)
    | ok a => exact (h _).request hanswer

/-! ## Runs -/

theorem performAll_concat (operations : List Operation) (o : Operation) :
    performAll (operations ++ [o]) =
      ((performAll operations).1 ++ [⟨o, (o.perform (performAll operations).2).1⟩],
        (o.perform (performAll operations).2).2) := by
  rw [performAll, List.foldl_append]
  rfl

/-- After any operations, what their history tells of the pools is right. -/
theorem told_performAll {operations : List Operation} (h : ∀ o ∈ operations, o.Distinct)
    (pattern : String) :
    Told pattern (performAll operations).1 ((performAll operations).2.pool? pattern) := by
  induction operations using List.reverseRecOn generalizing pattern with
  | nil => exact ⟨rfl, rfl⟩
  | append_singleton operations o ih =>
    rw [performAll_concat]
    exact Told.perform (ih fun o ho => h o (List.mem_append_left _ ho))
      (h o (List.mem_append_right _ List.mem_cons_self)) pattern

/-- The status of a pool, from what is told of it. -/
theorem Told.status {pattern : String} {history : List Logged} {p : Pool}
    (h : Told pattern history (some p)) :
    (p.status = .empty ↔ standing pattern history = []) ∧
      (p.status = .full ↔ standing pattern history ≠ [] ∧
        ∀ b ∈ standing pattern history, lastMark? pattern b history ≠ some false) ∧
      (p.status = .degraded ↔
        ∃ b ∈ standing pattern history, lastMark? pattern b history = some false) := by
  obtain ⟨-, hbackends, -, hhealthy⟩ := h
  have hempty : p.members.isEmpty = true ↔ standing pattern history = [] := by
    rw [← hbackends, Pool.backends, List.map_eq_nil_iff, List.isEmpty_iff]
  have hall : p.members.all (·.healthy) = true ↔
      ∀ b ∈ standing pattern history, lastMark? pattern b history ≠ some false := by
    rw [← hbackends, Pool.backends, List.all_eq_true, List.forall_mem_map]
    refine forall₂_congr fun m hm => ?_
    rw [hhealthy m hm, bne_iff_ne]
  have hany : (∃ b ∈ standing pattern history, lastMark? pattern b history = some false) ↔
      ¬ p.members.all (·.healthy) = true := by
    rw [hall]
    push Not
    rfl
  rw [Pool.status, hany, ← hempty, ← hall, Ne, ← hempty]
  by_cases hnone : p.members.isEmpty = true
  · have hhealthy : p.members.all (·.healthy) = true := by
      rw [List.isEmpty_iff.mp hnone]
      rfl
    simp [hnone, hhealthy]
  · by_cases hhealthy : p.members.all (·.healthy) = true
    · simp [hnone, hhealthy]
    · simp [hnone, hhealthy]

/-- **The history of a table tells its pools.** After any operations on a table without pools, a
pool is missing exactly when none of them created it. Else its members are the backends whose latest
insertion no later removal or new seed undid, each once and in the order of these insertions, and
its status is what their last marks since then make it. An operation that fails, or marks a backend
that is no member, leaves any table as it was, and no operation changes a pool but its own. -/
theorem history_tells (operations : List Operation) (h : ∀ o ∈ operations, o.Distinct)
    (pattern : String) :
    ((performAll operations).2.health pattern = .error (.poolNotFound pattern) ↔
      created pattern (performAll operations).1 = false) ∧
    (created pattern (performAll operations).1 = true → ∃ report,
      (performAll operations).2.health pattern = .ok report ∧
      report.backends = standing pattern (performAll operations).1 ∧ report.backends.Nodup ∧
      (∀ b, b ∈ report.backends ↔ ∃ before e later,
        (performAll operations).1 = before ++ e :: later ∧ b ∈ e.inserted pattern ∧
          ∀ e' ∈ later, e'.touches pattern b = false) ∧
      (report.status = .empty ↔ report.backends = []) ∧
      (report.status = .full ↔ report.backends ≠ [] ∧
        ∀ b ∈ report.backends, lastMark? pattern b (performAll operations).1 ≠ some false) ∧
      (report.status = .degraded ↔
        ∃ b ∈ report.backends, lastMark? pattern b (performAll operations).1 = some false)) ∧
    ∀ (t : Table) (o : Operation),
      (∀ e, (o.perform t).1 = .error e → (o.perform t).2 = t) ∧
      (∀ name b healthy, o = .mark name b healthy → b ∉ t.backends name → (o.perform t).2 = t) ∧
      ∀ name, name ≠ o.pattern → (o.perform t).2.pool? name = t.pool? name := by
  have htold := told_performAll h pattern
  refine ⟨?_, ?_, ?_⟩
  · rw [Table.health]
    cases hp : (performAll operations).2.pool? pattern with
    | none =>
      rw [hp] at htold
      exact iff_of_true rfl htold.1
    | some p =>
      rw [hp] at htold
      exact iff_of_false nofun (by rw [htold.1]; decide)
  · intro hcreated
    cases hp : (performAll operations).2.pool? pattern with
    | none =>
      rw [hp] at htold
      exact absurd (hcreated.symm.trans htold.1) (by decide)
    | some p =>
      rw [hp] at htold
      have hstatus := htold.status
      obtain ⟨-, hbackends, hdistinct, -⟩ := htold
      rw [← hbackends] at hstatus
      refine ⟨⟨p.status, p.backends⟩, by rw [Table.health, hp], hbackends, hdistinct, ?_, hstatus⟩
      intro b
      rw [show PoolHealth.backends ⟨p.status, p.backends⟩ = p.backends from rfl, hbackends]
      exact mem_standing
  · intro t o
    refine ⟨fun e he => Operation.perform_of_error he, ?_, fun name hname =>
      Operation.pool?_perform_of_ne hname⟩
    rintro name b healthy rfl hb
    exact Operation.perform_mark hb healthy

/-- A backend of version 4. -/
def site : Backend := ⟨.v4 ⟨10, 0, 0, 1⟩, 80⟩

/-- Another backend of version 4. -/
def otherSite : Backend := ⟨.v4 ⟨10, 0, 0, 2⟩, 80⟩

/-- Operations on a pool of two, one of which is marked, taken out and put in again, and then the
other is marked; a mark for a missing pool; and a removal that fails. -/
def someOperations : List Operation :=
  [.seed "/" [site, otherSite], .mark "/" site false, .request (.removeBackend "/" site),
    .request (.addBackend "/" site), .mark "/" otherSite false, .mark "/x" site false,
    .request (.removeBackend "/x" site)]

theorem history_tells_returned :
    (∀ o ∈ someOperations, o.Distinct) ∧
      ∃ report, (performAll someOperations).2.health "/" = .ok report ∧
        report.backends = [otherSite, site] ∧ report.status = .degraded := by
  have hdistinct : ∀ o ∈ someOperations, o.Distinct := by
    intro o ho
    cases o with
    | seed pattern backends =>
      have hseed : Operation.seed pattern backends = .seed "/" [site, otherSite] := by
        simpa [someOperations] using ho
      cases hseed
      show [site, otherSite].Nodup
      decide
    | _ => trivial
  obtain ⟨report, hhealth, hbackends, -, -, -, -, hdegraded⟩ :=
    (history_tells someOperations hdistinct "/").2.1 (by decide)
  have hstanding : standing "/" (performAll someOperations).1 = [otherSite, site] := by decide
  rw [hstanding] at hbackends
  refine ⟨hdistinct, report, hhealth, hbackends, hdegraded.mpr ⟨otherSite, ?_, by decide⟩⟩
  rw [hbackends]
  exact List.mem_cons_self

end Control

end Rollout
