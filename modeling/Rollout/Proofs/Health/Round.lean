import Mathlib.Algebra.Order.BigOperators.Group.List
import Mathlib.Algebra.Order.Ring.Nat
import Mathlib.Data.List.Forall2
import Mathlib.Data.List.Induction
import Rollout.Health.Target
import Rollout.Proofs.Control.History
import Rollout.Proofs.Text.Utf8

/-!
# Rounds report health and nothing else

* **Rosters** (`Request.perform_congr`, `Table.roster_mark`): calls see no more of a table than its
  roster, apart from the health that they report, and marks leave the roster as it is.
* **Interleaving** (`Round.roster_happen`, `Round.roster_run`): whatever calls come between the
  probes of a round, the roster is what the calls alone make of it, by induction over the events.
* **A round without calls** (`Round.settles_probing`, `Round.settles_resume`,
  `Round.settles_visitPools`): the checks of a member, the members of a pool and the pools, each by
  induction, with what the round has still to do behind it.
-/

namespace Rollout

/-! ## Rosters -/

/-- Two pools with the same configuration and the same members in order. -/
def Pool.Alike (p p' : Pool) : Prop :=
  p.type = p'.type ∧ p.checks = p'.checks ∧ p.backends = p'.backends

namespace Table

variable {t t' : Table} {pattern name : String} {p p' : Pool} {b : Backend}

/-- Two entries with the same name whose pools are alike. -/
def EntryAlike (e e' : String × Pool) : Prop := e.1 = e'.1 ∧ e.2.Alike e'.2

theorem roster_eq_iff : t.roster = t'.roster ↔ List.Forall₂ EntryAlike t.pools t'.pools := by
  rw [roster, roster, ← List.forall₂_eq_eq_eq, List.forall₂_map_left_iff,
    List.forall₂_map_right_iff]
  simp only [Prod.mk.injEq]
  rfl

theorem lookup_alike {pools pools' : List (String × Pool)}
    (h : List.Forall₂ EntryAlike pools pools') (name : String) :
    (pools.lookup name = none ∧ pools'.lookup name = none) ∨
      ∃ p p', pools.lookup name = some p ∧ pools'.lookup name = some p' ∧ p.Alike p' := by
  induction h with
  | nil => exact .inl ⟨rfl, rfl⟩
  | @cons entry entry' rest rest' hentry hrest ih =>
    rw [lookup_cons_eq, lookup_cons_eq, hentry.1]
    split
    · exact .inr ⟨_, _, rfl, rfl, hentry.2⟩
    · exact ih

/-- Tables with the same roster have pools under the same names, and they are alike. -/
theorem pool?_alike (h : t.roster = t'.roster) (name : String) :
    (t.pool? name = none ∧ t'.pool? name = none) ∨
      ∃ p p', t.pool? name = some p ∧ t'.pool? name = some p' ∧ p.Alike p' :=
  lookup_alike (roster_eq_iff.mp h) name

theorem putIn_alike {pools pools' : List (String × Pool)}
    (h : List.Forall₂ EntryAlike pools pools') (hp : p.Alike p') :
    List.Forall₂ EntryAlike (putIn pattern p pools) (putIn pattern p' pools') := by
  induction h with
  | nil => exact .cons ⟨rfl, hp⟩ .nil
  | @cons entry entry' rest rest' hentry hrest ih =>
    rw [putIn, putIn, hentry.1]
    split
    · exact .cons ⟨rfl, hp⟩ hrest
    · exact .cons ⟨rfl, hentry.2⟩ ih

/-- Pools that are alike may be put in tables with the same roster. -/
theorem roster_put (h : t.roster = t'.roster) (hp : p.Alike p') :
    (t.put pattern p).roster = (t'.put pattern p').roster :=
  roster_eq_iff.mpr (putIn_alike (roster_eq_iff.mp h) hp)

/-- Marks leave the roster as it is. -/
@[simp]
theorem roster_mark (healthy : Bool) : (t.mark pattern b healthy).roster = t.roster := by
  unfold mark
  split
  · rename_i p hp
    have hput : (t.put pattern (p.mark b healthy)).roster = (t.put pattern p).roster :=
      roster_put rfl ⟨rfl, rfl, Pool.backends_mark healthy⟩
    rw [hput, put_self hp]
  · rfl

theorem config?_congr (h : t.roster = t'.roster) (name : String) :
    t.config? name = t'.config? name := by
  rcases pool?_alike h name with ⟨ht, ht'⟩ | ⟨p, p', ht, ht', htype, hchecks, -⟩
  · simp [config?, ht, ht']
  · simp [config?, ht, ht', htype, hchecks]

theorem backends_congr (h : t.roster = t'.roster) (name : String) :
    t.backends name = t'.backends name := by
  rcases pool?_alike h name with ⟨ht, ht'⟩ | ⟨p, p', ht, ht', -, -, hbackends⟩
  · simp [backends, ht, ht']
  · simp [backends, ht, ht', hbackends]

end Table

namespace Pool

variable {p p' : Pool}

theorem Alike.has (h : p.Alike p') (b : Backend) : p.has b = p'.has b := by
  rw [Bool.eq_iff_iff, has_iff, has_iff, h.2.2]

theorem Alike.add (h : p.Alike p') (b : Backend) : (p.add b).Alike (p'.add b) :=
  ⟨h.1, h.2.1, by rw [backends_add, backends_add, h.2.2]⟩

theorem Alike.drop (h : p.Alike p') (b : Backend) : (p.drop b).Alike (p'.drop b) :=
  ⟨h.1, h.2.1, by rw [backends_drop, backends_drop, h.2.2]⟩

end Pool

namespace Control

variable {t t' : Table}

/-- What an answer tells besides the health of a pool. -/
def Answer.told : Answer → Option (List Backend)
  | .health h => some h.backends
  | .done => none

theorem Request.settle_congr {x x' : Except PoolError Table} (h : t.roster = t'.roster)
    (hx : x.map Table.roster = x'.map Table.roster) :
    (perform.settle t x).2.roster = (perform.settle t' x').2.roster ∧
      (perform.settle t x).1.map Answer.told = (perform.settle t' x').1.map Answer.told := by
  cases x <;> cases x' <;> simp_all [Except.map, perform.settle]

/-- Calls see no more of a table than its roster, apart from the health of the members. -/
theorem Request.perform_congr (h : t.roster = t'.roster) (r : Request) :
    (r.perform t).2.roster = (r.perform t').2.roster ∧
      (r.perform t).1.map Answer.told = (r.perform t').1.map Answer.told := by
  cases r with
  | poolHealth pattern =>
    rcases Table.pool?_alike h pattern with ⟨ht, ht'⟩ | ⟨p, p', ht, ht', -, -, hbackends⟩
    · simp [perform, Table.health, ht, ht', h]
    · simp [perform, Table.health, ht, ht', h, Except.map, Answer.told, hbackends]
  | addPool pattern type checks =>
    refine settle_congr h ?_
    rcases Table.pool?_alike h pattern with ⟨ht, ht'⟩ | ⟨p, p', ht, ht', -⟩
    · simp [Table.addPool, ht, ht', Except.map,
        Table.roster_put h (p := ⟨type, checks, []⟩) ⟨rfl, rfl, rfl⟩]
    · simp [Table.addPool, ht, ht']
  | addBackend pattern b =>
    refine settle_congr h ?_
    rcases Table.pool?_alike h pattern with ⟨ht, ht'⟩ | ⟨p, p', ht, ht', hp⟩
    · simp [Table.addBackend, ht, ht']
    · simp only [Table.addBackend, ht, ht', hp.has b]
      split
      · rfl
      · simp [Except.map, Table.roster_put h (hp.add b)]
  | removeBackend pattern b =>
    refine settle_congr h ?_
    rcases Table.pool?_alike h pattern with ⟨ht, ht'⟩ | ⟨p, p', ht, ht', hp⟩
    · simp [Table.removeBackend, ht, ht']
    · simp only [Table.removeBackend, ht, ht', hp.has b]
      split
      · simp [Except.map, Table.roster_put h (hp.drop b)]
      · rfl

end Control

/-! ## Interleaving -/

namespace Round

open Control

variable {pattern : String} {checks : HealthChecks} {t : Table}

theorem roster_visitMembers (bs : List Backend) :
    (visitMembers pattern checks t bs).1.roster = t.roster := by
  induction bs generalizing t with
  | nil => rfl
  | cons b rest ih =>
    unfold visitMembers
    split
    · rw [ih, Table.roster_mark]
    · rfl

theorem roster_visitPools (interval : Option Duration) (patterns : List String) :
    (visitPools t interval patterns).1.roster = t.roster := by
  induction patterns generalizing t interval with
  | nil => rfl
  | cons pattern rest ih =>
    unfold visitPools
    split
    · exact ih _
    · rename_i type checks hconfig
      have hmembers : (visitMembers pattern checks t (t.backends pattern)).1.roster = t.roster :=
        roster_visitMembers _
      split
      · rename_i after hvisit
        rw [hvisit] at hmembers
        rw [ih, hmembers]
      · rename_i after b check later bs hvisit
        rw [hvisit] at hmembers
        exact hmembers

/-- The result of a probe leaves the roster as it is. -/
theorem roster_receive (p : PendingProbe) (result : ProbeResult) :
    (receive t p result).1.roster = t.roster := by
  have hconclude : ∀ healthy, (conclude t p healthy).1.roster = t.roster := by
    intro healthy
    have hmembers : (visitMembers p.pattern p.checks (t.mark p.pattern p.backend healthy)
        p.backends).1.roster = t.roster := by
      rw [roster_visitMembers, Table.roster_mark]
    unfold conclude
    split
    · rename_i after hvisit
      rw [hvisit] at hmembers
      rw [roster_visitPools, hmembers]
    · rename_i after b check later bs hvisit
      rw [hvisit] at hmembers
      exact hmembers
  unfold receive
  split
  · rfl
  · exact hconclude true
  · exact hconclude false

/-- An event changes the roster as its call does, if it is one. -/
theorem roster_happen {state : Table × Round} {t' : Table} (h : state.1.roster = t'.roster)
    (e : Event) : (happen state e).1.roster =
      (e.call?.elim t' fun r => (r.perform t').2).roster := by
  obtain ⟨t, round⟩ := state
  cases e with
  | call r => exact (r.perform_congr h).1
  | result result =>
    cases round with
    | probing p => exact (roster_receive p result).trans h
    | _ => exact h

/-- The roster behind any events is what their calls make of it. -/
theorem roster_run (t : Table) (events : List Event) :
    (events.foldl happen (start t)).1.roster =
      ((events.filterMap Event.call?).foldl (fun t r => (r.perform t).2) t).roster := by
  induction events using List.reverseRecOn with
  | nil => exact roster_visitPools _ _
  | append_singleton events e ih =>
    rw [List.foldl_append, List.filterMap_append, List.foldl_append]
    refine (roster_happen ih e).trans ?_
    cases e <;> rfl

end Round

/-! ## Truthful pools -/

section Truth

variable {targets : Targets} {limit : Duration} {t : Table} {pattern name : String} {p : Pool}

/-- The members of a pool are marked as healthy where they pass its checks, and only there. -/
def Table.Truthful (targets : Targets) (limit : Duration) (t : Table) (name : String) : Prop :=
  ∀ p, t.pool? name = some p → ∀ m ∈ p.members,
    m.healthy = targets.passes limit m.backend p.checks.checks

theorem Pool.members_foldl_mark (p : Pool) (healthy : Backend → Bool) (bs : List Backend) :
    (bs.foldl (fun p b => p.mark b (healthy b)) p).members =
      p.members.map fun m => if m.backend ∈ bs then ⟨m.backend, healthy m.backend⟩ else m := by
  induction bs generalizing p with
  | nil => simp
  | cons b rest ih =>
    rw [List.foldl_cons, ih, mark, List.map_map]
    refine List.map_congr_left fun m _ => ?_
    by_cases hb : m.backend = b
    · subst hb
      simp
    · simp [hb]

/-- The marks of the members of a pool, each for whether it passes checks. -/
def Table.marks (targets : Targets) (limit : Duration) (pattern : String)
    (checks : HealthChecks) (t : Table) (bs : List Backend) : Table :=
  bs.foldl (fun t b => t.mark pattern b (targets.passes limit b checks.checks)) t

theorem Table.roster_marks {checks : HealthChecks} (bs : List Backend) :
    (marks targets limit pattern checks t bs).roster = t.roster := by
  induction bs generalizing t with
  | nil => rfl
  | cons b rest ih => exact ih.trans (roster_mark _)

theorem Table.pool?_mark (b : Backend) (healthy : Bool) : (t.mark pattern b healthy).pool? name =
    if name = pattern then (t.pool? name).map (·.mark b healthy) else t.pool? name := by
  unfold mark
  by_cases hname : name = pattern
  · subst hname
    cases hp : t.pool? name with
    | none => simp [hp]
    | some p => simp [pool?_put_self]
  · rw [if_neg hname]
    split
    · exact pool?_put_of_ne hname
    · rfl

theorem Table.pool?_marks {checks : HealthChecks} (bs : List Backend) :
    (marks targets limit pattern checks t bs).pool? name =
      if name = pattern then
        (t.pool? name).map fun p =>
          bs.foldl (fun p b => p.mark b (targets.passes limit b checks.checks)) p
      else t.pool? name := by
  induction bs generalizing t with
  | nil => simp [marks]
  | cons b rest ih =>
    refine ih.trans ?_
    rw [pool?_mark]
    split <;> simp [Function.comp_def]

/-- Marks for all its members make a pool truthful, and the others stay as they are. -/
theorem Table.truthful_marks (hp : t.pool? pattern = some p)
    (h : name = pattern ∨ t.Truthful targets limit name) :
    (marks targets limit pattern p.checks t (t.backends pattern)).Truthful targets limit name := by
  intro p' hp' m hm
  rw [pool?_marks] at hp'
  by_cases hname : name = pattern
  · subst hname
    have hchecks : ∀ (bs : List Backend) (p : Pool) (healthy : Backend → Bool),
        (bs.foldl (fun p b => p.mark b (healthy b)) p).checks = p.checks := by
      intro bs
      induction bs with
      | nil => exact fun _ _ => rfl
      | cons b rest ih => exact fun p healthy => ih (p.mark b (healthy b)) healthy
    rw [if_pos rfl, hp, Option.map_some, Option.some.injEq] at hp'
    subst hp'
    rw [hchecks]
    rw [Pool.members_foldl_mark, backends_of_pool? hp] at hm
    obtain ⟨m, hmem, rfl⟩ := List.mem_map.mp hm
    have hb : m.backend ∈ p.backends := List.mem_map_of_mem hmem
    simp [hb]
  · rw [if_neg hname] at hp'
    exact h.resolve_left hname p' hp' m hm

end Truth

/-! ## A round without calls -/

namespace Round

variable {targets : Targets} {limit : Duration} {t after : Table} {sites : List Site}
  {wait : Duration}

theorem receive_of_ne {p : PendingProbe} {result : ProbeResult} (h : result ≠ .healthy) :
    receive t p result = conclude t p false := by
  cases result with
  | healthy => exact absurd rfl h
  | unhealthy | failed => rfl

/-- The round probes a member up to the first check that it fails, and notes whether it passes. -/
theorem settles_probing {p : PendingProbe}
    (h : Settles targets limit
      (conclude t p (targets.passes limit p.backend (p.check :: p.later))).1
      (conclude t p (targets.passes limit p.backend (p.check :: p.later))).2 sites after wait) :
    Settles targets limit t (.probing p)
      ((targets.asked limit p.backend (p.check :: p.later)).map
        (fun check => (p.pattern, p.backend, check)) ++ sites) after wait := by
  obtain ⟨pattern, checks, b, check, later, bs, patterns, interval⟩ := p
  have hfailed : ∀ {check : StatusCheck} {later : List StatusCheck},
      ¬ targets.probe limit b check = .healthy →
      targets.passes limit b (check :: later) = false ∧
        targets.asked limit b (check :: later) = [check] := by
    intro check later hcheck
    simp [Targets.passes, Targets.asked, hcheck]
  induction later generalizing check with
  | nil =>
    by_cases hcheck : targets.probe limit b check = .healthy
    · have hpasses : targets.passes limit b [check] = true := by simp [Targets.passes, hcheck]
      have hasked : targets.asked limit b [check] = [check] := by simp [Targets.asked]
      simp only [hpasses, hasked] at h ⊢
      refine .probing ?_
      simp only [hcheck]
      exact h
    · simp only [hfailed hcheck] at h ⊢
      refine .probing ?_
      simp only [receive_of_ne hcheck]
      exact h
  | cons next later ih =>
    by_cases hcheck : targets.probe limit b check = .healthy
    · have hpasses : targets.passes limit b (check :: next :: later) =
          targets.passes limit b (next :: later) := by
        simp [Targets.passes, hcheck]
      have hasked : targets.asked limit b (check :: next :: later) =
          check :: targets.asked limit b (next :: later) := by
        rw [Targets.asked, if_pos hcheck]
      simp only [hpasses, hasked] at h ⊢
      refine .probing ?_
      simp only [hcheck]
      exact ih next h
    · simp only [hfailed hcheck] at h ⊢
      refine .probing ?_
      simp only [receive_of_ne hcheck]
      exact h

/-- What a round does with the members of a pool that it has still to visit, and then with the other
pools. -/
def resume (t : Table) (pattern : String) (checks : HealthChecks) (interval : Option Duration)
    (patterns : List String) (bs : List Backend) : Table × Round :=
  match visitMembers pattern checks t bs with
  | (t, none) => visitPools t interval patterns
  | (t, some (backend, check, later, backends)) =>
    (t, .probing ⟨pattern, checks, backend, check, later, backends, patterns, interval⟩)

/-- The round visits the members of a pool in order, and marks each for whether it passes. -/
theorem settles_resume {pattern : String} {checks : HealthChecks} {interval : Option Duration}
    {patterns : List String} (bs : List Backend)
    (h : Settles targets limit
      (visitPools (Table.marks targets limit pattern checks t bs) interval patterns).1
      (visitPools (Table.marks targets limit pattern checks t bs) interval patterns).2
      sites after wait) :
    Settles targets limit (resume t pattern checks interval patterns bs).1
      (resume t pattern checks interval patterns bs).2
      (bs.flatMap (fun b => (targets.asked limit b checks.checks).map fun check =>
        (pattern, b, check)) ++ sites) after wait := by
  induction bs generalizing t with
  | nil => exact h
  | cons b rest ih =>
    have hrest := ih h
    cases hchecks : checks.checks with
    | nil =>
      have hvisit : resume t pattern checks interval patterns (b :: rest) =
          resume (t.mark pattern b true) pattern checks interval patterns rest := by
        rw [resume, visitMembers, hchecks]
        rfl
      rw [hvisit]
      simpa [hchecks, Targets.passes, Targets.asked] using hrest
    | cons check later =>
      have hvisit : resume t pattern checks interval patterns (b :: rest) =
          (t, .probing ⟨pattern, checks, b, check, later, rest, patterns, interval⟩) := by
        rw [resume, visitMembers, hchecks]
      rw [hvisit, List.flatMap_cons, List.append_assoc]
      simp only [hchecks] at hrest
      exact settles_probing hrest

/-- The interval that is left of several pools, and of one that was found before. -/
def shortest (interval : Option Duration) (configs : List (PoolType × HealthChecks)) :
    Option Duration :=
  configs.foldl (fun interval config => some (shorter interval (intervalOf config.2))) interval

/-- The round visits the pools in order, and leaves them truthful. The table may have other marks
than `t₀`, which tells the pools, their checks and their members. -/
theorem settles_visitPools (targets : Targets) (limit : Duration) {t₀ : Table}
    (patterns : List String) {t : Table} (h : t.roster = t₀.roster) (interval : Option Duration) :
    ∃ after, Settles targets limit (visitPools t interval patterns).1
        (visitPools t interval patterns).2
        (patterns.flatMap fun pattern => (t₀.backends pattern).flatMap fun b =>
          (targets.asked limit b (t₀.checksOf pattern)).map fun check => (pattern, b, check))
        after ((shortest interval (patterns.filterMap t₀.config?)).getD idleInterval) ∧
      after.roster = t₀.roster ∧
      ∀ name, name ∈ patterns ∨ t.Truthful targets limit name →
        after.Truthful targets limit name := by
  induction patterns generalizing t interval with
  | nil => exact ⟨t, .ended t _, h, fun name hname => hname.resolve_left (by simp)⟩
  | cons pattern rest ih =>
    have hconfig := Table.config?_congr h pattern
    have hbackends := Table.backends_congr h pattern
    cases hp : t.pool? pattern with
    | none =>
      have hnone : t.config? pattern = none := by simp [Table.config?, hp]
      have hvisit : visitPools t interval (pattern :: rest) = visitPools t interval rest := by
        rw [visitPools, hnone]
      obtain ⟨after, hsettles, hroster, htruth⟩ := ih h interval
      refine ⟨after, ?_, hroster, fun name hname => htruth name ?_⟩
      · have hempty : t₀.backends pattern = [] := by rw [← hbackends]; simp [Table.backends, hp]
        rw [hvisit, List.flatMap_cons, hempty, List.filterMap_cons, ← hconfig, hnone]
        exact hsettles
      · rcases hname with hname | hname
        · rcases List.mem_cons.mp hname with rfl | hname
          · exact .inr fun p' hp' => by simp [hp] at hp'
          · exact .inl hname
        · exact .inr hname
    | some p =>
      have hsome : t.config? pattern = some (p.type, p.checks) := by simp [Table.config?, hp]
      have hvisit : visitPools t interval (pattern :: rest) =
          resume t pattern p.checks (some (shorter interval (intervalOf p.checks))) rest
            (t.backends pattern) := by
        rw [visitPools, hsome]
        rfl
      have hmarks : (Table.marks targets limit pattern p.checks t (t.backends pattern)).roster =
          t₀.roster := (Table.roster_marks _).trans h
      obtain ⟨after, hsettles, hroster, htruth⟩ :=
        ih hmarks (some (shorter interval (intervalOf p.checks)))
      refine ⟨after, ?_, hroster, fun name hname => htruth name ?_⟩
      · have hchecks : t₀.checksOf pattern = p.checks.checks := by
          rw [Table.checksOf, ← hconfig, hsome]
          rfl
        rw [hvisit, List.flatMap_cons, List.filterMap_cons, ← hconfig, hsome, ← hbackends, hchecks]
        exact settles_resume _ hsettles
      · by_cases hrest : name ∈ rest
        · exact .inl hrest
        · refine .inr (Table.truthful_marks hp (hname.imp_left fun hname => ?_))
          exact (List.mem_cons.mp hname).resolve_right hrest

/-- A round among targets that answer at once ends as it settles, within enough steps. -/
theorem finish_of_settles {r : Round} (h : Settles targets limit t r sites after wait) {fuel : Nat}
    (hfuel : sites.length < fuel) :
    finish (fun p => targets.probe limit p.backend p.check) fuel t r = (after, wait) := by
  induction h generalizing fuel with
  | ended t wait =>
    obtain ⟨fuel, rfl⟩ := Nat.exists_eq_succ_of_ne_zero (Nat.ne_zero_of_lt hfuel)
    rfl
  | @probing t after p sites wait rest ih =>
    obtain ⟨fuel, rfl⟩ := Nat.exists_eq_succ_of_ne_zero (Nat.ne_zero_of_lt hfuel)
    rw [List.length_cons] at hfuel
    exact ih (by omega)

theorem length_asked (b : Backend) (checks : List StatusCheck) :
    (targets.asked limit b checks).length ≤ checks.length := by
  induction checks with
  | nil => simp [Targets.asked]
  | cons check later ih =>
    unfold Targets.asked
    split <;> simp_all

theorem shorter_ofSecs (n m : Nat) :
    shorter (some (.ofSecs n)) (.ofSecs m) = .ofSecs (min n m) := by
  have hle : (Duration.ofSecs n).nanos ≤ (Duration.ofSecs m).nanos ↔ n ≤ m :=
    Nat.mul_le_mul_right_iff (by decide)
  show (if (Duration.ofSecs n).nanos ≤ (Duration.ofSecs m).nanos then Duration.ofSecs n
    else .ofSecs m) = _
  by_cases h : n ≤ m
  · rw [if_pos (hle.mpr h), Nat.min_eq_left h]
  · rw [if_neg (mt hle.mp h), Nat.min_eq_right (by omega)]

theorem shortest_some (n : Nat) (configs : List (PoolType × HealthChecks)) :
    shortest (some (.ofSecs n)) configs =
      some (.ofSecs
        ((configs.map fun config => max 1 config.2.intervalSecs.toNat).foldl min n)) := by
  induction configs generalizing n with
  | nil => rfl
  | cons config rest ih =>
    rw [shortest, List.foldl_cons, intervalOf, shorter_ofSecs, Nat.max_comm]
    exact ih _

/-- The wait for the next round is the least interval of the pools, and five seconds without
pools. -/
theorem getD_shortest (configs : List (PoolType × HealthChecks)) :
    (shortest none configs).getD idleInterval =
      .ofSecs ((configs.map fun config => max 1 config.2.intervalSecs.toNat).min?.getD 5) := by
  cases configs with
  | nil => rfl
  | cons config rest =>
    have hfirst : shorter none (intervalOf config.2) =
        .ofSecs (max 1 config.2.intervalSecs.toNat) := by
      rw [shorter, intervalOf, Nat.max_comm]
    rw [shortest, List.foldl_cons, hfirst]
    refine (congrArg (Option.getD · idleInterval) (shortest_some _ rest)).trans ?_
    rw [List.map_cons, List.min?_cons']
    rfl

end Round

/-! ## Names -/

namespace Table

variable {t : Table} {pattern : String} {p : Pool}

theorem lookup_of_nodup {pools : List (String × Pool)} (h : (pools.map Prod.fst).Nodup)
    {entry : String × Pool} (hentry : entry ∈ pools) : pools.lookup entry.1 = some entry.2 := by
  induction pools with
  | nil => simp at hentry
  | cons first rest ih =>
    rw [List.map_cons, List.nodup_cons] at h
    rw [lookup_cons_eq]
    rcases List.mem_cons.mp hentry with rfl | hrest
    · rw [if_pos rfl]
    · have hne : entry.1 ≠ first.1 := by
        intro hname
        exact h.1 (hname ▸ List.mem_map_of_mem hrest)
      rw [if_neg hne, ih h.2 hrest]

theorem mem_patterns (h : t.pool? pattern = some p) : pattern ∈ t.patterns := by
  rw [patterns, List.mem_mergeSort]
  unfold pool? at h
  generalize t.pools = pools at h ⊢
  induction pools with
  | nil => simp at h
  | cons entry rest ih =>
    rw [lookup_cons_eq] at h
    split at h
    · rename_i hname
      simp [hname]
    · exact List.mem_cons_of_mem _ (ih h)

theorem pairwise_patterns : t.patterns.Pairwise (· ≤ ·) := by
  have hsorted : t.patterns.Pairwise (fun a b => decide (a ≤ b) = true) := List.pairwise_mergeSort
    (fun a b c hab hbc => by simp_all; exact String.le_trans hab hbc)
    (fun a b => by simpa using String.le_total a b) (t.pools.map Prod.fst)
  exact hsorted.imp (by simp)

theorem perm_patterns : t.patterns.Perm (t.pools.map Prod.fst) := List.mergeSort_perm _ _

end Table

namespace Round

open Control

variable {targets : Targets} {limit : Duration} {t : Table}

theorem bound_eq (t : Table) : bound t =
    (t.pools.map fun (_, p) => p.members.length * (p.checks.checks.length + 1)).sum + 1 := by
  have hfoldl : ∀ (pools : List (String × Pool)) (n : Nat),
      pools.foldl (fun n (_, p) => n + p.members.length * (p.checks.checks.length + 1)) n =
        (pools.map fun (_, p) => p.members.length * (p.checks.checks.length + 1)).sum + n := by
    intro pools
    induction pools with
    | nil => simp
    | cons entry rest ih =>
      obtain ⟨name, p⟩ := entry
      intro n
      rw [List.foldl_cons, ih, List.map_cons, List.sum_cons]
      simp only []
      omega
  exact hfoldl _ _

/-- A round makes fewer probes than its bound. -/
theorem length_plan (h : (t.pools.map Prod.fst).Nodup) :
    (plan targets limit t).length < bound t := by
  rw [bound_eq, plan, List.length_flatMap, (t.perm_patterns.map _).sum_eq, List.map_map]
  refine Nat.lt_succ_of_le (List.sum_le_sum fun entry hentry => ?_)
  have hp : t.pool? entry.1 = some entry.2 := Table.lookup_of_nodup h hentry
  have hchecks : t.checksOf entry.1 = entry.2.checks.checks := by
    simp [Table.checksOf, Table.config?, hp]
  have hmember : ∀ n ∈ entry.2.backends.map fun b =>
      ((targets.asked limit b entry.2.checks.checks).map fun check =>
        ((entry.1, b, check) : Site)).length, n ≤ entry.2.checks.checks.length + 1 := by
    intro n hn
    obtain ⟨b, -, rfl⟩ := List.mem_map.mp hn
    have hasked := @length_asked targets limit b entry.2.checks.checks
    rw [List.length_map]
    omega
  have hsum := List.sum_le_card_nsmul _ _ hmember
  simpa [List.length_flatMap, hchecks, Table.backends_of_pool? hp, Pool.backends] using hsum

/-- A check is passed by a whole answer in time, with any status, that is a text and, without the
blanks around it, one of the expected values. -/
theorem probe_eq_healthy {b : Backend} {check : StatusCheck} :
    targets.probe limit b check = .healthy ↔
      ∃ time status text, targets b check.urlPath = .answers time status (Text.Utf8.bytes text) ∧
        time.nanos ≤ limit.nanos ∧ Text.trim text ∈ check.healthyValues := by
  have haccepts : ∀ body, Probe.accepts check.healthyValues body = true ↔
      ∃ text, body = Text.Utf8.bytes text ∧ Text.trim text ∈ check.healthyValues := by
    intro body
    simp only [← Text.Utf8.text?_eq_some, Probe.accepts]
    split <;> simp_all
  cases hfate : targets b check.urlPath with
  | answers time status body =>
    by_cases htime : time.nanos ≤ limit.nanos
    · simp [Targets.probe, hfate, Fate.within, Probe.verdict, htime, haccepts]
    · simp [Targets.probe, hfate, Fate.within, Probe.verdict, htime]
  | fails time reason =>
    by_cases htime : time.nanos ≤ limit.nanos
    · simp [Targets.probe, hfate, Fate.within, Probe.verdict, htime]
    · simp [Targets.probe, hfate, Fate.within, Probe.verdict, htime]
  | hangs => simp [Targets.probe, hfate, Fate.within, Probe.verdict]

/-- **A round reports health truthfully and touches nothing else.** Whatever calls come between its
probes, and whatever these result in, the pools with their configuration and their members are what
the calls alone make of them, and a next call is answered as without the round, but for the health
of a pool.

Without calls, and with targets that answer each path in one way, the round makes the probes of its
plan and ends. Then the members that pass all checks of their pool are healthy, and only they. The
wait for the next round is the least interval of the pools, a second at least, and five seconds
without pools. -/
theorem round_truthful :
    (∀ (t : Table) (events : List Event),
      (events.foldl happen (start t)).1.roster =
        ((events.filterMap Event.call?).foldl (fun t r => (r.perform t).2) t).roster ∧
      ∀ r : Request, (r.perform (events.foldl happen (start t)).1).1.map Answer.told =
        (r.perform ((events.filterMap Event.call?).foldl (fun t r => (r.perform t).2) t)).1.map
          Answer.told) ∧
    ∀ (targets : Targets) (limit : Duration) (t : Table), ∃ after wait,
      Settles targets limit (start t).1 (start t).2 (plan targets limit t) after wait ∧
      ((t.pools.map Prod.fst).Nodup →
        run (fun p => targets.probe limit p.backend p.check) t = (after, wait)) ∧
      after.roster = t.roster ∧
      (∀ pattern p, after.pool? pattern = some p → ∀ m ∈ p.members,
        (m.healthy = true ↔ ∀ check ∈ p.checks.checks, ∃ time status text,
          targets m.backend check.urlPath = .answers time status (Text.Utf8.bytes text) ∧
            time.nanos ≤ limit.nanos ∧ Text.trim text ∈ check.healthyValues)) ∧
      t.patterns.Perm (t.pools.map Prod.fst) ∧ t.patterns.Pairwise (· ≤ ·) ∧
      wait = .ofSecs (((t.patterns.filterMap t.config?).map fun config =>
        max 1 config.2.intervalSecs.toNat).min?.getD 5) := by
  refine ⟨fun t events => ⟨roster_run t events, fun r =>
    (r.perform_congr (roster_run t events)).2⟩, fun targets limit t => ?_⟩
  obtain ⟨after, hsettles, hroster, htruth⟩ := settles_visitPools targets limit t.patterns rfl none
  refine ⟨after, _, hsettles, fun hnames => ?_, hroster, fun pattern p hp m hm => ?_,
    t.perm_patterns, t.pairwise_patterns, getD_shortest _⟩
  · exact finish_of_settles hsettles (length_plan hnames)
  · have hpattern : pattern ∈ t.patterns := by
      rcases Table.pool?_alike hroster pattern with ⟨hafter, -⟩ | ⟨p', q, -, ht, -⟩
      · simp [hafter] at hp
      · exact Table.mem_patterns ht
    rw [htruth pattern (.inl hpattern) p hp m hm, Targets.passes, List.all_eq_true]
    simp only [beq_iff_eq, probe_eq_healthy]

/-- A pool of two with two checks. -/
def checkedTable : Table :=
  ⟨[("/", ⟨.twoChoices, ⟨[⟨"/live", ["ok"]⟩, ⟨"/ready", ["ok", "OK"]⟩], 7⟩,
    [⟨site, false⟩, ⟨otherSite, true⟩]⟩)]⟩

/-- One of them answers in time, the other does not. -/
def someTargets : Targets := fun b _ =>
  if b = site then .answers (.ofSecs 1) 503 (Text.Utf8.bytes " ok\n") else .hangs

theorem round_truthful_checkedTable :
    (checkedTable.pools.map Prod.fst).Nodup ∧ ∃ after,
      run (fun p => someTargets.probe (.ofSecs 1) p.backend p.check) checkedTable =
        (after, .ofSecs 7) ∧ after.roster = checkedTable.roster := by
  have hnames : (checkedTable.pools.map Prod.fst).Nodup := by decide
  obtain ⟨after, wait, -, hrun, hroster, -, -, -, hwait⟩ :=
    round_truthful.2 someTargets (.ofSecs 1) checkedTable
  have hpatterns : checkedTable.patterns = ["/"] := List.mergeSort_singleton _
  rw [hpatterns] at hwait
  obtain rfl : wait = .ofSecs 7 := hwait
  exact ⟨hnames, after, hrun hnames, hroster⟩

end Round

end Rollout
