import Mathlib.Algebra.Group.Nat.Defs
import Rollout.Net.Spelling
import Rollout.Proofs.Text.Decimal

/-!
# Addresses are read as they are spelled

An address is read from each of its spellings and from nothing else, and its text is one of them.

* Version 4: an octet is read up to what is no digit (`Ipv4.octet?_eq_some_iff`), and four of them
  with points between them are the address (`Ipv4.take?_eq_some_iff`).
* Version 6: a group is read up to what is no hexadecimal digit (`Ipv6.group?_eq_some_iff`). What is
  taken for groups spells them (`Ipv6.takeGroups_sound`), and what spells groups is taken for them
  up to an end (`Ipv6.takeGroups_complete`); so for whole addresses (`Ipv6.read?_eq_some_iff`).
* `Ipv6.spells_text`: where two colons stand for zeros in a text, these are as many as are missing
  (`Ipv6.longestRun_spec`).
* `IpAddr.readChars?_eq_some_iff`: no spelling of one version is one of the other.
-/

namespace Rollout

open Text (Stops takeWhile_append_of_stops dropWhile_append_of_stops stops_dropWhile)

namespace Ipv4

variable {cs rest : List Char} {ip : Ipv4} {n : UInt8}

/-- An octet has one spelling. -/
theorem readOctet?_eq_some_iff : readOctet? cs = some n ↔ cs = Nat.toDigits 10 n.toNat := by
  unfold readOctet?
  constructor
  · intro h
    split at h
    · rename_i hcs
      obtain ⟨v, hv, rfl⟩ := Option.map_eq_some_iff.mp h
      obtain ⟨hread, hlt⟩ := Option.filter_eq_some_iff.mp hv
      obtain ⟨hne, hdigits, rfl⟩ := Text.Decimal.read?_eq_some_iff.mp hread
      rw [UInt8.toNat_ofNat_of_lt' (of_decide_eq_true hlt)]
      exact (Text.Decimal.toDigits_value hdigits hne hcs.2).symm
    · cases h
  · rintro rfl
    have hlt := n.toNat_lt
    have hlen : (Nat.toDigits 10 n.toNat).length ≤ 3 :=
      (Nat.length_toDigits_le_iff (by decide) (by decide)).mpr (by omega)
    have hzero : (Nat.toDigits 10 n.toNat).head? = some '0' →
        (Nat.toDigits 10 n.toNat).length = 1 := by
      intro h
      rw [Text.Decimal.head_toDigits (by decide) h]
      rfl
    rw [if_pos ⟨hlen, hzero⟩,
      Text.Decimal.read?_eq_some_iff.mpr (Text.Decimal.spells_toDigits n.toNat)]
    simp [Option.filter, show n.toNat < 256 from hlt]

/-- An octet is read up to what is no digit. -/
theorem octet?_eq_some_iff : octet? cs = some (n, rest) ↔
    cs = Nat.toDigits 10 n.toNat ++ rest ∧ Stops Char.isDigit rest := by
  unfold octet?
  constructor
  · intro h
    obtain ⟨m, hm, he⟩ := Option.map_eq_some_iff.mp h
    obtain ⟨rfl, rfl⟩ := Prod.mk.inj he
    rw [← readOctet?_eq_some_iff.mp hm, List.takeWhile_append_dropWhile]
    exact ⟨rfl, stops_dropWhile _ _⟩
  · rintro ⟨rfl, h⟩
    have hdigits : ∀ c ∈ Nat.toDigits 10 n.toNat, c.isDigit = true :=
      fun c hc => Text.Decimal.isDigit_toDigits hc
    rw [takeWhile_append_of_stops hdigits h, dropWhile_append_of_stops hdigits h,
      readOctet?_eq_some_iff.mpr rfl]
    rfl

theorem pointOctet?_eq_some_iff : pointOctet? cs = some (n, rest) ↔
    cs = '.' :: (Nat.toDigits 10 n.toNat ++ rest) ∧ Stops Char.isDigit rest := by
  unfold pointOctet?
  split
  · simp [octet?_eq_some_iff]
  · rename_i hcs
    refine ⟨nofun, fun h => absurd h.1 (hcs _)⟩

theorem toList_text (ip : Ipv4) : ip.text.toList =
    Nat.toDigits 10 ip.a.toNat ++ '.' :: (Nat.toDigits 10 ip.b.toNat ++ '.' ::
      (Nat.toDigits 10 ip.c.toNat ++ '.' :: Nat.toDigits 10 ip.d.toNat)) := by
  simp [text, Text.Decimal.text]

theorem stops_point (rest : List Char) : Stops Char.isDigit ('.' :: rest) := by
  intro c hc
  cases hc
  rfl

/-- An address is read up to what is no digit. -/
theorem take?_eq_some_iff :
    take? cs = some (ip, rest) ↔ cs = ip.text.toList ++ rest ∧ Stops Char.isDigit rest := by
  constructor
  · intro h
    obtain ⟨⟨a, cs₁⟩, ha, h⟩ := Option.bind_eq_some_iff.mp h
    obtain ⟨⟨b, cs₂⟩, hb, h⟩ := Option.bind_eq_some_iff.mp h
    obtain ⟨⟨c, cs₃⟩, hc, h⟩ := Option.bind_eq_some_iff.mp h
    obtain ⟨⟨d, cs₄⟩, hd, h⟩ := Option.bind_eq_some_iff.mp h
    cases h
    obtain ⟨rfl, -⟩ := octet?_eq_some_iff.mp ha
    obtain ⟨rfl, -⟩ := pointOctet?_eq_some_iff.mp hb
    obtain ⟨rfl, -⟩ := pointOctet?_eq_some_iff.mp hc
    obtain ⟨rfl, hrest⟩ := pointOctet?_eq_some_iff.mp hd
    exact ⟨by simp [toList_text], hrest⟩
  · rintro ⟨hcs, h⟩
    have htext : ip.text.toList ++ rest =
        Nat.toDigits 10 ip.a.toNat ++ '.' :: (Nat.toDigits 10 ip.b.toNat ++ '.' ::
          (Nat.toDigits 10 ip.c.toNat ++ '.' :: (Nat.toDigits 10 ip.d.toNat ++ rest))) := by
      simp [toList_text]
    rw [hcs, htext, take?, octet?_eq_some_iff.mpr ⟨rfl, stops_point _⟩]
    simp [pointOctet?_eq_some_iff.mpr ⟨rfl, stops_point _⟩, pointOctet?_eq_some_iff.mpr ⟨rfl, h⟩]

/-- What has no point behind its first digits is no address. -/
theorem take?_eq_none {cs : List Char} (h : (cs.dropWhile Char.isDigit).head? ≠ some '.') :
    take? cs = none := by
  rw [take?, octet?]
  cases readOctet? (cs.takeWhile Char.isDigit) with
  | none => rfl
  | some n =>
    have hpoint : pointOctet? (cs.dropWhile Char.isDigit) = none := by
      unfold pointOctet?
      split
      · rename_i heq
        rw [heq] at h
        exact absurd rfl h
      · rfl
    simp [hpoint]

/-- An address has one spelling. -/
theorem read?_eq_some_iff : read? cs = some ip ↔ cs = ip.text.toList := by
  unfold read?
  constructor
  · intro h
    obtain ⟨⟨ip', rest⟩, htake, h⟩ := Option.bind_eq_some_iff.mp h
    obtain ⟨hrest, he⟩ := Option.ite_none_right_eq_some.mp h
    obtain rfl := Option.some.inj he
    obtain ⟨hcs, -⟩ := take?_eq_some_iff.mp htake
    rw [hcs, List.isEmpty_iff.mp hrest, List.append_nil]
  · intro hcs
    have hread : cs = ip.text.toList ++ [] := by rw [hcs, List.append_nil]
    rw [take?_eq_some_iff.mpr ⟨hread, Text.stops_nil _⟩]
    rfl

/-- A text of an address has digits and points. -/
theorem of_mem_text {c : Char} (h : c ∈ ip.text.toList) : c.isDigit = true ∨ c = '.' := by
  rw [toList_text] at h
  simp only [List.mem_append, List.mem_cons] at h
  rcases h with h | h | h | h | h | h | h
  · exact .inl (Text.Decimal.isDigit_toDigits h)
  · exact .inr h
  · exact .inl (Text.Decimal.isDigit_toDigits h)
  · exact .inr h
  · exact .inl (Text.Decimal.isDigit_toDigits h)
  · exact .inr h
  · exact .inl (Text.Decimal.isDigit_toDigits h)

theorem colon_not_mem_text (ip : Ipv4) : ':' ∉ ip.text.toList := fun h => by
  rcases of_mem_text h with h | h
  · exact absurd h (by decide)
  · exact absurd h (by decide)

end Ipv4

namespace Ipv6

/-! ## Groups -/

variable {cs front rest digits : List Char} {ip : Ipv6} {g : UInt16} {gs : List UInt16}
  {octets first : Bool} {room : Nat}

theorem hexDigit_lt {c : Char} (h : isHexDigit c = true) : hexDigit c < 16 := by
  have hdigit : c.isDigit = true ↔ 48 ≤ c.toNat ∧ c.toNat ≤ 57 := by
    simp only [Char.isDigit, Bool.and_eq_true, decide_eq_true_eq]
    rfl
  have hle : ∀ a b : Char, a ≤ b ↔ a.toNat ≤ b.toNat := fun _ _ => Iff.rfl
  simp only [isHexDigit, hexDigit, hdigit, Bool.or_eq_true, Bool.and_eq_true, decide_eq_true_eq,
    hle, Char.reduceToNat] at h ⊢
  split
  · omega
  · split <;> omega

/-- Hexadecimal digits stand for less than as many can. -/
theorem foldl_hexDigit_lt (h : ∀ c ∈ digits, isHexDigit c = true) (n : Nat) :
    digits.foldl (fun n c => n * 16 + hexDigit c) n < (n + 1) * 16 ^ digits.length := by
  induction digits generalizing n with
  | nil => simp
  | cons c digits ih =>
    have hlt := hexDigit_lt (h c List.mem_cons_self)
    have hrest := ih (fun c hc => h c (List.mem_cons_of_mem _ hc)) (n * 16 + hexDigit c)
    refine Nat.lt_of_lt_of_le hrest ?_
    rw [List.length_cons, Nat.pow_succ', ← Nat.mul_assoc]
    exact Nat.mul_le_mul_right _ (by omega)

/-- A group is read up to what is no hexadecimal digit. -/
theorem group?_eq_some_iff : group? cs = some (g, rest) ↔
    ∃ digits, SpellsGroup digits g ∧ cs = digits ++ rest ∧ Stops isHexDigit rest := by
  unfold group?
  constructor
  · intro h
    simp only at h
    split at h
    · cases h
    · rename_i hcs
      simp only [Bool.or_eq_true, List.isEmpty_iff, decide_eq_true_eq, not_or, Nat.not_lt] at hcs
      obtain ⟨rfl, rfl⟩ := Prod.mk.inj (Option.some.inj h)
      refine ⟨_, ⟨hcs.1, hcs.2, List.all_eq_true.mp List.all_takeWhile, ?_⟩,
        List.takeWhile_append_dropWhile.symm, stops_dropWhile _ _⟩
      have hdigits := List.all_eq_true.mp (List.all_takeWhile (p := isHexDigit) (l := cs))
      have hlt := foldl_hexDigit_lt hdigits 0
      have hpow : 16 ^ (cs.takeWhile isHexDigit).length ≤ 16 ^ 4 :=
        Nat.pow_le_pow_right (by decide) hcs.2
      rw [UInt16.toNat_ofNat_of_lt' (by show _ < 65536; omega)]
  · rintro ⟨digits, ⟨hne, hlen, hdigits, hvalue⟩, rfl, h⟩
    rw [takeWhile_append_of_stops hdigits h, dropWhile_append_of_stops hdigits h]
    simp [hne, Nat.not_lt.mpr hlen, hvalue]

/-- Whether groups are at an end: what follows cannot go on with them, or begins with two colons. -/
def Ends (rest : List Char) : Prop :=
  (∀ c ∈ rest.head?, isHexDigit c = false ∧ c ≠ '.' ∧ c ≠ ':') ∨ ∃ tail, rest = ':' :: ':' :: tail

/-- What stands behind a group is none of its digits, and no point. -/
def Leaves (rest : List Char) : Prop := ∀ c ∈ rest.head?, isHexDigit c = false ∧ c ≠ '.'

theorem Leaves.colon (tail : List Char) : Leaves (':' :: tail) := by
  intro c hc
  cases hc
  exact ⟨by decide, by decide⟩

theorem Ends.leaves (h : Ends rest) : Leaves rest := by
  rcases h with h | ⟨tail, rfl⟩
  · exact fun c hc => ⟨(h c hc).1, (h c hc).2.1⟩
  · exact .colon _

theorem SpellsRest.leaves (h : SpellsRest front gs octets) (hrest : Ends rest) :
    Leaves (front ++ rest) := by
  cases h with
  | none => exact hrest.leaves
  | octets hip => exact .colon _
  | group hg hgs => exact .colon _

theorem Leaves.stops (h : Leaves rest) : Stops isHexDigit rest := fun c hc => (h c hc).1

theorem Leaves.stops_isDigit (h : Leaves rest) : Stops Char.isDigit rest := by
  intro c hc
  have hhex := (h c hc).1
  simp only [isHexDigit, Bool.or_eq_false_iff] at hhex
  exact hhex.1.1

/-- Groups are no octets, whatever their digits are. -/
theorem take?_digits (hdigits : ∀ c ∈ digits, isHexDigit c = true) (h : Leaves rest) :
    Ipv4.take? (digits ++ rest) = none := by
  refine Ipv4.take?_eq_none fun hpoint => ?_
  rw [List.dropWhile_append] at hpoint
  split at hpoint
  · cases rest with
    | nil => cases hpoint
    | cons c rest =>
      rw [List.dropWhile_cons_of_neg (by simp [h.stops_isDigit c rfl])] at hpoint
      exact (h c rfl).2 (Option.some.inj hpoint)
  · rename_i hne
    obtain ⟨c, cs, hcs⟩ := List.exists_cons_of_ne_nil (mt List.isEmpty_iff.mpr hne)
    rw [hcs] at hpoint
    obtain rfl := Option.some.inj hpoint
    have hmem : '.' ∈ digits.dropWhile Char.isDigit := by rw [hcs]; exact List.mem_cons_self
    exact absurd (hdigits _ (List.dropWhile_subset _ hmem)) (by decide)

/-! ## Taking groups -/

theorem separator?_first (cs : List Char) : separator? true cs = some cs := by
  cases cs <;> rfl

section Step

variable {after end_ : List Char} {ip : Ipv4}

/-- No group is taken where neither octets nor digits stand. -/
theorem takeGroups_stop (hsep : separator? first cs = some after)
    (hip : Ipv4.take? after = none) (hg : group? after = none) :
    takeGroups (room + 1) first cs = ([], false, cs) := by
  have hno : (if 0 < room then Ipv4.take? after else none) = none := by rw [hip]; split <;> rfl
  rw [takeGroups, hsep]
  simp only [hno, hg]

/-- Octets are taken where two groups have room. -/
theorem takeGroups_octets (hsep : separator? first cs = some after) (hroom : 0 < room)
    (hip : Ipv4.take? after = some (ip, rest)) :
    takeGroups (room + 1) first cs = (ip.groups, true, rest) := by
  rw [takeGroups, hsep]
  simp only [if_pos hroom, hip]

/-- One group is taken, and then those behind it. -/
theorem takeGroups_step (hsep : separator? first cs = some (digits ++ rest))
    (hg : SpellsGroup digits g) (hrest : Leaves rest)
    (hgroups : takeGroups room false rest = (gs, octets, end_)) :
    takeGroups (room + 1) first cs = (g :: gs, octets, end_) := by
  have hno : (if 0 < room then Ipv4.take? (digits ++ rest) else none) = none := by
    rw [take?_digits hg.digits hrest]
    split <;> rfl
  rw [takeGroups, hsep]
  simp only [hno, group?_eq_some_iff.mpr ⟨digits, hg, rfl, hrest.stops⟩, hgroups]

end Step

theorem takeGroups_end (h : Ends rest) (room : Nat) (first : Bool) :
    takeGroups room first rest = ([], false, rest) := by
  cases room with
  | zero => rfl
  | succ room =>
    have hgroup : ∀ tail : List Char, Leaves tail → group? tail = none := by
      intro tail htail
      refine Option.eq_none_iff_forall_ne_some.mpr fun ⟨g, rest⟩ hg => ?_
      obtain ⟨digits, hd, rfl, -⟩ := group?_eq_some_iff.mp hg
      obtain ⟨c, cs, rfl⟩ := List.exists_cons_of_ne_nil hd.nonempty
      have := (htail c rfl).1
      rw [hd.digits c List.mem_cons_self] at this
      cases this
    have hstop : ∀ tail : List Char, Leaves tail → separator? first rest = some tail →
        takeGroups (room + 1) first rest = ([], false, rest) := by
      intro tail htail hsep
      have hoctets : Ipv4.take? ([] ++ tail) = none := take?_digits nofun htail
      exact takeGroups_stop hsep hoctets (hgroup tail htail)
    cases first with
    | true => exact hstop rest h.leaves (separator?_first rest)
    | false =>
      rcases h with h | ⟨tail, rfl⟩
      · cases rest with
        | nil => rfl
        | cons c rest =>
          rw [takeGroups, separator?]
          simp [(h c rfl).2.2]
      · exact hstop _ (.colon tail) rfl

/-- What spells groups with a colon in front of each is taken for them, up to an end. -/
theorem takeGroups_rest (h : SpellsRest front gs octets) (hroom : gs.length ≤ room)
    (hrest : Ends rest) : takeGroups room false (front ++ rest) = (gs, octets, rest) := by
  induction h generalizing room with
  | none => exact takeGroups_end hrest room false
  | @octets cs ip hip =>
    obtain ⟨room, rfl⟩ : ∃ n, room = n + 2 := Nat.exists_eq_add_of_le' hroom
    have hsep : separator? false (':' :: cs ++ rest) = some (cs ++ rest) := rfl
    exact takeGroups_octets hsep (Nat.succ_pos _)
      (Ipv4.take?_eq_some_iff.mpr ⟨congrArg (· ++ rest) hip, hrest.leaves.stops_isDigit⟩)
  | @group digits tail g gs octets hg hgs ih =>
    obtain ⟨room, rfl⟩ : ∃ n, room = n + 1 :=
      Nat.exists_eq_add_one.mpr (Nat.lt_of_lt_of_le (Nat.succ_pos _) hroom)
    have hsep : separator? false (':' :: (digits ++ tail) ++ rest) =
        some (digits ++ (tail ++ rest)) := by
      rw [← List.append_assoc]
      rfl
    exact takeGroups_step hsep hg (hgs.leaves hrest) (ih (Nat.le_of_succ_le_succ hroom))

/-- What spells groups with colons between them is taken for them, up to an end. -/
theorem takeGroups_complete (h : SpellsGroups front gs octets) (hroom : gs.length ≤ room)
    (hrest : Ends rest) : takeGroups room true (front ++ rest) = (gs, octets, rest) := by
  rcases h with ⟨rfl, rfl, rfl⟩ | h
  · exact takeGroups_end hrest room true
  · cases h with
    | octets hip =>
      obtain ⟨room, rfl⟩ : ∃ n, room = n + 2 := Nat.exists_eq_add_of_le' hroom
      exact takeGroups_octets (separator?_first _) (Nat.succ_pos _)
        (Ipv4.take?_eq_some_iff.mpr ⟨congrArg (· ++ rest) hip, hrest.leaves.stops_isDigit⟩)
    | @group digits tail g gs octets hg hgs =>
      obtain ⟨room, rfl⟩ : ∃ n, room = n + 1 :=
        Nat.exists_eq_add_one.mpr (Nat.lt_of_lt_of_le (Nat.succ_pos _) hroom)
      rw [List.append_assoc]
      exact takeGroups_step (separator?_first _) hg (hgs.leaves hrest)
        (takeGroups_rest hgs (Nat.le_of_succ_le_succ hroom) hrest)

/-- Whether characters are groups, the first of which has a colon in front or has none. -/
def Leads : Bool → List Char → List UInt16 → Bool → Prop
  | true => SpellsGroups
  | false => SpellsRest

theorem Leads.none (first : Bool) : Leads first [] [] false := by
  cases first with
  | true => exact .inl ⟨rfl, rfl, rfl⟩
  | false => exact SpellsRest.none

/-- Groups behind a separator. -/
theorem Leads.of_separator {after : List Char} (hsep : separator? first cs = some after)
    (hafter : after = front ++ rest) (h : SpellsRest (':' :: front) gs octets) :
    ∃ front', cs = front' ++ rest ∧ Leads first front' gs octets := by
  cases first with
  | true =>
    rw [separator?_first] at hsep
    exact ⟨front, (Option.some.inj hsep).trans hafter, .inr h⟩
  | false =>
    cases cs with
    | nil => cases hsep
    | cons c cs =>
      simp only [separator?, Bool.false_eq_true, if_false, Option.ite_none_right_eq_some,
        Option.some.injEq] at hsep
      obtain ⟨rfl, rfl⟩ := hsep
      exact ⟨':' :: front, congrArg (':' :: ·) hafter, h⟩

/-- What is taken for groups spells them. -/
theorem takeGroups_sound (h : takeGroups room first cs = (gs, octets, rest)) :
    gs.length ≤ room ∧ ∃ front, cs = front ++ rest ∧ Leads first front gs octets := by
  induction room generalizing first cs gs with
  | zero =>
    cases h
    exact ⟨Nat.le_refl _, [], rfl, .none first⟩
  | succ room ih =>
    have hnone : (([], false, cs) : List UInt16 × Bool × List Char) = (gs, octets, rest) →
        gs.length ≤ room + 1 ∧ ∃ front, cs = front ++ rest ∧ Leads first front gs octets := by
      intro h
      cases h
      exact ⟨Nat.zero_le _, [], rfl, .none first⟩
    rw [takeGroups] at h
    split at h
    · exact hnone h
    · rename_i after hsep
      split at h
      · rename_i ip rest' hip
        obtain ⟨hroom, hip⟩ := Option.ite_none_right_eq_some.mp hip
        cases h
        obtain ⟨hafter, -⟩ := Ipv4.take?_eq_some_iff.mp hip
        exact ⟨Nat.succ_le_succ hroom, Leads.of_separator hsep hafter (.octets rfl)⟩
      · split at h
        · exact hnone h
        · rename_i g rest' hg
          obtain ⟨digits, hd, rfl, -⟩ := group?_eq_some_iff.mp hg
          generalize hgroups : takeGroups room false rest' = taken at h
          obtain ⟨gs', octets', rest''⟩ := taken
          cases h
          obtain ⟨hlen, front, rfl, hfront⟩ := ih hgroups
          exact ⟨Nat.succ_le_succ hlen,
            Leads.of_separator hsep (List.append_assoc _ _ _).symm (.group hd hfront)⟩

/-! ## Addresses -/

theorem ofGroups?_eq_some_iff : ofGroups? gs = some ip ↔ ip.groups.toList = gs := by
  unfold ofGroups?
  constructor
  · intro h
    split at h
    · cases h
      rfl
    · cases h
  · rintro rfl
    rw [dif_pos ip.groups.length_toList]
    rfl

/-- What is taken for an address spells it. -/
theorem take?_sound (h : take? cs = some (ip, rest)) : ∃ front, cs = front ++ rest ∧
    Spells front ip := by
  unfold take? at h
  generalize hfront : takeGroups 8 true cs = taken at h
  obtain ⟨before, octets, rest₁⟩ := taken
  obtain ⟨hlen, front, rfl, hbefore⟩ := takeGroups_sound hfront
  simp only at h
  split at h
  · obtain ⟨ip', hip, he⟩ := Option.map_eq_some_iff.mp h
    obtain ⟨rfl, rfl⟩ := Prod.mk.inj he
    rw [← ofGroups?_eq_some_iff.mp hip] at hbefore
    exact ⟨front, rfl, .full hbefore⟩
  · rename_i hne
    split at h
    · cases h
    · rename_i hoctets
      obtain rfl := Bool.not_eq_true _ ▸ hoctets
      split at h
      · rename_i rest₂
        generalize hback : takeGroups (7 - before.length) true rest₂ = taken at h
        obtain ⟨after, octets', rest₃⟩ := taken
        obtain ⟨hlen', back, rfl, hafter⟩ := takeGroups_sound hback
        obtain ⟨ip', hip, he⟩ := Option.map_eq_some_iff.mp h
        obtain ⟨rfl, rfl⟩ := Prod.mk.inj he
        refine ⟨front ++ ':' :: ':' :: back, by simp, .short hbefore hafter ?_
          (ofGroups?_eq_some_iff.mp hip)⟩
        show 0 < 8 - before.length - after.length
        omega
      · cases h

/-- What spells an address is taken for it, where nothing follows that could belong to it. -/
theorem take?_complete (h : Spells cs ip)
    (hrest : ∀ c ∈ rest.head?, isHexDigit c = false ∧ c ≠ '.' ∧ c ≠ ':') :
    take? (cs ++ rest) = some (ip, rest) := by
  cases h with
  | full h =>
    have hlen : ip.groups.toList.length = 8 := ip.groups.length_toList
    rw [take?, takeGroups_complete h (Nat.le_of_eq hlen) (.inl hrest)]
    simp only [hlen, if_true, ofGroups?_eq_some_iff.mpr rfl]
    rfl
  | @short front back before after _ count octets hbefore hafter hcount hgroups =>
    have hlen : before.length + count + after.length = 8 := by
      have := ip.groups.length_toList
      rw [hgroups, List.length_append, List.length_append, List.length_replicate] at this
      exact this
    have hfront : takeGroups 8 true (front ++ ':' :: ':' :: (back ++ rest)) =
        (before, false, ':' :: ':' :: (back ++ rest)) :=
      takeGroups_complete hbefore (by omega) (.inr ⟨back ++ rest, rfl⟩)
    have hback : takeGroups (7 - before.length) true (back ++ rest) = (after, octets, rest) :=
      takeGroups_complete hafter (by omega) (.inl hrest)
    have hmiddle : 8 - before.length - after.length = count := by omega
    rw [List.append_assoc, take?]
    simp only [List.cons_append, hfront, if_neg (show before.length ≠ 8 by omega), hback, hmiddle,
      ofGroups?_eq_some_iff.mpr hgroups, Bool.false_eq_true, if_false]
    rfl

/-- An address is read from its spellings. -/
theorem read?_eq_some_iff : read? cs = some ip ↔ Spells cs ip := by
  unfold read?
  constructor
  · intro h
    obtain ⟨⟨ip', rest⟩, htake, h⟩ := Option.bind_eq_some_iff.mp h
    obtain ⟨hrest, he⟩ := Option.ite_none_right_eq_some.mp h
    obtain rfl := Option.some.inj he
    obtain ⟨front, rfl, hfront⟩ := take?_sound htake
    rwa [List.isEmpty_iff.mp hrest, List.append_nil]
  · intro h
    have htake : take? (cs ++ []) = some (ip, []) := take?_complete h nofun
    rw [List.append_nil] at htake
    rw [htake]
    rfl

theorem SpellsRest.head_eq (h : SpellsRest front gs octets) (hgs : gs ≠ []) :
    ∃ tail, front = ':' :: tail := by
  cases h with
  | none => exact absurd rfl hgs
  | octets hip => exact ⟨_, rfl⟩
  | group hg hrest => exact ⟨_, rfl⟩

/-- No address of version 6 is spelled without a colon. -/
theorem Spells.colon_mem (h : Spells cs ip) : ':' ∈ cs := by
  cases h with
  | short => simp
  | full h =>
    have hlen : ip.groups.toList.length = 8 := ip.groups.length_toList
    generalize ip.groups.toList = gs at h hlen
    rcases h with ⟨-, rfl, -⟩ | h
    · cases hlen
    · cases h with
      | octets hip => cases hlen
      | @group digits tail g gs octets hg hgs =>
        obtain ⟨tail, rfl⟩ := hgs.head_eq (fun hnil => by rw [hnil] at hlen; cases hlen)
        simp

/-! ## Texts -/

/-- The digits of a group. -/
def hex (g : UInt16) : List Char := Nat.toDigits 16 g.toNat

/-- Groups with a colon in front of each. -/
def colonText (groups : List UInt16) : List Char := groups.flatMap fun g => ':' :: hex g

theorem toList_groupsText (g : UInt16) (groups : List UInt16) :
    (groupsText (g :: groups)).toList = hex g ++ colonText groups := by
  induction groups generalizing g with
  | nil => simp [groupsText, Text.Decimal.hexText, hex, colonText]
  | cons g' groups ih =>
    have hcons : groupsText (g :: g' :: groups) =
        Text.Decimal.hexText g.toNat ++ ":" ++ groupsText (g' :: groups) :=
      String.intercalate_cons_cons
    rw [hcons, String.toList_append, String.toList_append, ih g']
    simp [Text.Decimal.hexText, hex, colonText]

theorem isHexDigit_digitChar : ∀ d < 16, isHexDigit (Nat.digitChar d) = true := by decide

theorem hexDigit_digitChar : ∀ d < 16, hexDigit (Nat.digitChar d) = d := by decide

theorem isHexDigit_hex {g : UInt16} {c : Char} (h : c ∈ hex g) : isHexDigit c = true := by
  obtain ⟨d, hd, rfl⟩ := Text.Decimal.exists_of_mem_toDigits (by decide) h
  exact isHexDigit_digitChar d hd

theorem spells_hex (g : UInt16) : SpellsGroup (hex g) g where
  nonempty := Nat.toDigits_ne_nil
  length_le := (Nat.length_toDigits_le_iff (by decide) (by decide)).mpr g.toNat_lt
  digits _ hc := isHexDigit_hex hc
  value_eq := Text.Decimal.foldl_toDigits (by decide) hexDigit_digitChar _

theorem spells_colonText (gs : List UInt16) : SpellsRest (colonText gs) gs false := by
  induction gs with
  | nil => exact .none
  | cons g gs ih => exact .group (spells_hex g) ih

theorem spells_groupsText (gs : List UInt16) : SpellsGroups (groupsText gs).toList gs false := by
  cases gs with
  | nil => exact .inl ⟨rfl, rfl, rfl⟩
  | cons g gs =>
    rw [toList_groupsText]
    exact .inr (.group (spells_hex g) (spells_colonText gs))

/-- A run of zeros lies where it is said to lie. -/
theorem longestRun_spec (groups : List UInt16) (at_ : Nat) :
    ∃ before after : List UInt16, (longestRun groups at_).1 = at_ + before.length ∧
      groups = before ++ List.replicate (longestRun groups at_).2 0 ++ after := by
  induction groups generalizing at_ with
  | nil => exact ⟨[], [], rfl, rfl⟩
  | cons g groups ih =>
    rw [longestRun]
    split
    · refine ⟨[], (g :: groups).dropWhile (· = 0), rfl, ?_⟩
      have hzeros : (g :: groups).takeWhile (· = 0) =
          List.replicate (zeros (g :: groups)) 0 := by
        refine List.eq_replicate_iff.mpr ⟨rfl, fun x hx => ?_⟩
        exact of_decide_eq_true (List.all_eq_true.mp List.all_takeWhile x hx)
      rw [List.nil_append, ← hzeros, List.takeWhile_append_dropWhile]
    · obtain ⟨before, after, hstart, hgroups⟩ := ih (at_ + 1)
      refine ⟨g :: before, after, ?_, ?_⟩
      · rw [hstart, List.length_cons]
        omega
      · rw [List.cons_append, List.cons_append, ← hgroups]

theorem groups_ofGroups (high low : UInt16) : (Ipv4.ofGroups high low).groups = [high, low] := by
  have hsplit (g : UInt16) :
      UInt16.ofNat ((g >>> 8).toUInt8.toNat * 256 + g.toUInt8.toNat) = g := by
    apply UInt16.toNat_inj.mp
    have := g.toNat_lt
    simp [Nat.shiftRight_eq_div_pow]
    omega
  simp only [Ipv4.groups, Ipv4.ofGroups, hsplit]

/-- The three ways in which an address is written. -/
theorem text_cases (ip : Ipv6) :
    (∃ high low, ip.groups.toList = [0, 0, 0, 0, 0, 0xFFFF, high, low] ∧
      ip.text.toList = ':' :: ':' :: "ffff:".toList ++ (Ipv4.ofGroups high low).text.toList) ∨
    (∃ before after count, 0 < count ∧
      ip.groups.toList = before ++ List.replicate count 0 ++ after ∧
      ip.text.toList = (groupsText before).toList ++ ':' :: ':' :: (groupsText after).toList) ∨
    ip.text = groupsText ip.groups.toList := by
  unfold text
  split
  · rename_i high low h
    refine .inl ⟨high, low, h, ?_⟩
    rw [String.toList_append]
    rfl
  · obtain ⟨before, after, hstart, hgroups⟩ := longestRun_spec ip.groups.toList 0
    generalize longestRun ip.groups.toList 0 = run at hstart hgroups
    obtain ⟨start, count⟩ := run
    simp only [Nat.zero_add] at hstart hgroups ⊢
    split
    · refine .inr (.inl ⟨before, after, count, by omega, hgroups, ?_⟩)
      have htake : ip.groups.toList.take start = before := by
        rw [hgroups, hstart, List.append_assoc, List.take_left]
      have hdrop : ip.groups.toList.drop (start + count) = after := by
        have hlen : start + count = (before ++ List.replicate count 0).length := by
          rw [hstart, List.length_append, List.length_replicate]
        rw [hgroups, hlen, List.drop_left]
      rw [htake, hdrop, String.toList_append, String.toList_append, List.append_assoc]
      rfl
    · exact .inr (.inr rfl)

/-- The text of an address spells it. -/
theorem spells_text (ip : Ipv6) : Spells ip.text.toList ip := by
  rcases text_cases ip with
    ⟨high, low, h, htext⟩ | ⟨before, after, count, hcount, h, htext⟩ | htext
  · have hoctets : SpellsRest (':' :: (Ipv4.ofGroups high low).text.toList) [high, low] true := by
      rw [← groups_ofGroups high low]
      exact .octets rfl
    have hmapped : "ffff:".toList = hex 0xFFFF ++ [':'] := by decide
    rw [htext, hmapped, List.cons_append, List.cons_append, List.append_assoc]
    have hfront : SpellsGroups [] [] false := .inl ⟨rfl, rfl, rfl⟩
    have hback : SpellsGroups (hex 0xFFFF ++ ':' :: (Ipv4.ofGroups high low).text.toList)
        (0xFFFF :: [high, low]) true := .inr (.group (spells_hex 0xFFFF) hoctets)
    exact .short hfront hback (by decide : 0 < 5) h
  · rw [htext]
    exact .short (spells_groupsText before) (spells_groupsText after) hcount h
  · rw [htext]
    exact .full (spells_groupsText ip.groups.toList)

end Ipv6

namespace IpAddr

/-- An address is read from its spellings. -/
theorem readChars?_eq_some_iff {cs : List Char} {ip : IpAddr} :
    readChars? cs = some ip ↔ Spells cs ip := by
  unfold readChars?
  constructor
  · intro h
    split at h
    · rename_i ip' hip
      cases h
      rw [Ipv4.read?_eq_some_iff.mp hip]
      exact .v4 ip'
    · obtain ⟨ip', hip, rfl⟩ := Option.map_eq_some_iff.mp h
      exact .v6 (Ipv6.read?_eq_some_iff.mp hip)
  · intro h
    cases h with
    | v4 ip => rw [Ipv4.read?_eq_some_iff.mpr rfl]
    | @v6 cs ip h =>
      have hno : Ipv4.read? cs = none := by
        refine Option.eq_none_iff_forall_ne_some.mpr fun ip' hip => ?_
        have hcolon := h.colon_mem
        rw [Ipv4.read?_eq_some_iff.mp hip] at hcolon
        exact Ipv4.colon_not_mem_text ip' hcolon
      rw [hno, Ipv6.read?_eq_some_iff.mpr h]
      rfl

theorem spells_text (ip : IpAddr) : Spells ip.text.toList ip := by
  cases ip with
  | v4 ip => exact .v4 ip
  | v6 ip => exact .v6 ip.spells_text

/-- The text of an address is read back. -/
theorem read?_text (ip : IpAddr) : read? ip.text = some ip :=
  readChars?_eq_some_iff.mpr ip.spells_text

end IpAddr

end Rollout
