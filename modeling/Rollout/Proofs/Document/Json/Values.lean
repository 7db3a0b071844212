import Rollout.Document.Edit
import Rollout.Document.Json
import Rollout.Proofs.Document.Json.Strings
import Rollout.Proofs.Text.Decimal
import Rollout.Proofs.Text.Utf8

/-!
# JSON values are read back

A value that was written on one line is read as the value.

* `parsed` is what a reader makes of a value without doubles (`Value.Whole`): the integers that
  sixty-four bits do not hold are doubles to it, or too large. The values that a reader gets back as
  they were are `Value.Exact`: their integers are natural numbers of sixty-four bits.
* `takeNumber_digits`: the digits of a number are read as the number, where the text behind them
  does not go on with it.
* `takeValue_compact`: a value is read, and nothing of what stands behind it, by induction over the
  value, its items and its members together. Each step of the reader goes one mark on, so that twice
  the length of the text is fuel enough.
* `decode_compact`: to decode the text of a written value is to decode the value, and so for its
  bytes (`decodeBytes_compact`).
-/

namespace Rollout.Document

/-! ## Values that are read back -/

namespace Value

mutual

/-- Whether a value holds no double. -/
def Whole : Value → Prop
  | float _ => False
  | array items => ItemsWhole items
  | object members => MembersWhole members
  | _ => True

/-- Whether no item holds a double. -/
def ItemsWhole : List Value → Prop
  | [] => True
  | v :: rest => Whole v ∧ ItemsWhole rest

/-- Whether no member holds a double. -/
def MembersWhole : List (String × Value) → Prop
  | [] => True
  | (_, v) :: rest => Whole v ∧ MembersWhole rest

end

mutual

/-- Whether a value is read as it is written. -/
def Exact : Value → Prop
  | float _ => False
  | integer n => 0 ≤ n ∧ n < UInt64.size
  | array items => ItemsExact items
  | object members => MembersExact members
  | _ => True

/-- Whether all items are read as they are written. -/
def ItemsExact : List Value → Prop
  | [] => True
  | v :: rest => Exact v ∧ ItemsExact rest

/-- Whether all members are read as they are written. -/
def MembersExact : List (String × Value) → Prop
  | [] => True
  | (_, v) :: rest => Exact v ∧ MembersExact rest

end

theorem itemsWhole_iff {items : List Value} : ItemsWhole items ↔ ∀ v ∈ items, v.Whole := by
  induction items with
  | nil => simp [ItemsWhole]
  | cons v rest ih => simp [ItemsWhole, ih]

theorem membersWhole_iff {members : List (String × Value)} :
    MembersWhole members ↔ ∀ m ∈ members, m.2.Whole := by
  induction members with
  | nil => simp [MembersWhole]
  | cons m rest ih => simp [MembersWhole, ih]

theorem whole_optional (o : Option String) : (optional o).Whole := by cases o <;> trivial

theorem whole_strings (texts : List String) : (strings texts).Whole :=
  itemsWhole_iff.mpr fun v hv => by
    obtain ⟨s, -, rfl⟩ := List.mem_map.mp hv
    trivial

theorem itemsExact_iff {items : List Value} : ItemsExact items ↔ ∀ v ∈ items, v.Exact := by
  induction items with
  | nil => simp [ItemsExact]
  | cons v rest ih => simp [ItemsExact, ih]

theorem membersExact_iff {members : List (String × Value)} :
    MembersExact members ↔ ∀ m ∈ members, m.2.Exact := by
  induction members with
  | nil => simp [MembersExact]
  | cons m rest ih => simp [MembersExact, ih]

theorem exact_nat {n : Nat} (h : n < UInt64.size) : (nat n).Exact :=
  ⟨Int.natCast_nonneg n, Int.ofNat_lt.mpr h⟩

theorem exact_map {α : Type} {value : α → Value} (h : ∀ a, (value a).Exact) (as : List α) :
    (array (as.map value)).Exact :=
  itemsExact_iff.mpr fun v hv => by
    obtain ⟨a, -, rfl⟩ := List.mem_map.mp hv
    exact h a

theorem exact_strings (texts : List String) : (strings texts).Exact :=
  itemsExact_iff.mpr fun v hv => by
    obtain ⟨s, -, rfl⟩ := List.mem_map.mp hv
    trivial

end Value

namespace Json

mutual

/-- What a reader makes of a written value. -/
def parsed : Value → Node
  | .integer n => (Numeral.ofInt n).node
  | .array items => .array (parsedItems items)
  | .object members => .object (parsedMembers members)
  | v => v.node

/-- What a reader makes of written items. -/
def parsedItems : List Value → Items
  | [] => .closed
  | v :: rest => .item (parsed v) (parsedItems rest)

/-- What a reader makes of written members. -/
def parsedMembers : List (String × Value) → Members
  | [] => .closed
  | (k, v) :: rest => .member (.ok k) (parsed v) (parsedMembers rest)

end

namespace Numeral

theorem negative_ofNat (n : Nat) : (ofInt n).negative = false :=
  decide_eq_false (Int.not_lt.mpr (Int.natCast_nonneg n))

theorem negative_negSucc (n : Nat) : (ofInt (.negSucc n)).negative = true :=
  decide_eq_true (Int.negSucc_lt_zero n)

theorem value_ofInt (n : Int) : Rollout.Text.Decimal.value (ofInt n).whole 0 = n.natAbs :=
  Rollout.Text.Decimal.value_toDigits n.natAbs

end Numeral

/-- The integers that sixty-four bits hold, with a sign or without one, are read as they are. -/
theorem node_ofInt {n : Int} (h : -(UInt64.size / 2 : Nat) ≤ n) (h' : n < UInt64.size) :
    (Numeral.ofInt n).node = .integer n := by
  have hwhole : (Numeral.ofInt n).isWhole = true := rfl
  cases n with
  | ofNat n =>
    have hsign : (Numeral.ofInt (.ofNat n)).negative = false := Numeral.negative_ofNat n
    have hn : n < UInt64.size := Int.ofNat_lt.mp h'
    rw [Numeral.node, Numeral.value_ofInt, hwhole, hsign]
    exact if_pos ⟨rfl, rfl, hn⟩
  | negSucc n =>
    have hsign := Numeral.negative_negSucc n
    have hn : n + 1 ≤ UInt64.size / 2 := by omega
    rw [Numeral.node, Numeral.value_ofInt, hwhole, hsign, if_neg fun hpos => nomatch hpos.2.1]
    exact if_pos ⟨rfl, rfl, Nat.succ_pos n, hn⟩

theorem holds_integer {n : Int} (h : -(UInt64.size / 2 : Nat) ≤ n) (h' : n < UInt64.size) :
    Holds (.integer n) := by
  show (Numeral.ofInt n).node ≠ .hugeNumber
  rw [node_ofInt h h']
  exact nofun

theorem not_holds {n : Nat} (h : UInt64.size ≤ n) (hn : (Numeral.ofInt n).magnitude? = none) :
    ¬ Holds (.integer n) := by
  refine fun hholds => hholds ?_
  rw [Numeral.node, Numeral.value_ofInt, Numeral.negative_ofNat, hn]
  simp [Nat.not_lt.mpr h]

/-- A number is an integer, a double, or too large. -/
theorem Numeral.node_cases (n : Numeral) :
    (∃ i, n.node = .integer i) ∨ (∃ shown, n.node = .float shown) ∨ n.node = .hugeNumber := by
  rw [node]
  split
  · exact .inl ⟨_, rfl⟩
  · split
    · exact .inl ⟨_, rfl⟩
    · cases n.magnitude? with
      | none => exact .inr (.inr rfl)
      | some x => exact .inr (.inl ⟨_, rfl⟩)

/-- Any value without parts may be passed over. -/
theorem ignored_of_isScalar {manner : Manner} {v : Value} (h : v.IsScalar) :
    Decode.ignored manner (parsed v) = .ok () := by
  have hpassed : (parsed v).passed = .ok () := by
    cases v with
    | null | bool _ | string _ => rfl
    | integer n =>
      show (Numeral.ofInt n).node.passed = .ok ()
      rcases (Numeral.ofInt n).node_cases with ⟨i, hn⟩ | ⟨shown, hn⟩ | hn <;> rw [hn] <;> rfl
    | float _ | array _ | object _ => exact h.elim
  cases manner with
  | streamed levels => rw [Decode.ignored, hpassed]
  | buffered | table => rfl

/-- A value without parts may be taken in where a reader can hold it. -/
theorem takenIn_of_isScalar {manner : Manner} {v : Value} (h : v.IsScalar) (hv : Holds v) :
    Decode.takenIn manner (parsed v) = .ok () := by
  have hintact : ∀ levels, (parsed v).intact levels = .ok () := by
    intro levels
    cases v with
    | null | bool _ | string _ => rfl
    | integer n =>
      show (Numeral.ofInt n).node.intact levels = .ok ()
      rcases (Numeral.ofInt n).node_cases with ⟨i, hn⟩ | ⟨shown, hn⟩ | hn
      · rw [hn]
        rfl
      · rw [hn]
        rfl
      · exact absurd hn hv
    | float _ | array _ | object _ => exact h.elim
  cases manner with
  | streamed levels => rw [Decode.takenIn, hintact]
  | buffered | table => rfl

mutual

theorem whole_of_exact {v : Value} (h : v.Exact) : v.Whole := by
  match v, h with
  | .array _, h => exact itemsWhole_of_exact h
  | .object _, h => exact membersWhole_of_exact h
  | .null, _ | .bool _, _ | .integer _, _ | .string _, _ => trivial

theorem itemsWhole_of_exact {items : List Value} (h : Value.ItemsExact items) :
    Value.ItemsWhole items := by
  match items, h with
  | [], _ => trivial
  | _ :: _, h => exact ⟨whole_of_exact h.1, itemsWhole_of_exact h.2⟩

theorem membersWhole_of_exact {members : List (String × Value)} (h : Value.MembersExact members) :
    Value.MembersWhole members := by
  match members, h with
  | [], _ => trivial
  | (_, _) :: _, h => exact ⟨whole_of_exact h.1, membersWhole_of_exact h.2⟩

end

mutual

theorem parsed_of_exact {v : Value} (h : v.Exact) : parsed v = v.node := by
  match v, h with
  | .integer _, h => exact node_ofInt (Int.le_trans (by decide) h.1) h.2
  | .array _, h => exact congrArg Node.array (parsedItems_of_exact h)
  | .object _, h => exact congrArg Node.object (parsedMembers_of_exact h)
  | .null, _ | .bool _, _ | .string _, _ => rfl

theorem parsedItems_of_exact {items : List Value} (h : Value.ItemsExact items) :
    parsedItems items = Value.nodes items := by
  match items, h with
  | [], _ => rfl
  | _ :: _, h => rw [parsedItems, parsed_of_exact h.1, parsedItems_of_exact h.2, Value.nodes]

theorem parsedMembers_of_exact {members : List (String × Value)} (h : Value.MembersExact members) :
    parsedMembers members = Value.memberNodes members := by
  match members, h with
  | [], _ => rfl
  | (_, _) :: _, h =>
    rw [parsedMembers, parsed_of_exact h.1, parsedMembers_of_exact h.2, Value.memberNodes]

end

/-! ## Numbers -/

/-- Whether a text does not go on with a number: it is at its end, or at a mark between values. -/
def Closes (rest : List Char) : Prop := ∀ c ∈ rest.head?, c = ',' ∨ c = ']' ∨ c = '\x7d'

theorem Closes.nil : Closes [] := nofun

theorem Closes.cons {c : Char} (h : c = ',' ∨ c = ']' ∨ c = '\x7d') (rest : List Char) :
    Closes (c :: rest) := by
  intro c' hc
  cases hc
  exact h

theorem takeDigits_toDigits (n : Nat) {rest : List Char} (h : Closes rest) :
    takeDigits ((Nat.toDigits 10 n ++ rest).map some) =
      (Nat.toDigits 10 n, rest.map some) := by
  have hdigits : ∀ x ∈ (Nat.toDigits 10 n).map some, isDigit x = true := by
    intro x hx
    obtain ⟨c, hc, rfl⟩ := List.mem_map.mp hx
    exact Rollout.Text.Decimal.isDigit_toDigits hc
  have hstops : Rollout.Text.Stops isDigit (rest.map some) := by
    intro x hx
    rw [List.head?_map] at hx
    obtain ⟨c, hc, rfl⟩ := Option.map_eq_some_iff.mp hx
    rcases h c hc with rfl | rfl | rfl <;> rfl
  rw [takeDigits, List.map_append, Rollout.Text.takeWhile_append_of_stops hdigits hstops,
    Rollout.Text.dropWhile_append_of_stops hdigits hstops, List.filterMap_map]
  simp

/-- The digits of a number are read as its numeral. -/
theorem takeNumeral_digits (negative : Bool) (n : Nat) {rest : List Char} (h : Closes rest) :
    takeNumeral negative ((Nat.toDigits 10 n ++ rest).map some) =
      .ok (⟨negative, Nat.toDigits 10 n, [], none⟩, rest.map some) := by
  have hwhole : takeWhole ((Nat.toDigits 10 n ++ rest).map some) =
      .ok (Nat.toDigits 10 n, rest.map some) := by
    rw [takeWhole, takeDigits_toDigits n h]
    split
    · rename_i heq
      exact absurd (congrArg Prod.fst heq) Nat.toDigits_ne_nil
    · rename_i heq
      have hzero : Nat.toDigits 10 n = '0' :: _ :: _ := congrArg Prod.fst heq
      have hn : n = 0 :=
        Rollout.Text.Decimal.head_toDigits (b := 10) (by decide) (by rw [hzero]; rfl)
      rw [hn] at hzero
      cases hzero
    · rename_i heq
      rw [← heq]
  have hfraction : takeFraction (rest.map some) = .ok ([], rest.map some) := by
    cases rest with
    | nil => rfl
    | cons c rest => rcases h c rfl with rfl | rfl | rfl <;> rfl
  have hexponent : takeExponent (rest.map some) = .ok (none, rest.map some) := by
    cases rest with
    | nil => rfl
    | cons c rest => rcases h c rfl with rfl | rfl | rfl <;> rfl
  rw [takeNumeral, hwhole]
  simp only [bind, Except.bind, hfraction, hexponent]
  rfl

theorem takeNumber_digits (n : Int) {rest : List Char} (h : Closes rest) :
    takeNumber (n < 0) ((Nat.toDigits 10 n.natAbs ++ rest).map some) =
      ((Numeral.ofInt n).node, some (rest.map some)) := by
  rw [takeNumber, takeNumeral_digits _ n.natAbs h]
  rfl

/-! ## Values -/

/-- A character that may begin a value: no blank, and no bracket that closes. -/
def Opens (c : Char) : Prop := isSpace (some c) = false ∧ c ≠ ']'

theorem opens_of_isDigit {c : Char} (h : c.isDigit = true) : Opens c := by
  refine ⟨?_, ?_⟩
  · rw [Bool.eq_false_iff]
    intro hs
    simp only [isSpace, Bool.or_eq_true, decide_eq_true_eq] at hs
    rcases hs with ((rfl | rfl) | rfl) | rfl <;> exact absurd h (by decide)
  · rintro rfl
    exact absurd h (by decide)

theorem skipSpace_of_not_space {c : Char} (h : isSpace (some c) = false) (rest : Symbols) :
    skipSpace (some c :: rest) = some c :: rest := by
  rw [skipSpace, List.dropWhile_cons_of_neg (by simp [h])]

theorem takeValue_digit {c : Char} (h : c.isDigit = true) (fuel : Nat) (rest : Symbols) :
    takeValue (fuel + 1) (some c :: rest) = takeNumber false (some c :: rest) := by
  rw [takeValue, skipSpace_of_not_space (opens_of_isDigit h).1]
  -- No digit is a mark or begins a word or a sign.
  split <;> rename_i heq <;> cases heq <;> first | exact absurd h (by decide) | exact if_pos h

theorem compactChars_ofNat (n : Nat) : compactChars (.integer (.ofNat n)) = Nat.toDigits 10 n :=
  String.toList_ofList

theorem compactChars_negSucc (n : Nat) :
    compactChars (.integer (.negSucc n)) = '-' :: Nat.toDigits 10 (n + 1) := by
  show ("-" ++ Rollout.Text.Decimal.text (n + 1)).toList = _
  rw [String.toList_append, Rollout.Text.Decimal.text, String.toList_ofList,
    String.toList_ofList, List.singleton_append]

/-- A written value begins with a character that may begin one. -/
theorem compactChars_cons (v : Value) (h : v.Whole) :
    ∃ c cs, compactChars v = c :: cs ∧ Opens c := by
  cases v with
  | null => exact ⟨_, _, rfl, rfl, by decide⟩
  | bool b => cases b <;> exact ⟨_, _, rfl, rfl, by decide⟩
  | integer n =>
    cases n with
    | ofNat n =>
      obtain ⟨c, cs, hcs⟩ := List.exists_cons_of_ne_nil (Nat.toDigits_ne_nil (b := 10) (n := n))
      refine ⟨c, cs, ?_, opens_of_isDigit (Rollout.Text.Decimal.isDigit_toDigits (n := n) ?_)⟩
      · rw [← hcs]
        exact compactChars_ofNat n
      · rw [hcs]
        exact List.mem_cons_self
    | negSucc n => exact ⟨_, _, compactChars_negSucc n, rfl, by decide⟩
  | float shown => exact h.elim
  | string s => exact ⟨_, _, rfl, rfl, by decide⟩
  | array items => cases items <;> exact ⟨_, _, rfl, rfl, by decide⟩
  | object members =>
    rcases members with _ | ⟨⟨k, v⟩, rest⟩ <;> exact ⟨_, _, rfl, rfl, by decide⟩

theorem takeStringNode_string (s : String) (rest : List Char) :
    takeStringNode ((s.toList.flatMap escape ++ '"' :: rest).map some) =
      (.string (.ok s), some (rest.map some)) := by
  rw [takeStringNode, takeString_string]

theorem closes_items (items : List Value) (rest : List Char) :
    Closes (compactItems items ++ rest) := by
  cases items with
  | nil => exact .cons (.inr (.inl rfl)) _
  | cons v items => exact .cons (.inl rfl) _

theorem length_compactChars_pos {v : Value} (h : v.Whole) : 0 < (compactChars v).length := by
  obtain ⟨c, cs, hc, -⟩ := compactChars_cons v h
  rw [hc]
  exact Nat.succ_pos _

theorem length_compactItems_pos (items : List Value) : 0 < (compactItems items).length := by
  cases items <;> exact Nat.succ_pos _

theorem closes_members (members : List (String × Value)) (rest : List Char) :
    Closes (compactMembers members ++ rest) := by
  cases members with
  | nil => exact .cons (.inr (.inr rfl)) _
  | cons m members => exact .cons (.inl rfl) _

section Step

variable {fuel : Nat} {s rest : Symbols} {end_ : Option Symbols} {node : Node}

theorem takeItem_step {items : Items} (hv : takeValue fuel s = (node, some rest))
    (hi : takeNextItems fuel rest = (items, end_)) :
    takeItem (fuel + 1) s = (.item node items, end_) := by
  rw [takeItem, hv]
  simp only [hi]

/-- The first item stands right behind the opening bracket. -/
theorem takeItems_open {c : Char} (h : Opens c) :
    takeItems (fuel + 1) (some c :: s) = takeItem fuel (some c :: s) := by
  rw [takeItems, skipSpace_of_not_space h.1]
  split <;> rename_i heq
  · cases heq
  · cases heq
    exact absurd rfl h.2
  · rfl

/-- Each further item stands right behind a comma. -/
theorem takeNextItems_open {c : Char} (h : Opens c) :
    takeNextItems (fuel + 1) (some ',' :: some c :: s) = takeItem fuel (some c :: s) := by
  rw [takeNextItems, skipSpace_of_not_space rfl]
  simp only [skipSpace_of_not_space h.1]
  split <;> rename_i heq
  · cases heq
  · cases heq
    exact absurd rfl h.2
  · rfl

/-- A written value stands where an item may stand. -/
theorem takeItems_compactChars {v : Value} (h : v.Whole) (text : List Char) :
    takeItems (fuel + 1) ((compactChars v ++ text).map some) =
      takeItem fuel ((compactChars v ++ text).map some) := by
  obtain ⟨c, cs, hc, hopen⟩ := compactChars_cons v h
  rw [hc, List.cons_append, List.map_cons]
  exact takeItems_open hopen

theorem takeNextItems_compactChars {v : Value} (h : v.Whole) (text : List Char) :
    takeNextItems (fuel + 1) (some ',' :: (compactChars v ++ text).map some) =
      takeItem fuel ((compactChars v ++ text).map some) := by
  obtain ⟨c, cs, hc, hopen⟩ := compactChars_cons v h
  rw [hc, List.cons_append, List.map_cons]
  exact takeNextItems_open hopen

theorem takeMember_step {k : String} {text : List Char} {members : Members}
    (hv : takeValue fuel (text.map some) = (node, some rest))
    (hm : takeNextMembers fuel rest = (members, end_)) :
    takeMember (fuel + 1) ((k.toList.flatMap escape ++ '"' :: ':' :: text).map some) =
      (.member (.ok k) node members, end_) := by
  rw [takeMember, takeString_string]
  simp only [List.map_cons, skipSpace_of_not_space (c := ':') rfl, hv, hm]

/-- A written integer is read, with its sign. -/
theorem takeValue_integer (n : Int) {rest : List Char} (hrest : Closes rest) (fuel : Nat) :
    takeValue (fuel + 1) ((compactChars (.integer n) ++ rest).map some) =
      (parsed (.integer n), some (rest.map some)) := by
  cases n with
  | ofNat n =>
    have htext := compactChars_ofNat n
    obtain ⟨c, cs, hc, -⟩ := compactChars_cons (.integer (.ofNat n)) trivial
    have hdigit : c.isDigit = true :=
      Rollout.Text.Decimal.isDigit_toDigits (n := n) (by rw [← htext, hc]; exact List.mem_cons_self)
    rw [hc, List.cons_append, List.map_cons, takeValue_digit hdigit, ← List.map_cons,
      ← List.cons_append, ← hc, htext]
    exact takeNumber_digits (.ofNat n) hrest
  | negSucc n =>
    have hnumber := takeNumber_digits (.negSucc n) hrest
    rw [decide_eq_true (Int.negSucc_lt_zero n)] at hnumber
    rw [compactChars_negSucc, List.cons_append, List.map_cons, takeValue,
      skipSpace_of_not_space rfl]
    exact hnumber

/-- A written string is read. -/
theorem takeValue_string (s : String) (rest : List Char) (fuel : Nat) :
    takeValue (fuel + 1) ((compactChars (.string s) ++ rest).map some) =
      (parsed (.string s), some (rest.map some)) := by
  have htext : compactChars (.string s) ++ rest =
      '"' :: (s.toList.flatMap escape ++ '"' :: rest) := by
    simp [compactChars, scalar, string]
  rw [htext, List.map_cons, takeValue, skipSpace_of_not_space rfl]
  exact takeStringNode_string s rest

end Step

mutual

/-- A written value is read, and nothing of what stands behind it. -/
theorem takeValue_compact (v : Value) (h : v.Whole) {rest : List Char} (hrest : Closes rest)
    (fuel : Nat) (hfuel : 2 * (compactChars v).length ≤ fuel) :
    takeValue fuel ((compactChars v ++ rest).map some) = (parsed v, some (rest.map some)) := by
  have hpos := length_compactChars_pos h
  obtain ⟨fuel, rfl⟩ : ∃ n, fuel = n + 1 := Nat.exists_eq_add_one.mpr (by omega)
  match v, h with
  | .null, _ => rfl
  | .bool true, _ => rfl
  | .bool false, _ => rfl
  | .integer n, _ => exact takeValue_integer n hrest fuel
  | .string s, _ => exact takeValue_string s rest fuel
  | .array [], _ =>
    obtain ⟨fuel, rfl⟩ : ∃ n, fuel = n + 1 := Nat.exists_eq_add_one.mpr (by
      simp [compactChars] at hfuel; omega)
    rfl
  | .array (v :: items), h =>
    have htext : compactChars (.array (v :: items)) ++ rest =
        '[' :: (compactChars v ++ (compactItems items ++ rest)) := by
      simp [compactChars]
    have hlen : 2 * (1 + (compactChars v).length + (compactItems items).length) ≤ fuel + 1 := by
      simp only [compactChars, List.length_cons, List.length_append] at hfuel
      omega
    have hitem := length_compactChars_pos h.1
    have hitems := length_compactItems_pos items
    obtain ⟨fuel, rfl⟩ : ∃ n, fuel = n + 2 := ⟨fuel - 2, by omega⟩
    have hv := takeValue_compact v h.1 (closes_items items rest) fuel (by omega)
    have hi := takeNextItems_compact items h.2 hrest fuel (by omega)
    rw [htext, List.map_cons, takeValue, skipSpace_of_not_space rfl]
    simp only [takeItems_compactChars h.1, takeItem_step hv hi]
    rfl
  | .object [], _ =>
    obtain ⟨fuel, rfl⟩ : ∃ n, fuel = n + 1 := Nat.exists_eq_add_one.mpr (by
      simp [compactChars] at hfuel; omega)
    rfl
  | .object ((k, v) :: members), h =>
    have htext : compactChars (.object ((k, v) :: members)) ++ rest =
        '\x7b' :: '"' :: (k.toList.flatMap escape ++ '"' :: ':' ::
          (compactChars v ++ (compactMembers members ++ rest))) := by
      simp [compactChars, string]
    have hlen : 2 * (3 + (compactChars v).length + (compactMembers members).length) ≤ fuel + 1 := by
      simp only [compactChars, string, List.length_cons, List.length_append] at hfuel
      omega
    obtain ⟨fuel, rfl⟩ : ∃ n, fuel = n + 2 := ⟨fuel - 2, by omega⟩
    have hv := takeValue_compact v h.1 (closes_members members rest) fuel (by omega)
    have hm := takeNextMembers_compact members h.2 hrest fuel (by omega)
    have hmember := takeMember_step (k := k) hv hm
    rw [htext, List.map_cons, takeValue, skipSpace_of_not_space rfl, List.map_cons]
    simp only [takeMembers, skipSpace_of_not_space (c := '"') rfl, hmember]
    rfl

/-- The items behind the first one are read, up to the closing bracket. -/
theorem takeNextItems_compact (items : List Value) (h : Value.ItemsWhole items)
    {rest : List Char} (hrest : Closes rest) (fuel : Nat)
    (hfuel : 2 * (compactItems items).length ≤ fuel) :
    takeNextItems fuel ((compactItems items ++ rest).map some) =
      (parsedItems items, some (rest.map some)) := by
  match items, h with
  | [], _ =>
    obtain ⟨fuel, rfl⟩ : ∃ n, fuel = n + 1 := Nat.exists_eq_add_one.mpr (by
      simp [compactItems] at hfuel; omega)
    rfl
  | v :: items, h =>
    have htext : compactItems (v :: items) ++ rest =
        ',' :: (compactChars v ++ (compactItems items ++ rest)) := by
      simp [compactItems]
    have hlen : 2 * (1 + (compactChars v).length + (compactItems items).length) ≤ fuel := by
      simp only [compactItems, List.length_cons, List.length_append] at hfuel
      omega
    obtain ⟨fuel, rfl⟩ : ∃ n, fuel = n + 2 := ⟨fuel - 2, by omega⟩
    have hv := takeValue_compact v h.1 (closes_items items rest) fuel (by omega)
    have hi := takeNextItems_compact items h.2 hrest fuel (by omega)
    rw [htext, List.map_cons, takeNextItems_compactChars h.1, takeItem_step hv hi]
    rfl

/-- The members behind the first one are read, up to the closing brace. -/
theorem takeNextMembers_compact (members : List (String × Value))
    (h : Value.MembersWhole members) {rest : List Char} (hrest : Closes rest) (fuel : Nat)
    (hfuel : 2 * (compactMembers members).length ≤ fuel) :
    takeNextMembers fuel ((compactMembers members ++ rest).map some) =
      (parsedMembers members, some (rest.map some)) := by
  match members, h with
  | [], _ =>
    obtain ⟨fuel, rfl⟩ : ∃ n, fuel = n + 1 := Nat.exists_eq_add_one.mpr (by
      simp [compactMembers] at hfuel; omega)
    rfl
  | (k, v) :: members, h =>
    have htext : compactMembers ((k, v) :: members) ++ rest =
        ',' :: '"' :: (k.toList.flatMap escape ++ '"' :: ':' ::
          (compactChars v ++ (compactMembers members ++ rest))) := by
      simp [compactMembers, string]
    have hlen : 2 * (3 + (compactChars v).length + (compactMembers members).length) ≤ fuel := by
      simp only [compactMembers, string, List.length_cons, List.length_append] at hfuel
      omega
    obtain ⟨fuel, rfl⟩ : ∃ n, fuel = n + 2 := ⟨fuel - 2, by omega⟩
    have hv := takeValue_compact v h.1 (closes_members members rest) fuel (by omega)
    have hm := takeNextMembers_compact members h.2 hrest fuel (by omega)
    have hmember := takeMember_step (k := k) hv hm
    rw [htext, List.map_cons, List.map_cons, takeNextMembers, skipSpace_of_not_space rfl]
    simp only [skipSpace_of_not_space (c := '"') rfl, hmember]
    rfl

end

/-! ## Documents -/

/-- A written value is read, with nothing behind it. -/
theorem readSymbols_compact (v : Value) (h : v.Whole) :
    readSymbols ((compactChars v).map some) = ⟨parsed v, false⟩ := by
  have hv := takeValue_compact v h .nil (3 * ((compactChars v).map some).length + 3)
    (by rw [List.length_map]; omega)
  rw [List.append_nil] at hv
  rw [readSymbols, hv]
  rfl

section Decode

variable {α : Type} (d : Decoder α)

theorem decodeParsed_closed (node : Node) :
    decodeParsed d ⟨node, false⟩ = d (.streamed maxLevels) node := by
  rw [decodeParsed]
  cases d (.streamed maxLevels) node <;> rfl

/-- To decode the text of a written value is to decode the value. -/
theorem decode_compact (v : Value) (h : v.Whole) :
    decode d (compact v) = d (.streamed maxLevels) (parsed v) := by
  rw [decode, read, compact, String.toList_ofList, readSymbols_compact v h, decodeParsed_closed]

/-- To decode the bytes of a written value is to decode the value. -/
theorem decodeBytes_compact (v : Value) (h : v.Exact) :
    decodeBytes d (Rollout.Text.Utf8.bytes (compact v)) = d (.streamed maxLevels) v.node := by
  rw [decodeBytes, readBytes, Rollout.Text.Utf8.symbols_bytes, compact, String.toList_ofList,
    readSymbols_compact v (whole_of_exact h), decodeParsed_closed, parsed_of_exact h]

end Decode

end Json

end Rollout.Document
