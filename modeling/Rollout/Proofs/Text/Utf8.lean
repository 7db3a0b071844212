import Rollout.Text.Utf8

/-!
# Text as bytes and back

The bytes of a text read as its characters, with no undecodable place among them.

* `bytes_ofList`: the bytes of a text are those of its characters, one after the other.
* `piece_encode`: the bytes of a character, with anything behind them, are read as this character.
* `encode_of_piece`: no other bytes are read as this character.
* `pieces_bytes`, and from it `symbols_bytes` and `lossy_bytes`: the same for a whole text.
* `text?_eq_some`: bytes are a text exactly where they are the bytes of it.
-/

namespace Rollout.Text.Utf8

/-! ## Bytes -/

theorem toList_loop (bs : ByteArray) (i : Nat) (r : List UInt8) :
    ByteArray.toList.loop bs i r = r.reverse ++ bs.data.toList.drop i := by
  fun_induction ByteArray.toList.loop bs i r with
  | case1 i r h ih =>
    have hi : i < bs.data.toList.length := h
    have hget : bs.get! i = bs.data.toList[i] := getElem!_pos bs.data i h
    rw [ih, List.reverse_cons, List.append_assoc, List.drop_eq_getElem_cons hi, hget]
    rfl
  | case2 i r h =>
    have hi : bs.data.toList.length ≤ i := Nat.le_of_not_lt h
    rw [List.drop_eq_nil_of_le hi, List.append_nil]

theorem bytes_ofList (cs : List Char) :
    bytes (String.ofList cs) = cs.flatMap String.utf8EncodeChar := by
  unfold bytes String.toUTF8 ByteArray.toList
  rw [toList_loop, String.toByteArray_ofList]
  simp [List.utf8Encode]

/-! ## A character -/

section Byte

variable {n : Nat}

theorem ofNat_lt (h : n < 256) (m : UInt8) : UInt8.ofNat n < m ↔ n < m.toNat := by
  rw [UInt8.lt_iff_toNat_lt, UInt8.toNat_ofNat', Nat.mod_eq_of_lt h]

theorem ofNat_eq (h : n < 256) (m : UInt8) : UInt8.ofNat n = m ↔ n = m.toNat := by
  rw [← UInt8.toNat_inj, UInt8.toNat_ofNat', Nat.mod_eq_of_lt h]

/-- What a first byte promises, by its number. -/
theorem lead_ofNat (h : n < 256) : lead (UInt8.ofNat n) =
    if n < 0x80 then .complete n
    else if n < 0xC2 then .none
    else if n < 0xE0 then .continued (n - 0xC0) [continuation]
    else if n = 0xE0 then .continued 0 [(0xA0, 0xBF), continuation]
    else if n = 0xED then .continued 0xD [(0x80, 0x9F), continuation]
    else if n < 0xF0 then .continued (n - 0xE0) [continuation, continuation]
    else if n = 0xF0 then .continued 0 [(0x90, 0xBF), continuation, continuation]
    else if n < 0xF4 then .continued (n - 0xF0) [continuation, continuation, continuation]
    else if n = 0xF4 then .continued 4 [(0x80, 0x8F), continuation, continuation]
    else .none := by
  have hn : (UInt8.ofNat n).toNat = n := Nat.mod_eq_of_lt h
  unfold lead
  simp only [ofNat_lt h, ofNat_eq h, hn]
  rfl

theorem lead_two (hl : 2 ≤ n) (hh : n < 32) :
    lead (UInt8.ofNat (n + 0xC0)) = .continued n [continuation] := by
  rw [lead_ofNat (by omega), if_neg (by omega), if_neg (by omega), if_pos (by omega),
    Nat.add_sub_cancel]

/-- The first byte of three. The narrower ranges keep out shorter characters and halves of one. -/
theorem lead_three (hh : n < 16) : lead (UInt8.ofNat (n + 0xE0)) =
    .continued n [(if n = 0 then 0xA0 else 0x80, if n = 13 then 0x9F else 0xBF), continuation] := by
  by_cases h₀ : n = 0
  · subst h₀; rfl
  by_cases h₁ : n = 13
  · subst h₁; rfl
  rw [lead_ofNat (by omega), if_neg (by omega), if_neg (by omega), if_neg (by omega),
    if_neg (by omega), if_neg (by omega), if_pos (by omega), if_neg h₀, if_neg h₁,
    Nat.add_sub_cancel]
  rfl

/-- The first byte of four. The narrower ranges keep out shorter characters and too great codes. -/
theorem lead_four (hh : n < 5) : lead (UInt8.ofNat (n + 0xF0)) =
    .continued n [(if n = 0 then 0x90 else 0x80, if n = 4 then 0x8F else 0xBF), continuation,
      continuation] := by
  match n, hh with
  | 0, _ | 1, _ | 2, _ | 3, _ | 4, _ => rfl

/-- A byte that follows another one. -/
theorem follow_ofNat {low high : UInt8} {ranges : List (UInt8 × UInt8)} {code : Nat}
    {rest taken : Bytes} {result : Option Nat} (hl : low.toNat ≤ n) (hh : n ≤ high.toNat)
    (h : follow ranges (code * 64 + (n - 0x80)) rest = (taken, result)) :
    follow ((low, high) :: ranges) code (UInt8.ofNat n :: rest) =
      (UInt8.ofNat n :: taken, result) := by
  have hn : (UInt8.ofNat n).toNat = n :=
    Nat.mod_eq_of_lt (Nat.lt_of_le_of_lt hh high.toNat_lt)
  have hin : low ≤ UInt8.ofNat n ∧ UInt8.ofNat n ≤ high := by
    rw [UInt8.le_iff_toNat_le, UInt8.le_iff_toNat_le, hn]
    exact ⟨hl, hh⟩
  rw [follow, if_pos hin, hn, h]

/-- The last byte of a character. -/
theorem follow_last {v code : Nat} {rest : Bytes} (hv : code * 64 + v % 64 = v) :
    follow [continuation] code (UInt8.ofNat (v % 64 + 128) :: rest) =
      ([UInt8.ofNat (v % 64 + 128)], some v) := by
  refine follow_ofNat (by simp) (by simp; omega) ?_
  rw [Nat.add_sub_cancel, hv, follow]

theorem piece_of_follow {b : UInt8} {bits code : Nat} {ranges : List (UInt8 × UInt8)}
    {rest taken : Bytes} (hb : lead b = .continued bits ranges)
    (h : follow ranges bits rest = (taken, some code)) :
    piece b rest = (.char (Char.ofNat code), taken.length) := by
  rw [piece, hb]
  simp only [h]

end Byte

/-- The bytes of a character are read as the character. The cases are those of the number of its
bytes. -/
theorem piece_encode (c : Char) (rest : Bytes) : ∃ b tail,
    String.utf8EncodeChar c = b :: tail ∧ piece b (tail ++ rest) = (.char c, tail.length) := by
  have hc : Char.ofNat c.val.toNat = c := c.ofNat_toNat
  have hv : c.val.toNat < 0xD800 ∨ 0xDFFF < c.val.toNat ∧ c.val.toNat < 0x110000 := c.valid
  unfold String.utf8EncodeChar
  generalize c.val.toNat = v at hc hv
  subst hc
  simp only []
  split
  · refine ⟨_, _, rfl, ?_⟩
    rw [piece, lead_ofNat (by omega), if_pos (by omega)]
    rfl
  split
  · exact ⟨_, _, rfl, piece_of_follow (lead_two (by omega) (by omega)) (follow_last (by omega))⟩
  split
  · refine ⟨_, _, rfl, piece_of_follow (lead_three (by omega))
      (follow_ofNat ?_ ?_ (follow_last (by omega)))⟩
    · split <;> simp
      omega
    · split <;> (simp; omega)
  · refine ⟨_, _, rfl, piece_of_follow (lead_four (by omega))
      (follow_ofNat ?_ ?_ (follow_ofNat (by simp) (by simp; omega) (follow_last (by omega))))⟩
    · split <;> simp
      omega
    · split <;> (simp; omega)

/-! ## The bytes of a character -/

/-- The bytes of the character with a code. -/
theorem encode_ofNat {v : Nat} (h : v < 0xD800 ∨ 0xDFFF < v ∧ v < 0x110000) :
    String.utf8EncodeChar (Char.ofNat v) =
      if v ≤ 127 then [UInt8.ofNat v]
      else if v ≤ 2047 then [UInt8.ofNat (v / 64 % 32 + 192), UInt8.ofNat (v % 64 + 128)]
      else if v ≤ 65535 then
        [UInt8.ofNat (v / 4096 % 16 + 224), UInt8.ofNat (v / 64 % 64 + 128),
          UInt8.ofNat (v % 64 + 128)]
      else
        [UInt8.ofNat (v / 262144 % 8 + 240), UInt8.ofNat (v / 4096 % 64 + 128),
          UInt8.ofNat (v / 64 % 64 + 128), UInt8.ofNat (v % 64 + 128)] := by
  have hv : (Char.ofNat v).val.toNat = v := by
    rw [Char.ofNat, dif_pos h]
    rfl
  rw [String.utf8EncodeChar, hv]

/-- A character of two bytes. -/
theorem encode_two {bits n₁ : Nat} (hl : 2 ≤ bits) (hh : bits < 32) (hl₁ : 0x80 ≤ n₁)
    (hh₁ : n₁ ≤ 0xBF) :
    String.utf8EncodeChar (Char.ofNat (bits * 64 + (n₁ - 0x80))) =
      [UInt8.ofNat (bits + 0xC0), UInt8.ofNat n₁] := by
  rw [encode_ofNat (by omega), if_neg (by omega), if_pos (by omega)]
  simp only [List.cons.injEq]
  exact ⟨congrArg _ (by omega), congrArg _ (by omega), trivial⟩

/-- A character of three bytes is no surrogate, and needs them all. -/
theorem encode_three {bits n₁ n₂ : Nat} (hh : bits < 16) (hl₁ : 0x80 ≤ n₁) (hh₁ : n₁ ≤ 0xBF)
    (hlow : bits = 0 → 0xA0 ≤ n₁) (hhigh : bits = 13 → n₁ ≤ 0x9F) (hl₂ : 0x80 ≤ n₂)
    (hh₂ : n₂ ≤ 0xBF) :
    String.utf8EncodeChar (Char.ofNat ((bits * 64 + (n₁ - 0x80)) * 64 + (n₂ - 0x80))) =
      [UInt8.ofNat (bits + 0xE0), UInt8.ofNat n₁, UInt8.ofNat n₂] := by
  rw [encode_ofNat (by omega), if_neg (by omega), if_neg (by omega), if_pos (by omega)]
  simp only [List.cons.injEq]
  exact ⟨congrArg _ (by omega), congrArg _ (by omega), congrArg _ (by omega), trivial⟩

/-- A character of four bytes has a code below the end of the codes, and needs them all. -/
theorem encode_four {bits n₁ n₂ n₃ : Nat} (hh : bits < 5) (hl₁ : 0x80 ≤ n₁) (hh₁ : n₁ ≤ 0xBF)
    (hlow : bits = 0 → 0x90 ≤ n₁) (hhigh : bits = 4 → n₁ ≤ 0x8F) (hl₂ : 0x80 ≤ n₂)
    (hh₂ : n₂ ≤ 0xBF) (hl₃ : 0x80 ≤ n₃) (hh₃ : n₃ ≤ 0xBF) :
    String.utf8EncodeChar
        (Char.ofNat (((bits * 64 + (n₁ - 0x80)) * 64 + (n₂ - 0x80)) * 64 + (n₃ - 0x80))) =
      [UInt8.ofNat (bits + 0xF0), UInt8.ofNat n₁, UInt8.ofNat n₂, UInt8.ofNat n₃] := by
  rw [encode_ofNat (by omega), if_neg (by omega), if_neg (by omega), if_neg (by omega)]
  simp only [List.cons.injEq]
  exact ⟨congrArg _ (by omega), congrArg _ (by omega), congrArg _ (by omega), congrArg _ (by omega),
    trivial⟩

/-- A byte that was taken from its range. -/
theorem exists_of_follow {low high : UInt8} {ranges : List (UInt8 × UInt8)} {code v : Nat}
    {rest taken : Bytes} (h : follow ((low, high) :: ranges) code rest = (taken, some v)) :
    ∃ n rest' taken', low.toNat ≤ n ∧ n ≤ high.toNat ∧ rest = UInt8.ofNat n :: rest' ∧
      taken = UInt8.ofNat n :: taken' ∧
      follow ranges (code * 64 + (n - 0x80)) rest' = (taken', some v) := by
  cases rest with
  | nil => simp [follow] at h
  | cons b rest =>
    rw [follow] at h
    split at h
    · rename_i hin
      simp only [Prod.mk.injEq] at h
      refine ⟨b.toNat, rest, _, hin.1, hin.2, by simp, by rw [← h.1, UInt8.ofNat_toNat], ?_⟩
      rw [← h.2]
    · simp at h

theorem follow_nil {code v : Nat} {rest taken : Bytes}
    (h : follow [] code rest = (taken, some v)) : taken = [] ∧ code = v := by
  simpa [follow, eq_comm] using h

/-- The first bytes that promise more bytes. -/
theorem lead_cases {n bits : Nat} {ranges : List (UInt8 × UInt8)} (hn : n < 256)
    (h : lead (UInt8.ofNat n) = .continued bits ranges) :
    (2 ≤ bits ∧ bits < 32 ∧ n = bits + 0xC0 ∧ ranges = [continuation]) ∨
    (bits < 16 ∧ n = bits + 0xE0 ∧ ranges =
      [(if bits = 0 then 0xA0 else 0x80, if bits = 13 then 0x9F else 0xBF), continuation]) ∨
    (bits < 5 ∧ n = bits + 0xF0 ∧ ranges =
      [(if bits = 0 then 0x90 else 0x80, if bits = 4 then 0x8F else 0xBF), continuation,
        continuation]) := by
  rw [lead_ofNat hn] at h
  repeat' split at h
  all_goals first | injection h with hb hr | cases h
  · exact .inl ⟨by omega, by omega, by omega, hr.symm⟩
  · subst hb
    exact .inr (.inl ⟨by omega, by omega, hr.symm⟩)
  · subst hb
    exact .inr (.inl ⟨by omega, by omega, hr.symm⟩)
  · refine .inr (.inl ⟨by omega, by omega, ?_⟩)
    rw [if_neg (by omega), if_neg (by omega), ← hr]
    rfl
  · subst hb
    exact .inr (.inr ⟨by omega, by omega, hr.symm⟩)
  · refine .inr (.inr ⟨by omega, by omega, ?_⟩)
    rw [if_neg (by omega), if_neg (by omega), ← hr]
    rfl
  · subst hb
    exact .inr (.inr ⟨by omega, by omega, hr.symm⟩)

/-- Only the bytes of a character are read as it. The cases are those of the first byte. -/
theorem encode_of_piece {b : UInt8} {rest : Bytes} {c : Char} {n : Nat}
    (h : piece b rest = (.char c, n)) : String.utf8EncodeChar c = b :: rest.take n := by
  obtain ⟨m, hm, rfl⟩ : ∃ m, m < 256 ∧ b = UInt8.ofNat m :=
    ⟨b.toNat, b.toNat_lt, by simp⟩
  unfold piece at h
  split at h
  · rename_i code hlead
    rw [lead_ofNat hm] at hlead
    have hcode : code < 0x80 ∧ code = m := by
      split at hlead
      · cases hlead
        omega
      · repeat' split at hlead
        all_goals cases hlead
    obtain ⟨hlt, rfl⟩ := hcode
    obtain ⟨rfl, rfl⟩ : Char.ofNat code = c ∧ 0 = n := by simpa using h
    rw [encode_ofNat (by omega), if_pos (by omega), List.take_zero]
  · simp at h
  · rename_i bits ranges hlead
    split at h
    case h_2 => simp at h
    rename_i taken code hfollow
    obtain ⟨rfl, rfl⟩ : Char.ofNat code = c ∧ taken.length = n := by simpa using h
    rcases lead_cases hm hlead with ⟨hl, hh, rfl, rfl⟩ | ⟨hh, rfl, rfl⟩ | ⟨hh, rfl, rfl⟩
    · obtain ⟨n₁, rest, taken, hl₁, hh₁, rfl, rfl, hfollow₁⟩ := exists_of_follow hfollow
      obtain ⟨rfl, rfl⟩ := follow_nil hfollow₁
      exact encode_two hl hh hl₁ hh₁
    · obtain ⟨n₁, rest, taken, hl₁, hh₁, rfl, rfl, hfollow₁⟩ := exists_of_follow hfollow
      obtain ⟨n₂, rest, taken, hl₂, hh₂, rfl, rfl, hfollow₂⟩ := exists_of_follow hfollow₁
      obtain ⟨rfl, rfl⟩ := follow_nil hfollow₂
      have hlow : 0x80 ≤ n₁ ∧ (bits = 0 → 0xA0 ≤ n₁) := by
        split at hl₁ <;> simp at hl₁ <;> omega
      have hhigh : n₁ ≤ 0xBF ∧ (bits = 13 → n₁ ≤ 0x9F) := by
        split at hh₁ <;> simp at hh₁ <;> omega
      exact encode_three hh hlow.1 hhigh.1 hlow.2 hhigh.2 hl₂ hh₂
    · obtain ⟨n₁, rest, taken, hl₁, hh₁, rfl, rfl, hfollow₁⟩ := exists_of_follow hfollow
      obtain ⟨n₂, rest, taken, hl₂, hh₂, rfl, rfl, hfollow₂⟩ := exists_of_follow hfollow₁
      obtain ⟨n₃, rest, taken, hl₃, hh₃, rfl, rfl, hfollow₃⟩ := exists_of_follow hfollow₂
      obtain ⟨rfl, rfl⟩ := follow_nil hfollow₃
      have hlow : 0x80 ≤ n₁ ∧ (bits = 0 → 0x90 ≤ n₁) := by
        split at hl₁ <;> simp at hl₁ <;> omega
      have hhigh : n₁ ≤ 0xBF ∧ (bits = 4 → n₁ ≤ 0x8F) := by
        split at hh₁ <;> simp at hh₁ <;> omega
      exact encode_four hh hlow.1 hhigh.1 hlow.2 hhigh.2 hl₂ hh₂ hl₃ hh₃

/-! ## A text -/

theorem piecesFrom_encode (cs : List Char) (before : List Piece) :
    piecesFrom (cs.flatMap String.utf8EncodeChar) before = (cs.map .char).reverse ++ before := by
  induction cs generalizing before with
  | nil => rw [List.flatMap_nil, piecesFrom, List.map_nil, List.reverse_nil, List.nil_append]
  | cons c cs ih =>
    obtain ⟨b, tail, hc, hp⟩ := piece_encode c (cs.flatMap String.utf8EncodeChar)
    rw [List.flatMap_cons, hc, List.cons_append, piecesFrom, hp]
    simp only [List.drop_left, ih, List.map_cons, List.reverse_cons, List.append_assoc,
      List.cons_append, List.nil_append]

/-- The bytes of a text are read as its characters. -/
theorem pieces_bytes (s : String) : pieces (bytes s) = s.toList.map .char := by
  rw [← s.ofList_toList, bytes_ofList, pieces, piecesFrom_encode, List.append_nil,
    List.reverse_reverse, String.toList_ofList]

@[simp]
theorem symbols_bytes (s : String) : symbols (bytes s) = s.toList.map some := by
  rw [symbols, pieces_bytes, List.flatMap_map]
  exact List.map_eq_flatMap.symm

/-- Nothing is lost of a text. -/
@[simp]
theorem lossy_bytes (s : String) : lossy (bytes s) = s := by
  rw [lossy, pieces_bytes, List.map_map]
  exact (congrArg String.ofList (List.map_id _)).trans s.ofList_toList

/-- Pieces none of which is broken are the characters whose bytes they are. -/
theorem flatMap_of_piecesFrom {bs : Bytes} {before : List Piece} {cs : List Char}
    (h : (piecesFrom bs before).reverse.mapM Piece.char? = some cs) :
    ∃ first last, cs = first ++ last ∧ before.reverse.mapM Piece.char? = some first ∧
      bs = last.flatMap String.utf8EncodeChar := by
  fun_induction piecesFrom bs before generalizing cs with
  | case1 read => exact ⟨cs, [], by simp, h, rfl⟩
  | case2 b rest read p n hp ih =>
    obtain ⟨first, last, rfl, hfirst, hrest⟩ := ih h
    rw [List.reverse_cons, List.mapM_append] at hfirst
    obtain ⟨first, hread, hfirst⟩ := Option.bind_eq_some_iff.mp hfirst
    cases p with
    | broken _ => simp [Piece.char?] at hfirst
    | char c =>
      simp [Piece.char?] at hfirst
      subst hfirst
      refine ⟨first, c :: last, by simp, hread, ?_⟩
      rw [List.flatMap_cons, encode_of_piece hp, ← hrest, List.cons_append, List.take_append_drop]

/-- Bytes are a text exactly where they are the bytes of it. -/
theorem text?_eq_some {bs : Bytes} {s : String} : text? bs = some s ↔ bs = bytes s := by
  constructor
  · intro h
    obtain ⟨cs, hcs, rfl⟩ := Option.map_eq_some_iff.mp h
    obtain ⟨first, last, rfl, hfirst, rfl⟩ := flatMap_of_piecesFrom hcs
    obtain rfl : first = [] := by simpa [eq_comm] using hfirst
    rw [bytes_ofList, List.nil_append]
  · rintro rfl
    have hchars : ∀ cs : List Char, (cs.map Piece.char).mapM Piece.char? = some cs := by
      intro cs
      induction cs with
      | nil => rfl
      | cons c cs ih => simp [Piece.char?, ih]
    rw [text?, pieces_bytes, hchars, Option.map_some, s.ofList_toList]

end Rollout.Text.Utf8
