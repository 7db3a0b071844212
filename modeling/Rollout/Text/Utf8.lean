/-!
# UTF-8

Bytes as text and text as bytes.

* `pieces` cuts a byte string into characters and broken runs. A broken run is a longest beginning
  of a character that the bytes after it do not complete, or one byte that begins none.
* `text?` is the text of bytes without a broken run.
* `lossy` puts the replacement character in the place of each broken run.
* `symbols` keeps undecodable places in view as `none`, for readers that reject them only where
  the text matters.
-/

namespace Rollout

/-- A string of bytes. -/
abbrev Bytes := List UInt8

namespace Text.Utf8

/-- A character, or bytes that are no part of one. -/
inductive Piece where
  | char (c : Char)
  | broken (bytes : Bytes)
deriving Repr, DecidableEq

/-- The character of a piece that is not broken. -/
def Piece.char? : Piece → Option Char
  | .char c => some c
  | .broken _ => none

/-- What a first byte promises: the bits it holds and the range of each byte that must follow. -/
inductive Lead where
  | complete (code : Nat)
  | continued (bits : Nat) (ranges : List (UInt8 × UInt8))
  | none
deriving Repr

/-- The range of every continuation byte but the second of some characters. -/
def continuation : UInt8 × UInt8 := (0x80, 0xBF)

/-- The well-formed first bytes. The range of the second byte excludes overlong forms, surrogates
and codes above `0x10FFFF`. -/
def lead (b : UInt8) : Lead :=
  if b < 0x80 then .complete b.toNat
  else if b < 0xC2 then .none
  else if b < 0xE0 then .continued (b.toNat - 0xC0) [continuation]
  else if b = 0xE0 then .continued 0 [(0xA0, 0xBF), continuation]
  else if b = 0xED then .continued 0xD [(0x80, 0x9F), continuation]
  else if b < 0xF0 then .continued (b.toNat - 0xE0) [continuation, continuation]
  else if b = 0xF0 then .continued 0 [(0x90, 0xBF), continuation, continuation]
  else if b < 0xF4 then .continued (b.toNat - 0xF0) [continuation, continuation, continuation]
  else if b = 0xF4 then .continued 4 [(0x80, 0x8F), continuation, continuation]
  else .none

/-- Takes one byte from each range: the bytes taken and, when all ranges were met, the code. -/
def follow : List (UInt8 × UInt8) → Nat → Bytes → Bytes × Option Nat
  | [], code, _ => ([], some code)
  | _ :: _, _, [] => ([], none)
  | (low, high) :: ranges, code, b :: rest =>
    if low ≤ b ∧ b ≤ high then
      let (taken, result) := follow ranges (code * 64 + (b.toNat - 0x80)) rest
      (b :: taken, result)
    else ([], none)

/-- The piece that begins with `b`, and how many of the bytes after `b` belong to it. -/
def piece (b : UInt8) (rest : Bytes) : Piece × Nat :=
  match lead b with
  | .complete code => (.char (Char.ofNat code), 0)
  | .none => (.broken [b], 0)
  | .continued bits ranges =>
    match follow ranges bits rest with
    | (taken, some code) => (.char (Char.ofNat code), taken.length)
    | (taken, none) => (.broken (b :: taken), taken.length)

/-- The pieces of a byte string in reverse, before those already read. -/
def piecesFrom : Bytes → List Piece → List Piece
  | [], read => read
  | b :: rest, read =>
    let (p, n) := piece b rest
    piecesFrom (rest.drop n) (p :: read)
termination_by bytes => bytes.length
decreasing_by simp only [List.length_drop, List.length_cons]; omega

/-- The characters and broken runs of a byte string, in order. -/
def pieces (bytes : Bytes) : List Piece := (piecesFrom bytes []).reverse

/-- The text of well-formed bytes. -/
def text? (bytes : Bytes) : Option String :=
  ((pieces bytes).mapM Piece.char?).map String.ofList

/-- Text with the replacement character for every broken run. -/
def lossy (bytes : Bytes) : String :=
  String.ofList ((pieces bytes).map fun | .char c => c | .broken _ => '\uFFFD')

/-- The characters in order, with `none` for every byte that is no part of one. -/
def symbols (bytes : Bytes) : List (Option Char) :=
  (pieces bytes).flatMap fun | .char c => [some c] | .broken bs => bs.map fun _ => none

/-- The bytes of a text. -/
def bytes (s : String) : Bytes := s.toUTF8.toList

/-- The number of bytes of a symbol: an undecodable place is one byte. -/
def symbolSize : Option Char → Nat
  | some c => c.utf8Size
  | none => 1

end Text.Utf8

end Rollout
