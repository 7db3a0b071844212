import Rollout.Document.Node
import Rollout.Document.Toml.Strings
import Rollout.Text.Shortest

/-!
# Numbers and dates of settings files

An integer has sixty-four bits with a sign and may be written in four bases, with underscores
between its digits. A number with a fraction or an exponent is a double. A date or a time counts as
an object with a single member that no field has.
-/

namespace Rollout.Document.Toml

/-- Reads digits with single underscores between them: the digits and what follows. -/
def takeDigits (isDigit : Char → Bool) : List Char → List Char × List Char
  | '_' :: c :: rest =>
    if isDigit c then
      let (digits, rest) := takeDigits isDigit rest
      (c :: digits, rest)
    else ([], '_' :: c :: rest)
  | c :: rest =>
    if isDigit c then
      let (digits, rest) := takeDigits isDigit rest
      (c :: digits, rest)
    else ([], c :: rest)
  | [] => ([], [])

/-- Reads digits that begin with a digit. -/
def takeRun? (isDigit : Char → Bool) (cs : List Char) : Option (List Char × List Char) :=
  match cs with
  | c :: _ => if isDigit c then some (takeDigits isDigit cs) else none
  | [] => none

/-- Reads a sign: whether it is a minus, and what follows. -/
def takeSign : List Char → Bool × List Char
  | '+' :: rest => (false, rest)
  | '-' :: rest => (true, rest)
  | cs => (false, cs)

/-- Reads a decimal number behind its sign: a zero stands alone. -/
def takeWhole? (cs : List Char) : Option (List Char × List Char) :=
  match cs with
  | '0' :: rest => some (['0'], rest)
  | _ => takeRun? Char.isDigit cs

/-- The value of digits to a base. -/
def valueOf (base : Nat) (digits : List Char) : Nat :=
  digits.foldl (fun n c => n * base + (hexDigit? c).getD 0) 0

/-- An integer within sixty-four bits. -/
def integerNode? (n : Int) : Option Node :=
  if Int64.minValue.toInt ≤ n ∧ n ≤ Int64.maxValue.toInt then some (.integer n) else none

/-- Reads digits of a base other than ten. -/
def takeBased? (base : Nat) (isDigit : Char → Bool) (cs : List Char) :
    Option (Node × List Char) := do
  let (digits, rest) ← takeRun? isDigit cs
  pure (← integerNode? (valueOf base digits), rest)

/-- Reads an integer. -/
def takeInteger? (cs : List Char) : Option (Node × List Char) :=
  match cs with
  | '0' :: 'x' :: rest => takeBased? 16 (fun c => (hexDigit? c).isSome) rest
  | '0' :: 'o' :: rest => takeBased? 8 (fun c => '0' ≤ c && c ≤ '7') rest
  | '0' :: 'b' :: rest => takeBased? 2 (fun c => c = '0' || c = '1') rest
  | _ => do
    let (negative, rest) := takeSign cs
    let (digits, rest) ← takeWhole? rest
    let n : Int := valueOf 10 digits
    pure (← integerNode? (if negative then -n else n), rest)

/-- The double next to `digits * 10 ^ exponent`. -/
def double (digits : Nat) (exponent : Int) : Float :=
  let size : Int := (Nat.toDigits 10 digits).length
  if digits = 0 ∨ size + exponent < -400 then 0
  else if 400 < size + exponent then 1 / 0
  else Float.ofScientific digits (decide (exponent < 0)) exponent.natAbs

/-- A double as a document. -/
def floatNode (x : Float) : Node := .float (Rollout.Text.plainFloatText x)

/-- Reads an exponent: none when there is none, and nothing at all when it is broken. -/
def takePower? : List Char → Option (Option Int × List Char)
  | c :: rest =>
    if c = 'e' ∨ c = 'E' then do
      let (negative, rest) := takeSign rest
      let (digits, rest) ← takeRun? Char.isDigit rest
      let n : Int := valueOf 10 digits
      pure (some (if negative then -n else n), rest)
    else some (none, c :: rest)
  | [] => some (none, [])

/-- Reads a number with a fraction or an exponent. -/
def takeFloat? (cs : List Char) : Option (Node × List Char) := do
  let (negative, rest) := takeSign cs
  match rest with
  | 'i' :: 'n' :: 'f' :: rest =>
    pure (floatNode (if negative then -(1 / 0) else 1 / 0), rest)
  | 'n' :: 'a' :: 'n' :: rest => pure (floatNode (0 / 0), rest)
  | _ =>
    let (whole, rest) ← takeWhole? rest
    let (fraction, rest) ← match rest with
      | '.' :: rest => do
        let (digits, rest) ← takeRun? Char.isDigit rest
        pure (some digits, rest)
      | rest => pure (none, rest)
    let (power, rest) ← takePower? rest
    if fraction.isNone ∧ power.isNone then none
    else
      let digits := fraction.getD []
      let x := double (valueOf 10 (whole ++ digits)) (power.getD 0 - digits.length)
      if x.isInf ∧ !negative then none else pure (floatNode (if negative then -x else x), rest)

/-! ## Dates and times -/

/-- Reads a number of so many digits. -/
def takeFixed? (count : Nat) (cs : List Char) : Option (Nat × List Char) :=
  let digits := cs.take count
  if digits.length = count ∧ digits.all Char.isDigit then
    some (valueOf 10 digits, cs.drop count)
  else none

/-- Reads a character. -/
def takeMark? (mark : Char) : List Char → Option (List Char)
  | c :: rest => if c = mark then some rest else none
  | [] => none

/-- The days of a month. -/
def daysOf (year month : Nat) : Nat :=
  if month = 2 then if (year % 4 = 0 ∧ year % 100 ≠ 0) ∨ year % 400 = 0 then 29 else 28
  else if month = 4 ∨ month = 6 ∨ month = 9 ∨ month = 11 then 30 else 31

/-- Reads a date. -/
def takeDate? (cs : List Char) : Option (List Char) := do
  let (year, cs) ← takeFixed? 4 cs
  let (month, cs) ← takeFixed? 2 (← takeMark? '-' cs)
  let (day, cs) ← takeFixed? 2 (← takeMark? '-' cs)
  if 1 ≤ month ∧ month ≤ 12 ∧ 1 ≤ day ∧ day ≤ daysOf year month then some cs else none

/-- Reads a time of the day. -/
def takeTime? (cs : List Char) : Option (List Char) := do
  let (hour, cs) ← takeFixed? 2 cs
  let (minute, cs) ← takeFixed? 2 (← takeMark? ':' cs)
  let (second, cs) ← takeFixed? 2 (← takeMark? ':' cs)
  if hour < 24 ∧ minute < 60 ∧ second ≤ 60 then
    match cs with
    | '.' :: rest =>
      match rest.takeWhile Char.isDigit with
      | [] => none
      | _ => some (rest.dropWhile Char.isDigit)
    | cs => some cs
  else none

/-- Reads the distance from universal time, if it is there. -/
def takeOffset (cs : List Char) : List Char :=
  match cs with
  | 'Z' :: rest | 'z' :: rest => rest
  | c :: rest =>
    if c = '+' ∨ c = '-' then
      (do
        let (hour, rest) ← takeFixed? 2 rest
        let (minute, rest) ← takeFixed? 2 (← takeMark? ':' rest)
        if hour < 24 ∧ minute < 60 then some rest else none).getD cs
    else cs
  | [] => []

/-- The member that stands for a date. -/
def dateMember : String := "$__toml_private_datetime"

/-- Reads a date, a time, or both. -/
def takeMoment? (cs : List Char) : Option (Node × List Char) := do
  let rest ← match takeDate? cs with
    | some rest =>
      match rest with
      | c :: after =>
        if c = 'T' ∨ c = 't' ∨ c = ' ' then
          some (((takeTime? after).map takeOffset).getD rest)
        else some rest
      | [] => some rest
    | none => takeTime? cs
  let text := cs.take (cs.length - rest.length)
  pure (.object (.ofList [(dateMember, .string (.ok (String.ofList text)))]), rest)

/-- Reads a value that begins with a sign or a digit. -/
def takeNumber? (cs : List Char) : Option (Node × List Char) :=
  match takeMoment? cs with
  | some r => some r
  | none =>
    match takeFloat? cs with
    | some r => some r
    | none => takeInteger? cs

end Rollout.Document.Toml
