import Rollout.Text.Decimal

/-!
# IP addresses

Addresses of both versions and their text.

* `IpAddr.text` writes four decimal octets, or hexadecimal groups where two colons stand for the
  first longest run of at least two zero groups. An address that embeds a version 4 address ends in
  its octets.
* `IpAddr.read?` accepts that text and every other spelling: groups of up to four digits in either
  case, two colons for any run of zero groups, and octets in the place of the last two groups.
-/

namespace Rollout

/-- An address of version 4: its octets from the left. -/
structure Ipv4 where
  a : UInt8
  b : UInt8
  c : UInt8
  d : UInt8
deriving DecidableEq, Repr, Inhabited

/-- An address of version 6: its groups of sixteen bits from the left. -/
structure Ipv6 where
  groups : Vector UInt16 8
deriving DecidableEq, Repr, Inhabited

/-- An address of either version. -/
inductive IpAddr where
  | v4 (address : Ipv4)
  | v6 (address : Ipv6)
deriving DecidableEq, Repr, Inhabited

namespace Ipv4

/-- Four decimal octets. -/
def text (ip : Ipv4) : String :=
  ".".intercalate [Text.Decimal.text ip.a.toNat, Text.Decimal.text ip.b.toNat,
    Text.Decimal.text ip.c.toNat, Text.Decimal.text ip.d.toNat]

/-- The value of an octet: up to three digits, no zero in front. -/
def readOctet? (digits : List Char) : Option UInt8 :=
  if digits.length ≤ 3 ∧ (digits.head? = some '0' → digits.length = 1) then
    ((Text.Decimal.read? digits).filter (· < 256)).map UInt8.ofNat
  else none

/-- Reads an octet at the front of a text. -/
def octet? (cs : List Char) : Option (UInt8 × List Char) :=
  (readOctet? (cs.takeWhile Char.isDigit)).map (·, cs.dropWhile Char.isDigit)

/-- Reads an octet behind a point. -/
def pointOctet? : List Char → Option (UInt8 × List Char)
  | '.' :: rest => octet? rest
  | _ => none

/-- Reads an address at the front of a text. -/
def take? (cs : List Char) : Option (Ipv4 × List Char) := do
  let (a, cs) ← octet? cs
  let (b, cs) ← pointOctet? cs
  let (c, cs) ← pointOctet? cs
  let (d, cs) ← pointOctet? cs
  pure (⟨a, b, c, d⟩, cs)

/-- Reads a whole text. -/
def read? (cs : List Char) : Option Ipv4 :=
  (take? cs).bind fun (ip, rest) => if rest.isEmpty then some ip else none

/-- The two groups that an embedded address fills. -/
def groups (ip : Ipv4) : List UInt16 :=
  [UInt16.ofNat (ip.a.toNat * 256 + ip.b.toNat), UInt16.ofNat (ip.c.toNat * 256 + ip.d.toNat)]

/-- The address that fills two groups. -/
def ofGroups (high low : UInt16) : Ipv4 :=
  ⟨(high >>> 8).toUInt8, high.toUInt8, (low >>> 8).toUInt8, low.toUInt8⟩

end Ipv4

namespace Ipv6

/-! ## Kinds -/

/-- Whether an address names a group of receivers. -/
def isMulticast (ip : Ipv6) : Bool := ip.groups[0] >>> 8 == 0xFF

/-- Whether an address holds on a single link. -/
def isLinkLocal (ip : Ipv6) : Bool := ip.groups[0] &&& 0xFFC0 == 0xFE80

/-- Whether an address embeds one of version 4. -/
def isMapped (ip : Ipv6) : Bool := ip.groups.toList.take 6 == [0, 0, 0, 0, 0, 0xFFFF]

/-! ## Writing -/

/-- Groups between colons. -/
def groupsText (groups : List UInt16) : String :=
  ":".intercalate (groups.map fun g => Text.Decimal.hexText g.toNat)

/-- The number of zero groups at the front. -/
def zeros (groups : List UInt16) : Nat := (groups.takeWhile (· = 0)).length

/-- The first longest run of zero groups: where it begins and how long it is. -/
def longestRun : List UInt16 → Nat → Nat × Nat
  | [], at_ => (at_, 0)
  | groups@(_ :: rest), at_ =>
    let later := longestRun rest (at_ + 1)
    let here := zeros groups
    if later.2 ≤ here then (at_, here) else later

/-- The text of an address. -/
def text (ip : Ipv6) : String :=
  match ip.groups.toList with
  | [0, 0, 0, 0, 0, 0xFFFF, high, low] => "::ffff:" ++ (Ipv4.ofGroups high low).text
  | groups =>
    let (start, length) := longestRun groups 0
    if 1 < length then
      groupsText (groups.take start) ++ "::" ++ groupsText (groups.drop (start + length))
    else groupsText groups

/-! ## Reading -/

/-- Whether a character is a hexadecimal digit. -/
def isHexDigit (c : Char) : Bool := c.isDigit || ('a' ≤ c && c ≤ 'f') || ('A' ≤ c && c ≤ 'F')

/-- The value of a hexadecimal digit. -/
def hexDigit (c : Char) : Nat :=
  if c.isDigit then c.toNat - 48 else if 'a' ≤ c then c.toNat - 87 else c.toNat - 55

/-- Reads a group at the front of a text: one to four hexadecimal digits and no fifth. -/
def group? (cs : List Char) : Option (UInt16 × List Char) :=
  let digits := cs.takeWhile isHexDigit
  if digits.isEmpty || 4 < digits.length then none
  else
    let value := digits.foldl (fun n c => n * 16 + hexDigit c) 0
    some (UInt16.ofNat value, cs.dropWhile isHexDigit)

/-- Drops the colon in front of a group that is not the first. -/
def separator? (first : Bool) : List Char → Option (List Char)
  | cs@(c :: rest) => if first then some cs else if c = ':' then some rest else none
  | [] => if first then some [] else none

/-- Reads up to `room` groups: the groups, whether octets filled the last two, and the rest. Octets
are tried first wherever two groups have room. -/
def takeGroups : Nat → Bool → List Char → List UInt16 × Bool × List Char
  | 0, _, cs => ([], false, cs)
  | room + 1, first, cs =>
    match separator? first cs with
    | none => ([], false, cs)
    | some after =>
      match if 0 < room then Ipv4.take? after else none with
      | some (ip, rest) => (ip.groups, true, rest)
      | none =>
        match group? after with
        | none => ([], false, cs)
        | some (g, rest) =>
          let (gs, octets, rest) := takeGroups room false rest
          (g :: gs, octets, rest)

/-- The address of eight groups. -/
def ofGroups? (groups : List UInt16) : Option Ipv6 :=
  if h : groups.length = 8 then some ⟨⟨groups.toArray, by simpa using h⟩⟩ else none

/-- Reads an address at the front of a text. Two colons stand for at least one zero group, and
octets do not stand before them. -/
def take? (cs : List Char) : Option (Ipv6 × List Char) :=
  let (front, octets, rest) := takeGroups 8 true cs
  if front.length = 8 then (ofGroups? front).map (·, rest)
  else if octets then none
  else match rest with
    | ':' :: ':' :: rest =>
      let (back, _, rest) := takeGroups (7 - front.length) true rest
      let middle := List.replicate (8 - front.length - back.length) 0
      (ofGroups? (front ++ middle ++ back)).map (·, rest)
    | _ => none

/-- Reads a whole text. -/
def read? (cs : List Char) : Option Ipv6 :=
  (take? cs).bind fun (ip, rest) => if rest.isEmpty then some ip else none

end Ipv6

namespace IpAddr

/-- The text of an address. -/
def text : IpAddr → String
  | .v4 ip => ip.text
  | .v6 ip => ip.text

/-- Reads a whole text as an address of version 4 or else of version 6. -/
def readChars? (cs : List Char) : Option IpAddr :=
  match Ipv4.read? cs with
  | some ip => some (.v4 ip)
  | none => (Ipv6.read? cs).map .v6

/-- Reads a whole text. -/
def read? (s : String) : Option IpAddr := readChars? s.toList

/-- Whether an address has version 6. -/
def isV6 : IpAddr → Bool
  | .v4 _ => false
  | .v6 _ => true

end IpAddr

end Rollout
