import Rollout.Net.Ip
import Rollout.Text.Path

/-!
# Addresses of hosts

What the system makes of the name of a host where no name server answers.

* `HostAddress.numeric?` is an address written as such: one to four numbers between points, of which
  the last one fills the rest of the address, or an address of version 6 with or without its zone.
* `HostAddress.isName` says whether a name server would be asked at all.
* `HostAddress.resolve` is the address of a host or the reason why none is found. The only name that
  is known without a name server is that of this machine.
-/

namespace Rollout

/-- An address of a host, with the number of the zone in which it holds. -/
structure HostAddress where
  ip : IpAddr
  zone : Nat
deriving DecidableEq, Repr

/-- What keeps a name from leading to an address. -/
inductive HostFault where
  | holdsNull
  | noName
  | noAnswer
deriving DecidableEq, Repr

/-- What is wrong, in words. -/
def HostFault.message : HostFault → String
  | holdsNull => "file name contained an unexpected NUL byte"
  | noName => "failed to lookup address information: Name or service not known"
  | noAnswer => "failed to lookup address information: Temporary failure in name resolution"

namespace HostAddress

/-! ## Numbers -/

/-- The value of digits of a base, if there are any and no other characters. -/
def digitsValue? (base : Nat) (cs : List Char) : Option Nat :=
  if cs.isEmpty || !cs.all fun c => Ipv6.isHexDigit c && Ipv6.hexDigit c < base then none
  else some (cs.foldl (fun n c => n * base + Ipv6.hexDigit c) 0)

/-- The value of a number: hexadecimal behind `0x`, octal behind `0`, otherwise decimal. -/
def partValue? (cs : List Char) : Option Nat :=
  match cs with
  | '0' :: 'x' :: rest | '0' :: 'X' :: rest => digitsValue? 16 rest
  | '0' :: _ => digitsValue? 8 cs
  | _ => digitsValue? 10 cs

/-- The number that up to four parts make, the last of which fills what the others leave. -/
def joinParts? : Nat → List Nat → Option Nat
  | _, [] => none
  | room, [last] => if last < Nat.pow 256 room then some last else none
  | room + 1, part :: rest =>
    if part < 256 then (joinParts? room rest).map (part * Nat.pow 256 room + ·) else none
  | 0, _ :: _ :: _ => none

/-- The address of version 4 with a number. -/
def ofNumber (n : Nat) : Ipv4 :=
  ⟨UInt8.ofNat (n / 0x1000000), UInt8.ofNat (n / 0x10000), UInt8.ofNat (n / 0x100), UInt8.ofNat n⟩

/-- Reads an address of version 4 in any of its spellings. -/
def readV4? (cs : List Char) : Option Ipv4 := do
  let parts ← (Text.Path.split '.' cs).mapM partValue?
  let number ← if parts.length ≤ 4 then joinParts? 4 parts else none
  pure (ofNumber number)

/-- The number of a zone. -/
def zone? (cs : List Char) : Option Nat := (Text.Decimal.read? cs).filter (· < UInt32.size)

/-- Reads an address of version 6, with a zone or without. -/
def readV6? (cs : List Char) : Option HostAddress := do
  let (ip, rest) ← Ipv6.take? cs
  match rest with
  | [] => pure ⟨.v6 ip, 0⟩
  | '%' :: zone => pure ⟨.v6 ip, ← zone? zone⟩
  | _ => none

/-- Reads an address that is written as such. -/
def numeric? (cs : List Char) : Option HostAddress :=
  match readV4? cs with
  | some ip => some ⟨.v4 ip, 0⟩
  | none => readV6? cs

/-! ## Names -/

/-- The most characters of a name, without a point behind it. -/
def maxName : Nat := 253

/-- The most characters of a part of a name. -/
def maxLabel : Nat := 63

/-- Whether characters are a part of a name. -/
def isLabel (cs : List Char) : Bool :=
  !cs.isEmpty && cs.length ≤ maxLabel && cs.all fun c => c.isAlphanum || c = '-' || c = '_'

/-- A name without the point that may end it. -/
def dropPoint (cs : List Char) : List Char :=
  match cs.reverse with
  | '.' :: rest => rest.reverse
  | _ => cs

/-- Whether characters are a name: labels between points, or the point of the root. It does not
begin with a dash. -/
def isName (cs : List Char) : Bool :=
  if cs = ['.'] then true
  else
    let name := dropPoint cs
    name.length ≤ maxName && name.head? != some '-' && (Text.Path.split '.' name).all isLabel

/-- The address of this machine. -/
def loopback : HostAddress := ⟨.v4 ⟨127, 0, 0, 1⟩, 0⟩

/-- Whether a host is this machine. -/
def isLocal (cs : List Char) : Bool := cs = ['*'] || cs.map Char.toLower = "localhost".toList

/-- The address of a host. -/
def resolve (cs : List Char) : Except HostFault HostAddress :=
  if '\x00' ∈ cs then .error .holdsNull
  else if isLocal cs then .ok loopback
  else
    match numeric? cs with
    | some h => .ok h
    | none => .error (if isName cs then .noAnswer else .noName)

end HostAddress

end Rollout
