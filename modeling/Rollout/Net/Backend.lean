import Rollout.Net.Ip

/-!
# Backends

A backend is an address and a port. It is the key of a pool member and the target of an upgrade.

* `Backend.text` puts brackets around an address of version 6.
* `Backend.read` accepts an address, a colon and a port from 1 to 65534. An address of version 6
  must stand in brackets, one of version 4 may. The port is any spelling that
  `Text.Decimal.readUnsigned?` knows.
* `AddressFault` says what is wrong with any other text. Of several faults the first one counts, in
  the order of the constructors.
-/

namespace Rollout

/-- A pool member and rollout target. -/
structure Backend where
  ip : IpAddr
  port : UInt16
deriving DecidableEq, Repr, Inhabited

/-- What keeps a text from being an address with a port. -/
inductive AddressFault where
  | missingPort
  | unterminatedBracket
  | tooManyColons
  | notAnAddress
  | invalidPort (port : Nat)
deriving DecidableEq, Repr

/-- What is wrong, in words. -/
def AddressFault.message : AddressFault → String
  | missingPort => "missing port"
  | unterminatedBracket => "unterminated IPv6 bracket"
  | tooManyColons => "too many colons in address"
  | notAnAddress => "host is not an IP address"
  | invalidPort port => "invalid port: " ++ Text.Decimal.text port

namespace Backend

/-- The highest port of an address. -/
def maxPort : Nat := 65534

/-- The address and port, with brackets around an address of version 6. -/
def text (b : Backend) : String :=
  (match b.ip with
    | .v4 ip => ip.text
    | .v6 ip => "[" ++ ip.text ++ "]") ++ ":" ++ Text.Decimal.text b.port.toNat

/-- The texts before and after the last colon. -/
def splitPort? (cs : List Char) : Option (List Char × List Char) :=
  let reversed := cs.reverse
  match reversed.dropWhile (· != ':') with
  | [] => none
  | _ :: host => some (host.reverse, (reversed.takeWhile (· != ':')).reverse)

/-- The text between the brackets of a host, or the host itself when it does not open one. -/
def unbracket (host : List Char) : Except AddressFault (List Char) :=
  match host with
  | '[' :: inner =>
    match inner.reverse with
    | ']' :: reversed => .ok reversed.reverse
    | _ => .error .unterminatedBracket
  | _ => if ':' ∈ host then .error .tooManyColons else .ok host

/-- The value of a port, where a text that is no number below `2^32` counts as zero. -/
def portValue (cs : List Char) : Nat := (Text.Decimal.readUnsigned? UInt32.size cs).getD 0

/-- The port that a text names. -/
def readPort (cs : List Char) : Except AddressFault UInt16 :=
  let port := portValue cs
  if 1 ≤ port ∧ port ≤ maxPort then .ok (UInt16.ofNat port) else .error (.invalidPort port)

/-- The backend that characters name. -/
def readChars (cs : List Char) : Except AddressFault Backend := do
  match splitPort? cs with
  | none => .error .missingPort
  | some (host, port) =>
    let inner ← unbracket host
    match IpAddr.readChars? inner with
    | none => .error .notAnAddress
    | some ip => return ⟨ip, ← readPort port⟩

/-- The backend that a text names. -/
def read (s : String) : Except AddressFault Backend := readChars s.toList

end Backend

end Rollout
