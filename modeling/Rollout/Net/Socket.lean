import Rollout.Files.IoError
import Rollout.Net.Backend
import Rollout.Net.HostAddress

/-!
# Addresses to connect to

The spellings of an address that a connection accepts, and how connecting fails where no network is
up. The spellings differ from those of a backend: an address of version 6 may have a zone, one of
version 4 has no brackets, and a port of zero is allowed.
-/

namespace Rollout

/-- What keeps a text from being an address to connect to. -/
inductive SocketFault where
  | noPort
  | badPort
  | badHost (fault : HostFault)
deriving DecidableEq, Repr

/-- What is wrong, in words. -/
def SocketFault.message : SocketFault → String
  | noPort => "invalid socket address"
  | badPort => "invalid port value"
  | badHost fault => fault.message

/-- A host and a port. -/
structure Socket where
  host : HostAddress
  port : UInt16
deriving DecidableEq, Repr

namespace Socket

/-- The port of digits. -/
def port? (cs : List Char) : Option UInt16 :=
  ((Text.Decimal.read? cs).filter (· < UInt16.size)).map UInt16.ofNat

/-- The host between brackets: groups, and the number of a zone behind a percent sign. -/
def bracketed? (inner : List Char) : Option (HostAddress × List Char) := do
  let (ip, rest) ← Ipv6.take? inner
  match rest with
  | '%' :: rest =>
    pure (⟨.v6 ip, ← HostAddress.zone? (rest.takeWhile Char.isDigit)⟩, rest.dropWhile Char.isDigit)
  | rest => pure (⟨.v6 ip, 0⟩, rest)

/-- Reads an address that is written in full: octets, or groups between brackets, and a port of
digits. -/
def literal? (cs : List Char) : Option Socket :=
  match cs with
  | '[' :: inner =>
    match bracketed? inner with
    | some (host, ']' :: ':' :: port) => (port? port).map (⟨host, ·⟩)
    | _ => none
  | _ =>
    match Ipv4.take? cs with
    | some (ip, ':' :: port) => (port? port).map (⟨⟨.v4 ip, 0⟩, ·⟩)
    | _ => none

/-- The address that a text names to a connection. -/
def read (s : String) : Except SocketFault Socket :=
  match literal? s.toList with
  | some socket => .ok socket
  | none =>
    match Backend.splitPort? s.toList with
    | none => .error .noPort
    | some (host, port) =>
      match (Text.Decimal.readUnsigned? UInt16.size port).map UInt16.ofNat with
      | none => .error .badPort
      | some port =>
        match HostAddress.resolve host with
        | .error fault => .error (.badHost fault)
        | .ok host => .ok ⟨host, port⟩

end Socket

/-! ## Without a network -/

/-- How connecting to a host fails where no network is up. An address of version 6 that embeds one
of version 4 counts as that, and one that holds on a single link needs its zone. -/
def HostAddress.failure (h : HostAddress) : IoError :=
  match h.ip with
  | .v4 _ => .unreachable
  | .v6 ip =>
    if ip.isMulticast || ip.isMapped then .unreachable
    else if ip.isLinkLocal && h.zone == 0 then .invalidArgument
    else .noLocalAddress

/-- Why a connection fails where no network is up. -/
def Socket.unreachableReason (addr : String) : String :=
  match read addr with
  | .error fault => fault.message
  | .ok socket => socket.host.failure.message

end Rollout
