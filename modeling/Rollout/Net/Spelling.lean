import Rollout.Net.Backend

/-!
# How addresses are spelled

Which characters stand for an address, said without the functions that read them.

* An address of version 4 has one spelling, its text.
* `Ipv6.Spells`: eight groups with colons between them, or fewer and two colons for the zeros that
  are missing. A group has up to four digits in either case, and octets may fill the last two.
* `Backend.Names`: a host, a colon and a port. The host is an address of version 4, or one of either
  version in brackets.
* `Backend.Direct`: the name of a backend is the address of a connection as it stands.
* `Backend.Lacks`: what the first fault is of characters that name no backend.
-/

namespace Rollout

namespace Ipv6

/-- Whether characters are a group: one to four hexadecimal digits in either case. -/
structure SpellsGroup (cs : List Char) (g : UInt16) : Prop where
  nonempty : cs ≠ []
  length_le : cs.length ≤ 4
  digits : ∀ c ∈ cs, isHexDigit c = true
  value_eq : cs.foldl (fun n c => n * 16 + hexDigit c) 0 = g.toNat

/-- Whether characters are groups with a colon in front of each, and whether octets fill the last
two. -/
inductive SpellsRest : List Char → List UInt16 → Bool → Prop
  | none : SpellsRest [] [] false
  | octets {cs : List Char} {ip : Ipv4} : cs = ip.text.toList →
    SpellsRest (':' :: cs) ip.groups true
  | group {cs rest : List Char} {g : UInt16} {gs : List UInt16} {octets : Bool} :
    SpellsGroup cs g → SpellsRest rest gs octets →
      SpellsRest (':' :: (cs ++ rest)) (g :: gs) octets

/-- Whether characters are groups with colons between them, and whether octets fill the last two. -/
def SpellsGroups (cs : List Char) (gs : List UInt16) (octets : Bool) : Prop :=
  (cs = [] ∧ gs = [] ∧ octets = false) ∨ SpellsRest (':' :: cs) gs octets

/-- Whether characters are an address: all its groups, or those before and after a run of zeros that
two colons stand for. Octets do not stand before the run. -/
inductive Spells : List Char → Ipv6 → Prop
  | full {cs : List Char} {ip : Ipv6} {octets : Bool} :
    SpellsGroups cs ip.groups.toList octets → Spells cs ip
  | short {front back : List Char} {before after : List UInt16} {ip : Ipv6} {count : Nat}
      {octets : Bool} :
    SpellsGroups front before false → SpellsGroups back after octets → 0 < count →
      ip.groups.toList = before ++ List.replicate count 0 ++ after →
      Spells (front ++ ':' :: ':' :: back) ip

end Ipv6

/-- Whether characters are an address of either version. -/
inductive IpAddr.Spells : List Char → IpAddr → Prop
  | v4 (ip : Ipv4) : Spells ip.text.toList (.v4 ip)
  | v6 {cs : List Char} {ip : Ipv6} : Ipv6.Spells cs ip → Spells cs (.v6 ip)

namespace Backend

/-- Whether characters are the host of a backend. -/
inductive SpellsHost : List Char → IpAddr → Prop
  | plain (ip : Ipv4) : SpellsHost ip.text.toList (.v4 ip)
  | bracketed {inner : List Char} {ip : IpAddr} : IpAddr.Spells inner ip →
    SpellsHost ('[' :: inner ++ [']']) ip

/-- Whether characters are a host and a port, with the last colon between them. -/
def Parts (cs host port : List Char) : Prop := cs = host ++ ':' :: port ∧ ':' ∉ port

/-- Whether characters name a backend: its host, a colon and its port. -/
def Names (cs : List Char) (b : Backend) : Prop :=
  ∃ host port, Parts cs host port ∧ SpellsHost host b.ip ∧
    Text.Decimal.SpellsUnsigned port b.port.toNat ∧ 1 ≤ b.port.toNat ∧ b.port.toNat ≤ maxPort

/-- Whether characters that name a backend are an address to connect to as they stand: one of
version 4 has no brackets, and behind one of version 6 the port has no sign. -/
def Direct (cs : List Char) (b : Backend) : Prop :=
  match b.ip with
  | .v4 _ => cs.head? ≠ some '['
  | .v6 _ => ∀ host port, Parts cs host port → port.head? ≠ some '+'

/-- What a host says: what stands in its brackets, or all of it when it has neither a bracket in
front nor a colon. -/
inductive Says : List Char → List Char → Prop
  | bracketed (inner : List Char) : Says ('[' :: inner ++ [']']) inner
  | plain {host : List Char} : host.head? ≠ some '[' → ':' ∉ host → Says host host

/-- The number that is shown for the characters of a port: that which they stand for when it has 32
bits, and zero when they stand for none. -/
inductive ShowsPort : List Char → Nat → Prop
  | number {port : List Char} {n : Nat} : Text.Decimal.SpellsUnsigned port n → n < UInt32.size →
    ShowsPort port n
  | noNumber {port : List Char} :
    (∀ n, Text.Decimal.SpellsUnsigned port n → UInt32.size ≤ n) → ShowsPort port 0

/-- What the first fault is of characters that name no backend. -/
inductive Lacks (cs : List Char) : AddressFault → Prop
  | missingPort : ':' ∉ cs → Lacks cs .missingPort
  | unterminatedBracket {host port : List Char} : Parts cs host port → host.head? = some '[' →
    host.getLast? ≠ some ']' → Lacks cs .unterminatedBracket
  | tooManyColons {host port : List Char} : Parts cs host port → host.head? ≠ some '[' →
    ':' ∈ host → Lacks cs .tooManyColons
  | notAnAddress {host port inner : List Char} : Parts cs host port → Says host inner →
    (∀ ip, ¬ IpAddr.Spells inner ip) → Lacks cs .notAnAddress
  | invalidPort {host port inner : List Char} {ip : IpAddr} {n : Nat} : Parts cs host port →
    Says host inner → IpAddr.Spells inner ip → ShowsPort port n → ¬ (1 ≤ n ∧ n ≤ maxPort) →
      Lacks cs (.invalidPort n)

end Backend

end Rollout
