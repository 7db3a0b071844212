import Rollout.Fleet.Basic
import Rollout.Net.Socket
import Rollout.Proofs.Net.Backend
import Rollout.Proofs.Text.Path

/-!
# Connections to backends

Where a connection leads that is given the text of a backend as it was configured.

* `HostAddress.resolve_text`: a host of version 4 is its own address.
* `HostAddress.resolve_bracket`: what begins with a bracket is no host at all.
* `Socket.accepted_connects`: a text that names a backend leads to it where it is `Backend.Direct`,
  and nowhere else.
-/

namespace Rollout

open Text.Decimal (spells_toDigits)

namespace HostAddress

variable {cs rest : List Char}

/-! ## Addresses of version 4 -/

/-- A decimal number is a part of an address. -/
theorem partValue?_toDigits (n : Nat) : partValue? (Nat.toDigits 10 n) = some n := by
  have hdigits : ∀ c ∈ Nat.toDigits 10 n, (Ipv6.isHexDigit c && Ipv6.hexDigit c < 10) = true := by
    intro c hc
    obtain ⟨d, hd, rfl⟩ := Text.Decimal.exists_of_mem_toDigits (by decide) hc
    simp [Ipv6.isHexDigit_digitChar d (by omega), Ipv6.hexDigit_digitChar d (by omega), hd]
  have hvalue : digitsValue? 10 (Nat.toDigits 10 n) = some n := by
    have hfold : (Nat.toDigits 10 n).foldl (fun n c => n * 10 + Ipv6.hexDigit c) 0 = n :=
      Text.Decimal.foldl_toDigits (by decide) (fun d hd => Ipv6.hexDigit_digitChar d (by omega)) n
    rw [digitsValue?, if_neg, hfold]
    simpa [Nat.toDigits_ne_nil] using hdigits
  -- A zero in front would make it octal, but only zero begins with one.
  unfold partValue?
  split
  all_goals first
    | exact hvalue
    | rename_i rest heq
      have hn : n = 0 := Text.Decimal.head_toDigits (b := 10) (by decide) (by rw [heq]; rfl)
      subst hn
      cases heq
      try rfl

theorem readV4?_text (ip : Ipv4) : readV4? ip.text.toList = some ip := by
  have hpoint : ∀ n : Nat, '.' ∉ Nat.toDigits 10 n := fun n h =>
    absurd (Text.Decimal.isDigit_toDigits h) (by decide)
  obtain ⟨a, b, c, d⟩ := ip
  have ha := a.toNat_lt
  have hb := b.toNat_lt
  have hc := c.toNat_lt
  have hd := d.toNat_lt
  have hsplit : Text.Path.split '.' (Ipv4.mk a b c d).text.toList =
      [Nat.toDigits 10 a.toNat, Nat.toDigits 10 b.toNat, Nat.toDigits 10 c.toNat,
        Nat.toDigits 10 d.toNat] := by
    simp [Ipv4.toList_text, Text.Path.split_append_sep, Text.Path.split_of_not_mem (hpoint _)]
  have hjoin : joinParts? 4 [a.toNat, b.toNat, c.toNat, d.toNat] =
      some (a.toNat * 0x1000000 + (b.toNat * 0x10000 + (c.toNat * 0x100 + d.toNat))) := by
    simp [joinParts?, show a.toNat < 256 from ha, show b.toNat < 256 from hb,
      show c.toNat < 256 from hc, show d.toNat < 256 from hd]
  have hnumber :
      ofNumber (a.toNat * 0x1000000 + (b.toNat * 0x10000 + (c.toNat * 0x100 + d.toNat))) =
        ⟨a, b, c, d⟩ := by
    simp only [ofNumber, Ipv4.mk.injEq, ← UInt8.toNat_inj, UInt8.toNat_ofNat']
    omega
  rw [readV4?, hsplit]
  simp [partValue?_toDigits, hjoin, hnumber]

/-- A host of version 4 is its own address. -/
theorem resolve_text (ip : Ipv4) : resolve ip.text.toList = .ok ⟨.v4 ip, 0⟩ := by
  have hnull : '\x00' ∉ ip.text.toList := fun h =>
    (Ipv4.of_mem_text h).elim (absurd · (by decide)) (absurd · (by decide))
  have hpoint : '.' ∈ ip.text.toList := by simp [Ipv4.toList_text]
  have hlocal : ¬ isLocal ip.text.toList = true := by
    simp only [isLocal, Bool.or_eq_true, decide_eq_true_eq, not_or]
    exact ⟨fun h => absurd (h ▸ hpoint) (by decide),
      fun h => absurd (h ▸ List.mem_map_of_mem (f := Char.toLower) hpoint) (by decide)⟩
  rw [resolve, if_neg hnull, if_neg hlocal, numeric?, readV4?_text]

/-! ## Brackets -/

theorem readV4?_bracket (rest : List Char) : readV4? ('[' :: rest) = none := by
  obtain ⟨part, parts, hsplit⟩ := Text.Path.exists_split_cons (by decide : '[' ≠ '.') rest
  have hpart : partValue? ('[' :: part) = none := by
    simp [partValue?, digitsValue?, Ipv6.isHexDigit]
  simp [readV4?, hsplit, hpart]

theorem take?_bracket (rest : List Char) : Ipv6.take? ('[' :: rest) = none := by
  have hv4 : Ipv4.take? ('[' :: rest) = none := Ipv4.take?_eq_none (by simp [Char.isDigit])
  have hgroup : Ipv6.group? ('[' :: rest) = none := by simp [Ipv6.group?, Ipv6.isHexDigit]
  rw [Ipv6.take?, Ipv6.takeGroups_stop (Ipv6.separator?_first _) hv4 hgroup]
  rfl

theorem isName_bracket (rest : List Char) : isName ('[' :: rest) = false := by
  have hname : ∃ tail, dropPoint ('[' :: rest) = '[' :: tail := by
    unfold dropPoint
    split
    · rename_i reversed hrev
      have hrest : '[' :: rest = reversed.reverse ++ ['.'] := by
        rw [← List.reverse_cons, ← hrev, List.reverse_reverse]
      cases hfront : reversed.reverse with
      | nil =>
        rw [hfront] at hrest
        cases hrest
      | cons c front =>
        rw [hfront] at hrest
        exact ⟨front, by rw [(List.cons.inj hrest).1]⟩
    · exact ⟨rest, rfl⟩
  obtain ⟨tail, hname⟩ := hname
  obtain ⟨part, parts, hsplit⟩ := Text.Path.exists_split_cons (by decide : '[' ≠ '.') tail
  have hlabel : isLabel ('[' :: part) = false := by simp [isLabel]
  simp [isName, hname, hsplit, hlabel]

/-- What begins with a bracket is no host. -/
theorem resolve_bracket (h : '\x00' ∉ rest) : resolve ('[' :: rest) = .error .noName := by
  have hnull : '\x00' ∉ '[' :: rest := List.not_mem_cons_of_ne_of_not_mem (by decide) h
  have hlocal : ¬ isLocal ('[' :: rest) = true := by
    simp only [isLocal, Bool.or_eq_true, decide_eq_true_eq, not_or, List.map_cons]
    exact ⟨fun h => absurd (List.cons.inj h).1 (by decide),
      fun h => absurd (List.cons.inj h).1 (by decide)⟩
  have hv6 : readV6? ('[' :: rest) = none := by rw [readV6?, take?_bracket]; rfl
  rw [resolve, if_neg hnull, if_neg hlocal, numeric?, readV4?_bracket]
  simp only [hv6, isName_bracket, Bool.false_eq_true, if_false]

end HostAddress

/-! ## Characters of hosts -/

theorem Ipv4.null_not_mem_text (ip : Ipv4) : '\x00' ∉ ip.text.toList := fun h =>
  (of_mem_text h).elim (absurd · (by decide)) (absurd · (by decide))

/-- A text of an address begins with a digit. -/
theorem Ipv4.exists_text_cons (ip : Ipv4) :
    ∃ c cs, ip.text.toList = c :: cs ∧ c.isDigit = true := by
  obtain ⟨c, cs, hcs⟩ :=
    List.exists_cons_of_ne_nil (Nat.toDigits_ne_nil (b := 10) (n := ip.a.toNat))
  refine ⟨c, _, by rw [toList_text, hcs, List.cons_append], ?_⟩
  exact Text.Decimal.isDigit_toDigits (n := ip.a.toNat) (hcs ▸ List.mem_cons_self)

namespace Ipv6

variable {cs : List Char} {gs : List UInt16} {octets : Bool} {ip : Ipv6}

theorem SpellsRest.null_not_mem (h : SpellsRest cs gs octets) : '\x00' ∉ cs := by
  induction h with
  | none => exact List.not_mem_nil
  | octets hip =>
    exact List.not_mem_cons_of_ne_of_not_mem (by decide) (hip ▸ Ipv4.null_not_mem_text _)
  | group hg hgs ih =>
    refine List.not_mem_cons_of_ne_of_not_mem (by decide) fun hmem => ?_
    rcases List.mem_append.mp hmem with hmem | hmem
    · exact absurd (hg.digits _ hmem) (by decide)
    · exact ih hmem

theorem SpellsGroups.null_not_mem (h : SpellsGroups cs gs octets) : '\x00' ∉ cs := by
  rcases h with ⟨rfl, -, -⟩ | h
  · exact List.not_mem_nil
  · exact fun hmem => h.null_not_mem (List.mem_cons_of_mem _ hmem)

theorem Spells.null_not_mem (h : Spells cs ip) : '\x00' ∉ cs := by
  cases h with
  | full h => exact h.null_not_mem
  | short hfront hback => simp [hfront.null_not_mem, hback.null_not_mem]

end Ipv6

theorem IpAddr.Spells.null_not_mem {cs : List Char} {ip : IpAddr} (h : Spells cs ip) :
    '\x00' ∉ cs := by
  cases h with
  | v4 ip => exact ip.null_not_mem_text
  | v6 h => exact h.null_not_mem

/-! ## Connections -/

namespace Socket

open Text.Decimal (SpellsUnsigned)
open Backend (Parts)

variable {s : String} {host port inner : List Char} {p : UInt16} {ip : IpAddr} {b : Backend}

theorem port?_of_spells (h : Text.Decimal.Spells port p.toNat) : port? port = some p := by
  rw [port?, Text.Decimal.read?_eq_some_iff.mpr h]
  simp [Option.filter, show p.toNat < UInt16.size from p.toNat_lt]

/-- No sign may stand in front of a port of digits. -/
theorem port?_sign (port : List Char) : port? ('+' :: port) = none := by
  simp [port?, Text.Decimal.read?]

/-- An address of version 4 goes with the digits of a port. -/
theorem literal?_v4 (ip : Ipv4) (port : List Char) :
    literal? (ip.text.toList ++ ':' :: port) = (port? port).map (⟨⟨.v4 ip, 0⟩, ·⟩) := by
  have hstop : Text.Stops Char.isDigit (':' :: port) := fun c hc => by cases hc; rfl
  obtain ⟨c, cs, hcs, hc⟩ := ip.exists_text_cons
  unfold literal?
  split
  · rename_i inner heq
    rw [hcs] at heq
    obtain rfl := (List.cons.inj heq).1
    exact absurd hc (by decide)
  · simp only [Ipv4.take?_eq_some_iff.mpr ⟨rfl, hstop⟩]

/-- An address of version 6 in brackets goes with the digits of a port. -/
theorem literal?_v6 {ip : Ipv6} (h : Ipv6.Spells inner ip) (port : List Char) :
    literal? ('[' :: inner ++ [']'] ++ ':' :: port) = (port? port).map (⟨⟨.v6 ip, 0⟩, ·⟩) := by
  have htake : Ipv6.take? (inner ++ ']' :: ':' :: port) = some (ip, ']' :: ':' :: port) :=
    Ipv6.take?_complete h fun c hc => by cases hc; decide
  have hbracketed : bracketed? (inner ++ ']' :: ':' :: port) =
      some (⟨.v6 ip, 0⟩, ']' :: ':' :: port) := by rw [bracketed?, htake]; rfl
  simp [literal?, hbracketed]

/-- No address of version 4 stands in brackets. -/
theorem literal?_bracketed (ip : Ipv4) (port : List Char) :
    literal? ('[' :: ip.text.toList ++ [']'] ++ ':' :: port) = none := by
  have hstop : Text.Stops Char.isDigit (']' :: ':' :: port) := fun c hc => by cases hc; rfl
  have htake : Ipv6.take? (ip.text.toList ++ ']' :: ':' :: port) = none := by
    rw [Ipv6.take?, Ipv6.takeGroups_octets (Ipv6.separator?_first _) (by decide)
      (Ipv4.take?_eq_some_iff.mpr ⟨rfl, hstop⟩)]
    rfl
  have hbracketed : bracketed? (ip.text.toList ++ ']' :: ':' :: port) = none := by
    rw [bracketed?, htake]
    rfl
  simp [literal?, hbracketed]

theorem read_of_literal {socket : Socket} (h : literal? s.toList = some socket) :
    read s = .ok socket := by
  rw [read, h]

/-- What is no literal is a host to resolve. -/
theorem read_of_parts (hliteral : literal? s.toList = none) (h : Parts s.toList host port)
    (hport : SpellsUnsigned port p.toNat) :
    read s = ((HostAddress.resolve host).map (⟨·, p⟩)).mapError .badHost := by
  have hread : Text.Decimal.readUnsigned? UInt16.size port = some p.toNat :=
    Text.Decimal.readUnsigned?_eq_some_iff.mpr ⟨hport, p.toNat_lt⟩
  rw [read, hliteral]
  simp only [Backend.splitPort?_eq_some_iff.mpr h, hread, Option.map_some, UInt16.ofNat_toNat]
  cases HostAddress.resolve host <;> rfl

/-- A host in brackets that is no literal leads nowhere. -/
theorem read_of_bracketed (hliteral : literal? s.toList = none)
    (h : Parts s.toList ('[' :: inner ++ [']']) port) (hinner : IpAddr.Spells inner ip)
    (hport : SpellsUnsigned port p.toNat) : read s = .error (.badHost .noName) := by
  have hnull : '\x00' ∉ inner ++ [']'] := by simp [hinner.null_not_mem]
  rw [read_of_parts hliteral h hport, List.cons_append, HostAddress.resolve_bracket hnull]
  rfl

/-! ## Texts that name a backend -/

/-- An address of version 4 without brackets is direct. -/
theorem direct_of_plain {ip : Ipv4} (h : Parts s.toList ip.text.toList port) :
    Backend.Direct s.toList ⟨.v4 ip, p⟩ := by
  obtain ⟨c, cs, htext, hc⟩ := ip.exists_text_cons
  rw [h.1, htext]
  intro h
  obtain rfl := Option.some.inj h
  exact absurd hc (by decide)

/-- One in brackets is not. -/
theorem not_direct_of_bracketed {ip : Ipv4} (h : Parts s.toList ('[' :: inner ++ [']']) port) :
    ¬ Backend.Direct s.toList ⟨.v4 ip, p⟩ := by
  rw [h.1]
  exact fun hdirect => hdirect rfl

/-- Behind an address of version 6 it is the sign that matters. -/
theorem direct_iff_of_parts {ip : Ipv6} (h : Parts s.toList host port) :
    Backend.Direct s.toList ⟨.v6 ip, p⟩ ↔ port.head? ≠ some '+' := by
  refine ⟨fun hdirect => hdirect _ _ h, fun hsign host' port' h' => ?_⟩
  obtain ⟨rfl, rfl⟩ := Prod.mk.inj (Option.some.inj
    ((Backend.splitPort?_eq_some_iff.mpr h').symm.trans (Backend.splitPort?_eq_some_iff.mpr h)))
  exact hsign

/-- A text that names a backend leads a connection to it where it is direct, and nowhere else. -/
theorem read_of_names (h : Backend.Names s.toList b) :
    (Backend.Direct s.toList b → read s = .ok ⟨⟨b.ip, 0⟩, b.port⟩) ∧
    (¬ Backend.Direct s.toList b → read s = .error (.badHost .noName)) := by
  obtain ⟨host, port, hparts, hhost, hport, -⟩ := h
  obtain ⟨ip, p⟩ := b
  have hcs : s.toList = host ++ ':' :: port := hparts.1
  obtain ⟨digits, hdigits, hport'⟩ := hport
  cases hhost with
  | plain ip =>
    refine ⟨fun _ => ?_, (absurd (direct_of_plain hparts) ·)⟩
    rcases hport' with rfl | rfl
    · refine read_of_literal ?_
      rw [hcs, literal?_v4, port?_of_spells hdigits]
      rfl
    · have hliteral : literal? s.toList = none := by
        rw [hcs, literal?_v4, port?_sign]
        rfl
      rw [read_of_parts hliteral hparts ⟨digits, hdigits, .inr rfl⟩, HostAddress.resolve_text]
      rfl
  | @bracketed inner _ hinner =>
    have hread := fun hliteral => read_of_bracketed hliteral hparts hinner ⟨digits, hdigits, hport'⟩
    cases hinner with
    | v4 ip =>
      refine ⟨(absurd · (not_direct_of_bracketed hparts)), fun _ => hread ?_⟩
      rw [hcs, literal?_bracketed]
    | @v6 _ ip hinner =>
      rw [direct_iff_of_parts hparts]
      rcases hport' with rfl | rfl
      · have hsign : port.head? ≠ some '+' := fun h =>
          absurd (hdigits.digits _ (List.mem_of_mem_head? h)) (by decide)
        refine ⟨fun _ => read_of_literal ?_, (absurd hsign ·)⟩
        rw [hcs, literal?_v6 hinner, port?_of_spells hdigits]
        rfl
      · refine ⟨(absurd rfl ·), fun _ => hread ?_⟩
        rw [hcs, literal?_v6 hinner, port?_sign]
        rfl

/-- A text that is accepted as a backend leads a connection to that backend where it is direct, and
to no host elsewhere. An upgrade of it takes the backend out of the pool and puts it back in, and
probes the text. -/
theorem accepted_connects (h : Backend.ofText s = .ok b) :
    (Backend.Direct s.toList b → read s = .ok ⟨⟨b.ip, 0⟩, b.port⟩) ∧
    (¬ Backend.Direct s.toList b → read s = .error (.badHost .noName)) ∧
    ∃ u, Upgrade.ofEndpoint s = .ok u ∧ ∀ (f : Fleet) (source : Entry),
      Position.removing.wait (f.job u source) = .call (.removeBackend f.config.pattern b) ∧
      Position.adding.wait (f.job u source) = .call (.addBackend f.config.pattern b) ∧
      ∀ deadline, (Position.probing deadline).wait (f.job u source) =
        .limited (.probe s) deadline := by
  obtain ⟨hdirect, hindirect⟩ := read_of_names (Backend.ofText_eq_ok_iff.mp h)
  have hupgrade : Upgrade.ofEndpoint s = .ok (.fresh s b) := by
    rw [Upgrade.ofEndpoint, Backend.ofConfigured, h]
    rfl
  exact ⟨hdirect, hindirect, _, hupgrade, fun f source => ⟨rfl, rfl, fun deadline => rfl⟩⟩

/-- Brackets around an address of version 4 are accepted, and so is a sign in front of a port; a
connection takes the sign only behind octets without brackets. -/
theorem accepted_connects_spellings :
    let four : Backend := ⟨.v4 ⟨10, 0, 0, 1⟩, 80⟩
    let six : Backend := ⟨.v6 ⟨#v[0, 0, 0, 0, 0, 0, 0, 1]⟩, 80⟩
    (Backend.ofText "10.0.0.1:+080" = .ok four ∧
      Socket.read "10.0.0.1:+080" = .ok ⟨⟨four.ip, 0⟩, four.port⟩) ∧
    (Backend.ofText "[10.0.0.1]:80" = .ok four ∧
      Socket.read "[10.0.0.1]:80" = .error (.badHost .noName)) ∧
    (Backend.ofText "[::1]:+80" = .ok six ∧
      Socket.read "[::1]:+80" = .error (.badHost .noName)) := by
  intro four six
  have hsign : Backend.ofText "10.0.0.1:+080" = .ok four := by decide +kernel
  have hbrackets : Backend.ofText "[10.0.0.1]:80" = .ok four := by decide +kernel
  have hboth : Backend.ofText "[::1]:+80" = .ok six := by decide +kernel
  refine ⟨⟨hsign, (accepted_connects hsign).1 ?_⟩,
    ⟨hbrackets, (accepted_connects hbrackets).2.1 ?_⟩, ⟨hboth, (accepted_connects hboth).2.1 ?_⟩⟩
  · exact (by decide : "10.0.0.1:+080".toList.head? ≠ some '[')
  · exact fun h => h rfl
  · exact fun h => h "[::1]".toList "+80".toList ⟨rfl, by decide⟩ rfl

end Socket

end Rollout
