import Rollout.Config.Check
import Rollout.Proofs.Net.Ip

/-!
# Backends are read as they are named

* The parts: characters are cut at the last colon (`Backend.splitPort?_eq_some_iff`), a host is
  freed of its brackets (`Backend.unbracket_eq_ok_iff`), and a port is a number within its range
  (`Backend.readPort_eq_ok_iff`).
* `Backend.address_grammar`: a text is read as the backend that it names, and is refused for its
  first fault when it names none.
* `Backend.text_round_trip`: the text of a backend names it.
-/

namespace Rollout.Backend

open Text (Stops takeWhile_append_of_stops dropWhile_append_of_stops)

variable {cs host port inner : List Char} {ip : IpAddr} {b : Backend} {fault : AddressFault}
  {n : Nat}

/-! ## Host and port -/

theorem splitPort?_eq_some_iff : splitPort? cs = some (host, port) ↔ Parts cs host port := by
  have hmem : ∀ c ∈ cs.reverse.takeWhile (· != ':'), c ≠ ':' := fun c hc => by
    simpa using List.all_eq_true.mp List.all_takeWhile c hc
  unfold splitPort?
  constructor
  · intro h
    simp only at h
    split at h
    · cases h
    · rename_i c rest hdrop
      cases h
      have hc : c = ':' := by
        have := List.head?_dropWhile_not (· != ':') cs.reverse
        rw [hdrop] at this
        simpa using this
      have hcs := List.takeWhile_append_dropWhile (p := (· != ':')) (l := cs.reverse)
      rw [hdrop, hc] at hcs
      have hrev : cs = (cs.reverse.takeWhile (· != ':') ++ ':' :: rest).reverse := by
        rw [hcs, List.reverse_reverse]
      exact ⟨hrev.trans (by simp), fun h => hmem ':' (List.mem_reverse.mp h) rfl⟩
  · rintro ⟨rfl, hport⟩
    have hrun : ∀ c ∈ port.reverse, (c != ':') = true := fun c hc => by
      have : c ≠ ':' := fun h => hport (h ▸ List.mem_reverse.mp hc)
      simpa using this
    have hstops : Stops (· != ':') (':' :: host.reverse) := fun c hc => by
      cases hc
      rfl
    have hreverse : (host ++ ':' :: port).reverse = port.reverse ++ ':' :: host.reverse := by simp
    simp only [hreverse, takeWhile_append_of_stops hrun hstops,
      dropWhile_append_of_stops hrun hstops, List.reverse_reverse]

/-- Characters with a colon have a last one. -/
theorem exists_parts (h : ':' ∈ cs) : ∃ host port, Parts cs host port := by
  obtain ⟨front, back, hcs, hfront⟩ := List.eq_append_cons_of_mem (List.mem_reverse.mpr h)
  have hrev : cs = (front ++ ':' :: back).reverse := by rw [← hcs, List.reverse_reverse]
  exact ⟨back.reverse, front.reverse, hrev.trans (by simp),
    fun hmem => hfront (List.mem_reverse.mp hmem)⟩

theorem splitPort?_of_not_mem (h : ':' ∉ cs) : splitPort? cs = none := by
  refine Option.eq_none_iff_forall_ne_some.mpr fun ⟨host, port⟩ hs => h ?_
  rw [(splitPort?_eq_some_iff.mp hs).1]
  simp

/-! ## Hosts -/

theorem unbracket_eq_ok_iff : unbracket host = .ok inner ↔ Says host inner := by
  unfold unbracket
  constructor
  · intro h
    split at h
    · rename_i rest
      split at h
      · rename_i reversed hrev
        cases h
        have hrest : rest = reversed.reverse ++ [']'] := by
          rw [← List.reverse_reverse rest, hrev, List.reverse_cons]
        rw [hrest]
        exact .bracketed _
      · cases h
    · rename_i hhost
      split at h
      · cases h
      · cases h
        refine .plain (fun hhead => ?_) ‹_›
        obtain ⟨rest, rfl⟩ := List.head?_eq_some_iff.mp hhead
        exact hhost rest rfl
  · intro h
    cases h with
    | bracketed inner => simp
    | plain hhead hcolon =>
      split
      · exact absurd rfl hhead
      · rw [if_neg hcolon]

theorem unbracket_of_open (h : host.head? = some '[') (hlast : host.getLast? ≠ some ']') :
    unbracket host = .error .unterminatedBracket := by
  obtain ⟨inner, rfl⟩ := List.head?_eq_some_iff.mp h
  unfold unbracket
  simp only
  split
  · rename_i reversed hrev
    have hinner : inner = reversed.reverse ++ [']'] := by
      rw [← List.reverse_reverse inner, hrev, List.reverse_cons]
    rw [hinner] at hlast
    simp [List.getLast?_cons] at hlast
  · rfl

theorem unbracket_of_colon (h : host.head? ≠ some '[') (hcolon : ':' ∈ host) :
    unbracket host = .error .tooManyColons := by
  unfold unbracket
  split
  · exact absurd rfl h
  · rw [if_pos hcolon]

/-- A host that opens a bracket and does not end in the other has a fault, and so has one with a
colon and no bracket. Every other host says something. -/
theorem says_or (host : List Char) : (∃ inner, Says host inner) ∨
    (host.head? = some '[' ∧ host.getLast? ≠ some ']') ∨
    (host.head? ≠ some '[' ∧ ':' ∈ host) := by
  by_cases hhead : host.head? = some '['
  · by_cases hlast : host.getLast? = some ']'
    · obtain ⟨front, rfl⟩ := List.getLast?_eq_some_iff.mp hlast
      cases front with
      | nil => cases hhead
      | cons c inner =>
        cases hhead
        exact .inl ⟨inner, .bracketed inner⟩
    · exact .inr (.inl ⟨hhead, hlast⟩)
  · by_cases hcolon : ':' ∈ host
    · exact .inr (.inr ⟨hhead, hcolon⟩)
    · exact .inl ⟨host, .plain hhead hcolon⟩

/-- A host says an address exactly when it is spelled as one. -/
theorem spellsHost_iff :
    SpellsHost host ip ↔ ∃ inner, Says host inner ∧ IpAddr.Spells inner ip := by
  constructor
  · intro h
    cases h with
    | plain ip =>
      refine ⟨_, .plain (fun hhead => ?_) ip.colon_not_mem_text, .v4 ip⟩
      rcases Ipv4.of_mem_text (List.mem_of_mem_head? hhead) with hc | hc
      · exact absurd hc (by decide)
      · exact absurd hc (by decide)
    | bracketed h => exact ⟨_, .bracketed _, h⟩
  · rintro ⟨inner, hsays, h⟩
    cases hsays with
    | bracketed inner => exact .bracketed h
    | plain hhead hcolon =>
      cases h with
      | v4 ip => exact .plain ip
      | v6 h => exact absurd h.colon_mem hcolon

/-! ## Ports -/

theorem showsPort_portValue (port : List Char) : ShowsPort port (portValue port) := by
  unfold portValue
  cases h : Text.Decimal.readUnsigned? UInt32.size port with
  | some n =>
    obtain ⟨hspells, hlt⟩ := Text.Decimal.readUnsigned?_eq_some_iff.mp h
    exact .number hspells hlt
  | none =>
    refine .noNumber fun n hspells => Nat.le_of_not_lt fun hlt => ?_
    rw [Text.Decimal.readUnsigned?_eq_some_iff.mpr ⟨hspells, hlt⟩] at h
    cases h

theorem ShowsPort.eq (h : ShowsPort port n) : portValue port = n := by
  unfold portValue
  cases h with
  | number hspells hlt =>
    rw [Text.Decimal.readUnsigned?_eq_some_iff.mpr ⟨hspells, hlt⟩]
    rfl
  | noNumber hno =>
    have hnone : Text.Decimal.readUnsigned? UInt32.size port = none :=
      Option.eq_none_iff_forall_ne_some.mpr fun n hn => by
        obtain ⟨hspells, hlt⟩ := Text.Decimal.readUnsigned?_eq_some_iff.mp hn
        exact Nat.not_lt.mpr (hno n hspells) hlt
    rw [hnone]
    rfl

theorem readPort_eq_ok_iff {p : UInt16} : readPort port = .ok p ↔
    Text.Decimal.SpellsUnsigned port p.toNat ∧ 1 ≤ p.toNat ∧ p.toNat ≤ maxPort := by
  unfold readPort
  simp only
  constructor
  · intro h
    split at h
    · rename_i hrange
      cases h
      have hmax : portValue port ≤ 65534 := hrange.2
      have hshows := showsPort_portValue port
      generalize portValue port = n at *
      rw [UInt16.toNat_ofNat_of_lt' (show n < 65536 by omega)]
      cases hshows with
      | number hspells _ => exact ⟨hspells, hrange⟩
      | noNumber _ => exact absurd hrange.1 (by decide)
    · cases h
  · rintro ⟨hspells, hrange⟩
    have hlt : p.toNat < UInt32.size := Nat.lt_trans p.toNat_lt (by decide)
    rw [(ShowsPort.number hspells hlt).eq, if_pos hrange, UInt16.ofNat_toNat]

theorem readPort_of_shows (h : ShowsPort port n) (hrange : ¬ (1 ≤ n ∧ n ≤ maxPort)) :
    readPort port = .error (.invalidPort n) := by
  unfold readPort
  simp only [h.eq, if_neg hrange]

/-! ## Backends -/

/-- A backend is read part by part. -/
theorem readChars_of_parts (h : Parts cs host port) : readChars cs =
    (unbracket host).bind fun inner =>
      match IpAddr.readChars? inner with
      | none => .error .notAnAddress
      | some ip => (readPort port).map (⟨ip, ·⟩) := by
  unfold readChars
  rw [splitPort?_eq_some_iff.mpr h]
  refine congrArg (Except.bind (unbracket host)) (funext fun inner => ?_)
  cases IpAddr.readChars? inner with
  | none => rfl
  | some ip => cases readPort port <;> rfl

theorem readChars_of_names (h : Names cs b) : readChars cs = .ok b := by
  obtain ⟨host, port, hparts, hhost, hport⟩ := h
  obtain ⟨inner, hsays, hip⟩ := spellsHost_iff.mp hhost
  rw [readChars_of_parts hparts, unbracket_eq_ok_iff.mpr hsays]
  simp only [Except.bind, IpAddr.readChars?_eq_some_iff.mpr hip, readPort_eq_ok_iff.mpr hport]
  rfl

theorem readChars_of_lacks (h : Lacks cs fault) : readChars cs = .error fault := by
  cases h with
  | missingPort h =>
    unfold readChars
    rw [splitPort?_of_not_mem h]
  | unterminatedBracket hparts hhead hlast =>
    rw [readChars_of_parts hparts, unbracket_of_open hhead hlast]
    rfl
  | tooManyColons hparts hhead hcolon =>
    rw [readChars_of_parts hparts, unbracket_of_colon hhead hcolon]
    rfl
  | notAnAddress hparts hsays hno =>
    rw [readChars_of_parts hparts, unbracket_eq_ok_iff.mpr hsays]
    have hnone := Option.eq_none_iff_forall_ne_some.mpr fun ip hip =>
      hno ip (IpAddr.readChars?_eq_some_iff.mp hip)
    simp only [Except.bind, hnone]
  | invalidPort hparts hsays hip hshows hrange =>
    rw [readChars_of_parts hparts, unbracket_eq_ok_iff.mpr hsays]
    simp only [Except.bind, IpAddr.readChars?_eq_some_iff.mpr hip,
      readPort_of_shows hshows hrange]
    rfl

/-- Characters name a backend or have a first fault. -/
theorem names_or_lacks (cs : List Char) : (∃ b, Names cs b) ∨ ∃ fault, Lacks cs fault := by
  by_cases hcolon : ':' ∈ cs
  · obtain ⟨host, port, hparts⟩ := exists_parts hcolon
    rcases says_or host with ⟨inner, hsays⟩ | ⟨hhead, hlast⟩ | ⟨hhead, hcolon⟩
    · by_cases hip : ∃ ip, IpAddr.Spells inner ip
      · obtain ⟨ip, hip⟩ := hip
        cases hport : readPort port with
        | ok p =>
          exact .inl ⟨⟨ip, p⟩, host, port, hparts, spellsHost_iff.mpr ⟨inner, hsays, hip⟩,
            readPort_eq_ok_iff.mp hport⟩
        | error fault =>
          refine .inr ⟨_, .invalidPort hparts hsays hip (showsPort_portValue port) fun hrange => ?_⟩
          unfold readPort at hport
          simp only [if_pos hrange] at hport
          cases hport
      · exact .inr ⟨_, .notAnAddress hparts hsays (not_exists.mp hip)⟩
    · exact .inr ⟨_, .unterminatedBracket hparts hhead hlast⟩
    · exact .inr ⟨_, .tooManyColons hparts hhead hcolon⟩
  · exact .inr ⟨_, .missingPort hcolon⟩

theorem read_eq_ok_iff {s : String} : read s = .ok b ↔ Names s.toList b := by
  refine ⟨fun h => ?_, readChars_of_names⟩
  rcases names_or_lacks s.toList with ⟨b', hb⟩ | ⟨fault, hf⟩
  · cases h.symm.trans (readChars_of_names hb)
    exact hb
  · cases h.symm.trans (readChars_of_lacks hf)

theorem read_eq_error_iff {s : String} : read s = .error fault ↔ Lacks s.toList fault := by
  refine ⟨fun h => ?_, readChars_of_lacks⟩
  rcases names_or_lacks s.toList with ⟨b', hb⟩ | ⟨fault', hf⟩
  · cases h.symm.trans (readChars_of_names hb)
  · cases h.symm.trans (readChars_of_lacks hf)
    exact hf

theorem ofText_eq_ok_iff {s : String} : ofText s = .ok b ↔ Names s.toList b := by
  rw [← read_eq_ok_iff]
  unfold ofText
  cases read s <;> simp

/-- A text is read as a backend exactly when it names it, and is refused for its first fault
otherwise. -/
theorem address_grammar (s : String) :
    (∀ b, ofText s = .ok b ↔ Names s.toList b) ∧
    ∀ e, ofText s = .error e ↔ ∃ fault, Lacks s.toList fault ∧ e = .address s fault.message := by
  refine ⟨fun b => ofText_eq_ok_iff, fun e => ?_⟩
  have herror : ofText s = .error e ↔
      ∃ fault, read s = .error fault ∧ e = .address s fault.message := by
    unfold ofText
    cases read s with
    | ok b => simp
    | error fault => simp [eq_comm]
  simp only [herror, read_eq_error_iff]

/-- A bracket that stays open counts before the colons behind it. -/
example : ofText "[::1:80" = .error (.address "[::1:80" "unterminated IPv6 bracket") := by
  decide +kernel

/-! ## Texts -/

/-- The text of a backend names it, if a backend can have its port. -/
theorem names_text (b : Backend) :
    Names b.text.toList b ↔ 1 ≤ b.port.toNat ∧ b.port.toNat ≤ maxPort := by
  refine ⟨fun ⟨_, _, _, _, _, hrange⟩ => hrange, fun hrange => ?_⟩
  have hport := Text.Decimal.spells_toDigits b.port.toNat
  have hcolon : ':' ∉ Nat.toDigits 10 b.port.toNat := fun h =>
    absurd (hport.digits ':' h) (by decide)
  obtain ⟨ip, port⟩ := b
  cases ip with
  | v4 ip =>
    refine ⟨ip.text.toList, Nat.toDigits 10 port.toNat, ⟨?_, hcolon⟩, .plain ip,
      ⟨_, hport, .inl rfl⟩, hrange⟩
    simp [text, Text.Decimal.text]
  | v6 ip =>
    refine ⟨'[' :: ip.text.toList ++ [']'], Nat.toDigits 10 port.toNat, ⟨?_, hcolon⟩,
      .bracketed (.v6 ip.spells_text), ⟨_, hport, .inl rfl⟩, hrange⟩
    simp [text, Text.Decimal.text]

/-- The text of a backend is read back exactly when a backend can have its port, so that no two such
backends have the same text. Whatever spelling a backend was read from, its text is read as the same
backend, and whatever is read from that text is written in the same way. -/
theorem text_round_trip :
    (∀ b : Backend, ofText b.text = .ok b ↔ 1 ≤ b.port.toNat ∧ b.port.toNat ≤ maxPort) ∧
    (∀ b b' : Backend, 1 ≤ b.port.toNat → b.port.toNat ≤ maxPort → 1 ≤ b'.port.toNat →
      b'.port.toNat ≤ maxPort → b.text = b'.text → b = b') ∧
    ∀ (s : String) (b : Backend), ofText s = .ok b →
      ofText b.text = .ok b ∧ ∀ b', ofText b.text = .ok b' → b'.text = b.text := by
  have hback : ∀ b : Backend,
      ofText b.text = .ok b ↔ 1 ≤ b.port.toNat ∧ b.port.toNat ≤ maxPort := fun b =>
    ofText_eq_ok_iff.trans b.names_text
  refine ⟨hback, fun b b' hmin hmax hmin' hmax' htext => ?_, fun s b h => ?_⟩
  · have h := (hback b).mpr ⟨hmin, hmax⟩
    rw [htext, (hback b').mpr ⟨hmin', hmax'⟩] at h
    exact (Except.ok.inj h).symm
  · obtain ⟨_, _, _, _, _, hrange⟩ := ofText_eq_ok_iff.mp h
    have htext := (hback b).mpr hrange
    refine ⟨htext, fun b' h' => ?_⟩
    rw [htext] at h'
    rw [Except.ok.inj h']

/-- Of two runs of zeros that are equally long the text leaves out the first, whatever the spelling
left out. -/
theorem text_round_trip_runs : ∃ b : Backend,
    ofText "[2001:0DB8::1:0:0:0001]:+065534" = .ok b ∧ b.text = "[2001:db8::1:0:0:1]:65534" ∧
    (1 ≤ b.port.toNat ∧ b.port.toNat ≤ maxPort) ∧ ofText b.text = .ok b ∧
    (∀ b', ofText b.text = .ok b' → b'.text = b.text) ∧
    ∀ b', 1 ≤ b'.port.toNat → b'.port.toNat ≤ maxPort → b'.text = b.text → b' = b := by
  let b : Backend := ⟨.v6 ⟨#v[0x2001, 0xDB8, 0, 0, 1, 0, 0, 1]⟩, 65534⟩
  have hread : ofText "[2001:0DB8::1:0:0:0001]:+065534" = .ok b := by decide +kernel
  have hrange : 1 ≤ b.port.toNat ∧ b.port.toNat ≤ maxPort := by decide
  obtain ⟨-, hinj, hback⟩ := text_round_trip
  obtain ⟨hok, hsame⟩ := hback _ b hread
  exact ⟨b, hread, by decide +kernel, hrange, hok, hsame,
    fun b' hmin hmax => hinj b' b hmin hmax hrange.1 hrange.2⟩

end Rollout.Backend
