import Rollout.Proofs.Text.Decimal
import Rollout.Proofs.Text.Path
import Rollout.Upgrade.Position

/-!
# Ports in destinations

What becomes of a destination when the port of a backend takes the place of every mark.

* `Config.cut` cuts characters at the marks. With marks between them the pieces are the characters
  (`Config.intercalate_cut`), with ports between them they are what the marks are filled with
  (`Config.fillPort_eq_intercalate`), and no piece has a mark (`Config.not_marked_of_mem_cut`).
* `Config.withPort_eq_iff`: two ports give the same text where there is no mark, and only there.
* `Config.components_withPort`: marks are filled component by component, since no port is a part of
  a component that is empty or consists of points.
* `Config.ports_apart`: which ports share a destination, and which share the name of a process.
-/

namespace Rollout.Config

/-! ## Marks -/

/-- The mark in whose place a port is put. -/
def mark : List Char := ['\x7b', 'p', 'o', 'r', 't', '\x7d']

/-- Whether characters have a mark. -/
def Marked (cs : List Char) : Prop := mark <:+: cs

/-- Cuts characters at every mark. -/
def cut : List Char → List (List Char)
  | '\x7b' :: 'p' :: 'o' :: 'r' :: 't' :: '\x7d' :: rest => [] :: cut rest
  | c :: rest => (cut rest).modifyHead (c :: ·)
  | [] => [[]]

variable {cs port target piece front back : List Char} {p q : UInt16}
  {s name dst : String}

theorem exists_cut_cons (cs : List Char) : ∃ piece pieces, cut cs = piece :: pieces := by
  fun_induction cut cs with
  | case1 rest => exact ⟨_, _, rfl⟩
  | case2 c rest h ih =>
    obtain ⟨piece, pieces, hcut⟩ := ih
    exact ⟨c :: piece, pieces, by rw [hcut]; rfl⟩
  | case3 => exact ⟨_, _, rfl⟩

/-- What fills the marks stands between the pieces. -/
theorem fillPort_eq_intercalate (port cs : List Char) :
    fillPort port cs = port.intercalate (cut cs) := by
  fun_induction fillPort port cs with
  | case1 rest ih =>
    obtain ⟨piece, pieces, hcut⟩ := exists_cut_cons rest
    rw [cut, ih, hcut, List.intercalate_cons_cons, List.nil_append]
  | case2 c rest h ih =>
    obtain ⟨piece, pieces, hcut⟩ := exists_cut_cons rest
    rw [cut, ih, hcut, List.modifyHead_cons]
    · cases pieces <;> simp [List.intercalate_cons_cons, List.intercalate_singleton]
    · exact h
  | case3 => rfl

theorem fillPort_mark (cs : List Char) : fillPort mark cs = cs := by
  fun_induction fillPort mark cs with
  | case1 rest ih => rw [ih]; rfl
  | case2 c rest h ih => rw [ih]
  | case3 => rfl

theorem intercalate_cut (cs : List Char) : mark.intercalate (cut cs) = cs := by
  rw [← fillPort_eq_intercalate, fillPort_mark]

/-- No piece has a mark. -/
theorem not_marked_of_mem_cut (h : piece ∈ cut cs) : ¬ Marked piece := by
  fun_induction cut cs generalizing piece with
  | case1 rest ih =>
    rcases List.mem_cons.mp h with rfl | h
    · exact fun hm => absurd hm.length_le (by decide)
    · exact ih h
  | case2 c rest hno ih =>
    obtain ⟨first, pieces, hcut⟩ := exists_cut_cons rest
    rw [hcut] at h ih
    rcases List.mem_cons.mp h with rfl | h
    · intro hm
      rcases List.infix_cons_iff.mp hm with hm | hm
      · -- The first piece begins what was cut, so a mark at its front is one there.
        have hfirst : first <+: rest := by
          have hrest := intercalate_cut rest
          rw [hcut] at hrest
          cases pieces with
          | nil => exact ⟨[], by simpa using hrest⟩
          | cons next pieces =>
            exact ⟨_, by rw [← List.append_assoc, ← List.intercalate_cons_cons, hrest]⟩
        obtain ⟨tail, htail⟩ := hm.trans (List.cons_prefix_cons.mpr ⟨rfl, hfirst⟩)
        obtain ⟨rfl, rfl⟩ := List.cons.inj htail.symm
        exact hno _ rfl rfl
      · exact ih List.mem_cons_self hm
    · exact ih (List.mem_cons_of_mem _ h)
  | case3 =>
    rw [List.mem_singleton.mp h]
    exact fun hm => absurd hm.length_le (by decide)

/-- Characters have no mark, or there are pieces before and after one. -/
theorem cut_cases (cs : List Char) : (¬ Marked cs ∧ cut cs = [cs]) ∨
    (Marked cs ∧ ∃ first second pieces, cut cs = first :: second :: pieces) := by
  obtain ⟨first, pieces, hcut⟩ := exists_cut_cons cs
  have hcs := intercalate_cut cs
  rw [hcut] at hcs ⊢
  cases pieces with
  | nil =>
    obtain rfl : first = cs := by simpa using hcs
    exact .inl ⟨not_marked_of_mem_cut (hcut ▸ List.mem_cons_self), rfl⟩
  | cons second pieces =>
    rw [List.intercalate_cons_cons] at hcs
    exact .inr ⟨⟨_, _, hcs⟩, _, _, _, rfl⟩

/-! ## Ports -/

/-- The digits of a port. -/
def digits (p : UInt16) : List Char := Nat.toDigits 10 p.toNat

theorem withPort_eq (s : String) (p : UInt16) :
    withPort s p = String.ofList (fillPort (digits p) s.toList) := by
  rw [withPort, Text.Decimal.text, String.toList_ofList, digits]

theorem toList_withPort (s : String) (p : UInt16) :
    (withPort s p).toList = fillPort (digits p) s.toList := by
  rw [withPort_eq, String.toList_ofList]

theorem length_intercalate (sep : List Char) (first : List Char) (pieces : List (List Char)) :
    (sep.intercalate (first :: pieces)).length =
      (first :: pieces).flatten.length + pieces.length * sep.length := by
  induction pieces generalizing first with
  | nil => simp
  | cons second pieces ih =>
    rw [List.intercalate_cons_cons, List.length_append, List.length_append, ih]
    simp [Nat.add_mul]
    omega

/-- What stands between pieces is told by the whole, where there are two pieces. -/
theorem eq_of_intercalate {sep sep' first second : List Char} {pieces : List (List Char)}
    (h : sep.intercalate (first :: second :: pieces) =
      sep'.intercalate (first :: second :: pieces)) : sep = sep' := by
  have hlen : sep.length = sep'.length := by
    have := congrArg List.length h
    rw [length_intercalate, length_intercalate, Nat.add_left_cancel_iff] at this
    exact Nat.eq_of_mul_eq_mul_left (Nat.succ_pos pieces.length) this
  rw [List.intercalate_cons_cons, List.intercalate_cons_cons, List.append_assoc,
    List.append_assoc] at h
  exact (List.append_inj (List.append_cancel_left h) hlen).1

theorem digits_inj (h : digits p = digits q) : p = q := by
  have hvalue := congrArg (Text.Decimal.value · 0) h
  simp only [digits, Text.Decimal.value_toDigits] at hvalue
  exact UInt16.toNat_inj.mp hvalue

/-- Two ports give the same text where there is no mark, and only there. -/
theorem withPort_eq_iff (h : p ≠ q) : withPort s p = withPort s q ↔ ¬ Marked s.toList := by
  rw [← String.toList_inj, toList_withPort, toList_withPort, fillPort_eq_intercalate,
    fillPort_eq_intercalate]
  rcases cut_cases s.toList with ⟨hno, hcut⟩ | ⟨hm, first, second, pieces, hcut⟩
  · simp [hno, hcut]
  · rw [hcut]
    exact ⟨fun heq => absurd (digits_inj (eq_of_intercalate heq)) h, fun hno => absurd hm hno⟩

/-! ## Components -/

theorem mem_fillPort {c : Char} (h : c ∈ fillPort port cs) : c ∈ port ∨ c ∈ cs := by
  fun_induction fillPort port cs with
  | case1 rest ih =>
    rcases List.mem_append.mp h with h | h
    · exact .inl h
    · exact (ih h).imp id fun h => by simp [h]
  | case2 c rest hno ih =>
    rcases List.mem_cons.mp h with rfl | h
    · exact .inr List.mem_cons_self
    · exact (ih h).imp id (List.mem_cons_of_mem _)
  | case3 => exact absurd h List.not_mem_nil

/-- No mark lies on both sides of a slash. -/
theorem fillPort_append_slash (port front back : List Char) :
    fillPort port (front ++ '/' :: back) = fillPort port front ++ '/' :: fillPort port back := by
  fun_induction fillPort port front with
  | case1 rest ih => simp [fillPort, ih]
  | case2 c rest hno ih =>
    rw [List.cons_append, fillPort, ih, List.cons_append]
    intro tail hc hrest
    match rest with
    | [] | [_] | [_, _] | [_, _, _] | [_, _, _, _] => simp at hrest
    | _ :: _ :: _ :: _ :: _ :: rest =>
      simp only [List.cons_append, List.cons.injEq] at hrest
      obtain ⟨rfl, rfl, rfl, rfl, rfl, -⟩ := hrest
      exact hno rest hc rfl
  | case3 => simp [fillPort]

theorem fillPort_intercalate (port : List Char) (first : List Char) (parts : List (List Char)) :
    fillPort port (['/'].intercalate (first :: parts)) =
      ['/'].intercalate ((first :: parts).map (fillPort port)) := by
  induction parts generalizing first with
  | nil => simp
  | cons second parts ih =>
    rw [List.map_cons, List.map_cons, List.intercalate_cons_cons, List.intercalate_cons_cons,
      List.append_assoc, List.append_assoc, List.singleton_append, List.singleton_append,
      fillPort_append_slash, ih, List.map_cons]

/-- Marks are filled part by part. -/
theorem split_fillPort (hport : '/' ∉ port) (cs : List Char) :
    Text.Path.split '/' (fillPort port cs) = (Text.Path.split '/' cs).map (fillPort port) := by
  have hcs := Text.Path.intercalate_split '/' cs
  have hparts : ∀ part ∈ (Text.Path.split '/' cs).map (fillPort port), '/' ∉ part := by
    intro part hpart hmem
    obtain ⟨part, hsplit, rfl⟩ := List.mem_map.mp hpart
    exact (mem_fillPort hmem).elim hport (Text.Path.sep_not_mem hsplit)
  obtain ⟨first, parts, hsplit⟩ := List.exists_cons_of_ne_nil (Text.Path.split_ne_nil '/' cs)
  rw [hsplit] at hcs hparts ⊢
  rw [← hcs, fillPort_intercalate, Text.Path.split_intercalate hparts (by simp)]

/-- A text without a mark and without the characters of the port comes of itself only. -/
theorem fillPort_eq_iff (hport : port ≠ []) (hm : ¬ Marked target) (h : ∀ c ∈ port, c ∉ target) :
    fillPort port cs = target ↔ cs = target := by
  rw [fillPort_eq_intercalate]
  rcases cut_cases cs with ⟨-, hcut⟩ | ⟨hcs, first, second, pieces, hcut⟩
  · rw [hcut, List.intercalate_singleton]
  · rw [hcut]
    refine ⟨fun heq => ?_, fun heq => absurd (heq ▸ hcs) hm⟩
    obtain ⟨c, rest, hc⟩ := List.exists_cons_of_ne_nil hport
    have hmem : c ∈ port := hc ▸ List.mem_cons_self
    refine absurd ?_ (h c hmem)
    rw [← heq, List.intercalate_cons_cons]
    simp [hmem]

theorem slash_not_mem_digits (p : UInt16) : '/' ∉ digits p := fun h =>
  absurd (Text.Decimal.isDigit_toDigits h) (by decide)

/-- Points come of themselves only. -/
theorem fillPort_eq_points (p : UInt16) (h : ∀ c ∈ target, c = '.') :
    fillPort (digits p) cs = target ↔ cs = target := by
  refine fillPort_eq_iff Nat.toDigits_ne_nil (fun hm => ?_) fun c hc hmem => ?_
  · exact absurd (h 'p' (hm.subset (by decide))) (by decide)
  · have hdigit : c.isDigit = true := Text.Decimal.isDigit_toDigits hc
    rw [h c hmem] at hdigit
    exact absurd hdigit (by decide)

theorem components_withPort (s : String) (p : UInt16) :
    Text.Path.components (withPort s p) =
      (Text.Path.components s).map (fillPort (digits p)) := by
  have hcounts : (fun part : List Char => !part.isEmpty && part != ['.']) ∘ fillPort (digits p) =
      fun part => !part.isEmpty && part != ['.'] := by
    funext part
    have hempty : fillPort (digits p) part = [] ↔ part = [] := fillPort_eq_points p (by simp)
    have hpoint : fillPort (digits p) part = ['.'] ↔ part = ['.'] := fillPort_eq_points p (by simp)
    rw [Function.comp_apply, Bool.eq_iff_iff]
    simp [hempty, hpoint]
  rw [Text.Path.components, toList_withPort, split_fillPort (slash_not_mem_digits p),
    List.filter_map, hcounts, Text.Path.components]

theorem fileName?_withPort (s : String) (p : UInt16) :
    Text.Path.fileName? (withPort s p) = (Text.Path.fileName? s).map (withPort · p) := by
  rw [Text.Path.fileName?, components_withPort, List.getLast?_map, Text.Path.fileName?]
  cases (Text.Path.components s).getLast? with
  | none => rfl
  | some last =>
    have hparent : fillPort (digits p) last = ['.', '.'] ↔ last = ['.', '.'] :=
      fillPort_eq_points p (by simp)
    by_cases h : last = ['.', '.']
    · simp [Option.filter, h, fillPort]
    · have hfilled : fillPort (digits p) last ≠ ['.', '.'] := mt hparent.mp h
      simp [Option.filter, h, hfilled, withPort_eq]

/-! ## Targets -/

variable {c : Config}

theorem destination_of_dst (h : c.dst = some dst) (p : UInt16) :
    c.destination p = withPort dst p := by
  rw [destination, h]

/-- A process is named for the file name of its destination, or for all of it where it has none. -/
theorem processName_of_dst (h : c.dst = some dst) (p : UInt16) :
    c.processName p = withPort ((Text.Path.fileName? dst).getD dst) p := by
  rw [processName, destination_of_dst h, fileName?_withPort]
  cases Text.Path.fileName? dst <;> rfl

/-- Two ports share a destination exactly where it has no mark, and the name of a process exactly
where the file name of the destination has none. The name of a process is that file name with the
port in the place of every mark; it is the last component of the path to which the binary is
copied. -/
theorem ports_apart (c : Config) :
    (∀ p q, p ≠ q → (c.destination p = c.destination q ↔
      ∀ dst, c.dst = some dst → ¬ Marked dst.toList)) ∧
    (∀ p q, p ≠ q → (c.processName p = c.processName q ↔
      ∀ dst, c.dst = some dst → ¬ Marked ((Text.Path.fileName? dst).getD dst).toList)) ∧
    ∀ dst name, c.dst = some dst → Text.Path.fileName? dst = some name →
      ∃ pieces, name.toList = mark.intercalate pieces ∧ (∀ piece ∈ pieces, ¬ Marked piece) ∧
        ∀ p, (c.processName p).toList = (digits p).intercalate pieces ∧
          '/' ∉ (c.processName p).toList ∧
          (Text.Path.components (c.destination p)).getLast? = some (c.processName p).toList ∧
          ∀ j : Job, j.config = c → j.backend.port = p →
            Position.copying.wait j =
              .call (.copy j.backend.ip j.source (c.destination p) Job.binaryMode) := by
  refine ⟨fun p q hpq => ?_, fun p q hpq => ?_, fun dst name hdst hname => ?_⟩
  · cases hdst : c.dst with
    | none => simp [destination, hdst]
    | some dst => simp [destination_of_dst hdst, withPort_eq_iff hpq]
  · cases hdst : c.dst with
    | none => simp [processName, destination, hdst]
    | some dst => simp [processName_of_dst hdst, withPort_eq_iff hpq]
  · refine ⟨cut name.toList, (intercalate_cut _).symm, fun _ => not_marked_of_mem_cut,
      fun p => ?_⟩
    have hprocess : c.processName p = withPort name p := by
      rw [processName_of_dst hdst, hname, Option.getD_some]
    have hlast : Text.Path.fileName? (c.destination p) = some (c.processName p) := by
      rw [destination_of_dst hdst, fileName?_withPort, hname, hprocess, Option.map_some]
    refine ⟨?_, Text.Path.slash_not_mem_fileName hlast, Text.Path.getLast?_components hlast, ?_⟩
    · rw [hprocess, toList_withPort, fillPort_eq_intercalate]
    · rintro j rfl rfl
      rfl

/-- A mark in a directory keeps the destinations apart but not the processes; braces around a mark
stay, and so does what stands behind the name of the file. -/
theorem ports_apart_braces :
    let shared : Config := { (default : Config) with dst := some "/srv/\x7bport\x7d/web\x7bport" }
    let apart : Config := { (default : Config) with dst := some "/srv/web-\x7b\x7bport\x7d\x7d/./" }
    (80 : UInt16) ≠ 8080 ∧ shared.destination 80 ≠ shared.destination 8080 ∧
      shared.processName 80 = shared.processName 8080 ∧
      apart.processName 80 ≠ apart.processName 8080 ∧
      (Text.Path.components (apart.destination 80)).getLast? =
        some (apart.processName 80).toList ∧
      apart.processName 80 = "web-\x7b80\x7d" := by
  intro shared apart
  have hports : (80 : UInt16) ≠ 8080 := by decide
  have hsharedFile : Text.Path.fileName? "/srv/\x7bport\x7d/web\x7bport" = some "web\x7bport" := by
    decide
  have hapartFile : Text.Path.fileName? "/srv/web-\x7b\x7bport\x7d\x7d/./" =
      some "web-\x7b\x7bport\x7d\x7d" := by decide
  obtain ⟨hshared, hprocess, -⟩ := ports_apart shared
  obtain ⟨-, hprocess', hname⟩ := ports_apart apart
  obtain ⟨pieces, -, -, hfilled⟩ := hname _ _ rfl hapartFile
  refine ⟨hports, fun h => ?_, (hprocess _ _ hports).mpr ?_, fun h => ?_, (hfilled 80).2.2.1, ?_⟩
  · exact (hshared _ _ hports).mp h _ rfl ⟨"/srv/".toList, "/web\x7bport".toList, rfl⟩
  · rintro dst hdst
    obtain rfl := Option.some.inj hdst
    rw [hsharedFile]
    exact not_marked_of_mem_cut (by decide : "web\x7bport".toList ∈ cut "web\x7bport".toList)
  · have hmarked := (hprocess' _ _ hports).mp h _ rfl
    rw [hapartFile] at hmarked
    exact hmarked ⟨"web-\x7b".toList, ['\x7d'], rfl⟩
  · decide

end Rollout.Config
