import Rollout.Text.Decimal

/-!
# How a shell reads a command

The rules of a POSIX shell for a text of simple commands, one character at a time.

* A `Reader` cuts the text into words and operators. Blanks, line ends and operators end a word;
  apostrophes, quotation marks and backslashes keep characters from having a meaning.
* A `Parse` puts them together: words and redirections make a command, `|` joins commands, `&&` and
  `||` join those, and `;`, `&` or the end of a line ends a job.
* What hangs on more than the text is not followed. `read?` gives nothing for a text with an
  expansion, a pattern, an assignment, a reserved word, a parenthesis or a text of its own behind
  `<<`, and nothing for a text that breaks the grammar.
-/

namespace Rollout.Shell

/-! ## Words -/

/-- A part of a word as it is written: a character without quotes, one in quotes, or a quote. -/
inductive Sign where
  | plain (c : Char)
  | quoted (c : Char)
  | mark
deriving DecidableEq, Repr

/-- A word as it is written. -/
abbrev Word := List Sign

/-- Whether a character without quotes may make a word stand for something else: for the names of
files, for a directory or for several words. Beyond ASCII, a locale may make any a blank. -/
def isActive (c : Char) : Bool := "*?[~\x7b".toList.contains c || 127 < c.toNat

/-- The character that a sign stands for; none for a quote. -/
def Sign.char? : Sign → Option Char
  | plain c | quoted c => some c
  | mark => none

/-- Whether a sign may make a word stand for something else. -/
def Sign.isActive : Sign → Bool
  | plain c => Shell.isActive c
  | _ => false

/-- Whether a sign is a digit without quotes. -/
def Sign.isDigit : Sign → Bool
  | plain c => c.isDigit
  | _ => false

namespace Word

/-- The text that a word stands for, where no expansion is made of it. -/
def text? (w : Word) : Option String :=
  if w.any Sign.isActive then none else some (String.ofList (w.filterMap Sign.char?))

/-- Whether a word is written as digits only. -/
def isNumber (w : Word) : Bool := !w.isEmpty && w.all Sign.isDigit

/-- The number that the digits of a word make. -/
def number (w : Word) : Nat := Text.Decimal.value (w.filterMap Sign.char?) 0

/-- The words that have a meaning of their own in front of a command, in some shell at least. -/
def reserved : List String :=
  ["!", "\x7b", "\x7d", "case", "do", "done", "elif", "else", "esac", "fi", "for", "if", "in",
    "then", "until", "while", "[[", "]]", "coproc", "function", "namespace", "select", "time"]

/-- Whether a word has a meaning of its own in front of a command. -/
def isReserved (w : Word) : Bool := reserved.any fun name => w == name.toList.map .plain

/-- Whether a sign may stand in the name of a variable. -/
def isNameSign : Sign → Bool
  | .plain c => c.isAlphanum || c == '_'
  | _ => false

/-- Whether a word in front of a command sets a variable. -/
def isAssignment (w : Word) : Bool :=
  !(w.takeWhile isNameSign).isEmpty && (w.dropWhile isNameSign).head? == some (.plain '=')

end Word

/-! ## Operators -/

/-- What stands between words. -/
inductive Operator where
  | pipe
  | orElse
  | background
  | andThen
  | next
  | nextCase
  | input
  | output
  | hereText
  | hereTextTabs
  | append
  | duplicateInput
  | duplicateOutput
  | inputOutput
  | overwrite
  | opening
  | closing
deriving DecidableEq, Repr

/-- The operator that goes on with a character, for those of more than one. -/
def Operator.extend? : Operator → Char → Option Operator
  | pipe, '|' => some orElse
  | background, '&' => some andThen
  | next, ';' => some nextCase
  | input, '<' => some hereText
  | input, '&' => some duplicateInput
  | input, '>' => some inputOutput
  | output, '>' => some append
  | output, '&' => some duplicateOutput
  | output, '|' => some overwrite
  | hereText, '-' => some hereTextTabs
  | _, _ => none

/-- What a character means where it is not quoted. -/
inductive Meaning where
  /-- It is the null character, which no text of a shell has. -/
  | null
  | lineEnd
  | blank
  | apostrophe
  | quotationMark
  | backslash
  /-- It begins an expansion. -/
  | expansion
  /-- It begins a comment in front of a word, and stands for itself inside of one. -/
  | hash
  | operator (o : Operator)
  | ordinary
deriving DecidableEq, Repr

/-- What a character means where it is not quoted. -/
def meaning (c : Char) : Meaning :=
  match c with
  | '\x00' => .null
  | '\n' => .lineEnd
  | ' ' | '\t' => .blank
  | '\x27' => .apostrophe
  | '"' => .quotationMark
  | '\\' => .backslash
  | '$' | '\x60' => .expansion
  | '#' => .hash
  | '|' => .operator .pipe
  | '&' => .operator .background
  | ';' => .operator .next
  | '<' => .operator .input
  | '>' => .operator .output
  | '(' => .operator .opening
  | ')' => .operator .closing
  | _ => .ordinary

/-! ## Commands -/

/-- What a redirection does with its stream. -/
inductive Action where
  | input
  | output
  | append
  | inputOutput
  | overwrite
  /-- It makes the stream another name of the stream with the number. -/
  | duplicate
deriving DecidableEq, Repr

/-- The stream that an operator redirects where no number is in front of it, and what it does. -/
def Operator.redirects? : Operator → Option (Nat × Action)
  | input => some (0, .input)
  | output => some (1, .output)
  | append => some (1, .append)
  | duplicateInput => some (0, .duplicate)
  | duplicateOutput => some (1, .duplicate)
  | inputOutput => some (0, .inputOutput)
  | overwrite => some (1, .overwrite)
  | _ => none

/-- A redirection of a stream. -/
structure Redirect where
  stream : Nat
  action : Action
  target : String
deriving DecidableEq, Repr

/-- A command: its name and its arguments, and its redirections, in order. -/
structure Command where
  words : List String
  redirects : List Redirect
deriving DecidableEq, Repr

/-- When the commands behind a link run. -/
inductive Link where
  | ifSucceeded
  | ifFailed
deriving DecidableEq, Repr

/-- Commands up to the mark that ends them: some with a link behind each, and the last. Each of them
is a row of commands with `|` in between. -/
structure Job where
  linked : List (List Command × Link)
  last : List Command
  background : Bool
deriving DecidableEq, Repr

/-- Where a stream of a command leads. -/
inductive Stream where
  /-- To where the stream of the shell with the number leads. -/
  | shells (n : Nat)
  | file (name : String)
  | closed
deriving DecidableEq, Repr

/-- Where the streams lead behind a redirection. -/
def Redirect.apply (r : Redirect) (streams : Nat → Stream) : Nat → Stream := fun n =>
  if n = r.stream then
    match r.action with
    | .duplicate => ((Text.Decimal.read? r.target.toList).map streams).getD .closed
    | _ => .file r.target
  else streams n

/-- Where the streams of a command lead. -/
def Command.streams (c : Command) : Nat → Stream :=
  c.redirects.foldl (fun streams r => r.apply streams) .shells

/-! ## Putting commands together -/

/-- The commands read so far. -/
structure Parse where
  jobs : List Job
  linked : List (List Command × Link)
  piped : List Command
  /-- The command that is being read. -/
  command : Command
  /-- The redirection that waits for its word. -/
  pending : Option (Nat × Action)
deriving DecidableEq, Repr

namespace Parse

/-- Nothing read yet. -/
def start : Parse := ⟨[], [], [], ⟨[], []⟩, none⟩

/-- Whether nothing of a command is read. -/
def isIdle (p : Parse) : Bool := p.command.words.isEmpty && p.command.redirects.isEmpty

/-- The word that a redirection waits for, or another word of the command. -/
def argument (p : Parse) (s : String) : Parse :=
  match p.pending with
  | some (stream, action) =>
    { p with
      command := ⟨p.command.words, p.command.redirects ++ [⟨stream, action, s⟩]⟩
      pending := none }
  | none => { p with command := ⟨p.command.words ++ [s], p.command.redirects⟩ }

/-- Whether the next word is neither the first word of a command nor in front of it. -/
def takesArgument (p : Parse) : Bool := p.pending.isSome || !p.command.words.isEmpty

/-- Takes a word. -/
def word (p : Parse) (w : Word) : Option Parse :=
  if p.takesArgument || !(w.isReserved || w.isAssignment) then w.text?.map p.argument else none

/-- Ends a row of commands. -/
def endRow (p : Parse) : Option (List Command) :=
  if p.pending.isSome || p.isIdle then none else some (p.piped ++ [p.command])

/-- Ends a job. -/
def endJob (p : Parse) (background : Bool) : Option Parse :=
  p.endRow.map fun row => { start with jobs := p.jobs ++ [⟨p.linked, row, background⟩] }

/-- Ends a row with a link behind it. -/
def endLinked (p : Parse) (link : Link) : Option Parse :=
  p.endRow.map fun row =>
    { start with jobs := p.jobs, linked := p.linked ++ [(row, link)] }

/-- Takes an operator, with the number in front of it. -/
def operator (p : Parse) (o : Operator) (number : Option Nat) : Option Parse :=
  match o.redirects? with
  | some (stream, action) =>
    if p.pending.isSome then none else some { p with pending := some (number.getD stream, action) }
  | none =>
    match o with
    | .pipe =>
      p.endRow.map fun row => { start with jobs := p.jobs, linked := p.linked, piped := row }
    | .andThen => p.endLinked .ifSucceeded
    | .orElse => p.endLinked .ifFailed
    | .next => p.endJob false
    | .background => p.endJob true
    | _ => none

/-- Takes the end of a line. Behind a link the commands go on in the next line. -/
def lineEnd (p : Parse) : Option Parse :=
  if p.pending.isNone && p.isIdle then some p else p.endJob false

/-- The jobs of a text that ends here. -/
def finish (p : Parse) : Option (List Job) :=
  if p.pending.isNone && p.isIdle && p.linked.isEmpty && p.piped.isEmpty then some p.jobs
  else (p.endJob false).map (·.jobs)

end Parse

/-! ## Reading -/

/-- Where in a text a reader is. -/
inductive Mode where
  | between
  | comment
  | word (w : Word)
  /-- Behind a backslash, in a word or in front of one. -/
  | escaped (w : Option Word)
  | apostrophes (w : Word)
  | quotationMarks (w : Word)
  /-- Behind a backslash between quotation marks. -/
  | escapedInMarks (w : Word)
  | operator (o : Operator) (number : Option Nat)
deriving DecidableEq, Repr

/-- A reader of a text. -/
structure Reader where
  mode : Mode
  parse : Parse
deriving DecidableEq, Repr

namespace Reader

/-- In front of a text. -/
def start : Reader := ⟨.between, .start⟩

/-- Reads a character between words and operators. -/
def between (p : Parse) (c : Char) : Option Reader :=
  match meaning c with
  | .null | .expansion => none
  | .lineEnd => p.lineEnd.map (⟨.between, ·⟩)
  | .blank => some ⟨.between, p⟩
  | .apostrophe => some ⟨.apostrophes [.mark], p⟩
  | .quotationMark => some ⟨.quotationMarks [.mark], p⟩
  | .backslash => some ⟨.escaped none, p⟩
  | .hash => some ⟨.comment, p⟩
  | .operator o => some ⟨.operator o none, p⟩
  | .ordinary => some ⟨.word [.plain c], p⟩

/-- Whether an operator makes the digits in front of it the number of a stream. -/
def takesNumber (o : Operator) : Bool := o == .input || o == .output

/-- Reads a character in a word. Digits right in front of a redirection are no word but the number
of a stream. -/
def inWord (p : Parse) (w : Word) (c : Char) : Option Reader :=
  match meaning c with
  | .null | .expansion => none
  | .lineEnd | .blank => do between (← p.word w) c
  | .apostrophe => some ⟨.apostrophes (w ++ [.mark]), p⟩
  | .quotationMark => some ⟨.quotationMarks (w ++ [.mark]), p⟩
  | .backslash => some ⟨.escaped (some w), p⟩
  | .operator o =>
    if takesNumber o && w.isNumber then some ⟨.operator o (some w.number), p⟩
    else do between (← p.word w) c
  | .hash | .ordinary => some ⟨.word (w ++ [.plain c]), p⟩

/-- Reads a character behind a backslash. Both vanish at the end of a line. -/
def behindBackslash (p : Parse) (w : Option Word) (c : Char) : Reader :=
  match w with
  | none => if c = '\n' then ⟨.between, p⟩ else ⟨.word [.mark, .quoted c], p⟩
  | some w => if c = '\n' then ⟨.word w, p⟩ else ⟨.word (w ++ [.mark, .quoted c]), p⟩

/-- Reads a character between quotation marks. -/
def inMarks (p : Parse) (w : Word) (c : Char) : Option Reader :=
  match meaning c with
  | .expansion => none
  | .quotationMark => some ⟨.word (w ++ [.mark]), p⟩
  | .backslash => some ⟨.escapedInMarks w, p⟩
  | _ => some ⟨.quotationMarks (w ++ [.quoted c]), p⟩

/-- Reads a character behind a backslash between quotation marks, which quotes only some. -/
def behindBackslashInMarks (p : Parse) (w : Word) (c : Char) : Reader :=
  match meaning c with
  | .lineEnd => ⟨.quotationMarks w, p⟩
  | .expansion | .quotationMark | .backslash => ⟨.quotationMarks (w ++ [.quoted c]), p⟩
  | _ => ⟨.quotationMarks (w ++ [.quoted '\\', .quoted c]), p⟩

/-- Reads a character. -/
def step (r : Reader) (c : Char) : Option Reader :=
  if c = '\x00' then none
  else match r.mode with
    | .between => between r.parse c
    | .comment => if c = '\n' then between r.parse c else some r
    | .word w => inWord r.parse w c
    | .escaped w => some (behindBackslash r.parse w c)
    | .apostrophes w =>
      if c = '\x27' then some ⟨.word (w ++ [.mark]), r.parse⟩
      else some ⟨.apostrophes (w ++ [.quoted c]), r.parse⟩
    | .quotationMarks w => inMarks r.parse w c
    | .escapedInMarks w => some (behindBackslashInMarks r.parse w c)
    | .operator o number =>
      match o.extend? c with
      | some longer => some ⟨.operator longer number, r.parse⟩
      | none => do between (← r.parse.operator o number) c

/-- Reads characters. -/
def run : Reader → List Char → Option Reader
  | r, [] => some r
  | r, c :: cs => do run (← r.step c) cs

/-- The jobs of a text that ends here. -/
def finish (r : Reader) : Option (List Job) :=
  match r.mode with
  | .between | .comment => r.parse.finish
  | .word w => do (← r.parse.word w).finish
  | .operator o number => do (← r.parse.operator o number).finish
  | _ => none

/-- The jobs of a text whose rest is still to be read. -/
def jobs? (r : Reader) (rest : List Char) : Option (List Job) := do (← r.run rest).finish

/-- What was read where a new word may begin: between words, or right behind an operator. -/
def place? (r : Reader) : Option Parse :=
  match r.mode with
  | .between => some r.parse
  | .operator o number => r.parse.operator o number
  | _ => none

end Reader

/-- The jobs of a text. -/
def read? (s : String) : Option (List Job) := Reader.start.jobs? s.toList

example : read? "cat > 'a b' && chmod 770 \"a b\"" =
    some [⟨[([⟨["cat"], [⟨1, .output, "a b"⟩]⟩], .ifSucceeded)],
      [⟨["chmod", "770", "a b"], []⟩], false⟩] := by
  decide +kernel

example : read? "sleep 2>out; cat '2'>out" =
    some [⟨[], [⟨["sleep"], [⟨2, .output, "out"⟩]⟩], false⟩,
      ⟨[], [⟨["cat", "2"], [⟨1, .output, "out"⟩]⟩], false⟩] := by
  decide +kernel

end Rollout.Shell
