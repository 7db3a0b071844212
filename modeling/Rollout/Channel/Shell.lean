import Rollout.Channel.Error
import Rollout.Channel.Signal
import Rollout.Text.Blank

/-!
# Shell commands

The commands that go to a target's shell, and what comes back.

* `Shell.quote` writes a text as one word: as it is when a shell gives no character of it a
  meaning, and between apostrophes otherwise. An apostrophe itself stands outside of them, behind a
  backslash.
* `Shell.readPids` reads the output of a process lookup: process numbers with blanks between them.
  `Shell.SpellsPid` says what one of them looks like.
-/

namespace Rollout.Shell

/-- Whether a shell gives a character no meaning. -/
def isPlain (c : Char) : Bool := c.isAlphanum || "-_./=:@%+,".toList.contains c

/-- A character between apostrophes. -/
def quotedChar (c : Char) : List Char :=
  if c = '\x27' then ['\x27', '\\', '\x27', '\x27'] else [c]

/-- A text as one word of a shell. -/
def quoteChars (cs : List Char) : List Char :=
  if !cs.isEmpty && cs.all isPlain then cs
  else '\x27' :: (cs.flatMap quotedChar ++ ['\x27'])

/-- A text as one word of a shell. -/
def quote (s : String) : String := String.ofList (quoteChars s.toList)

/-- The command that looks for the processes with a name. -/
def lookup (name : String) : String := "pidof " ++ quote name

/-- The command that starts a program in the background, without output. -/
def detached (program : String) (args : List String) : String :=
  " ".intercalate ("nohup" :: quote program :: args.map quote) ++ " > /dev/null 2>&1 &"

/-- The command that writes its input to a file and sets the file's mode. -/
def receive (dst : String) (mode : Nat) : String :=
  "cat > " ++ quote dst ++ " && chmod " ++ Text.Decimal.octalText mode ++ " " ++ quote dst

/-- Whether characters stand for a process number: its digits, with zeros in front or none, and a
plus sign in front of them or none. -/
def SpellsPid (cs : List Char) (pid : Pid) : Prop := Text.Decimal.SpellsUnsigned cs pid.toNat

/-- A process number. -/
def readPid? (word : List Char) : Option Pid :=
  (Text.Decimal.readUnsigned? UInt32.size word).map UInt32.ofNat

/-- The process numbers in the output of a lookup. -/
def readPids (command output : String) : Except ExecError (List Pid) :=
  match (Text.words output.toList).mapM readPid? with
  | some pids => .ok pids
  | none => .error (.output command output)

end Rollout.Shell
