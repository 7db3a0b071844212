import Rollout.Files.Basic

/-!
# Programs

Files that can be run, and what keeps a process from being made.

* A program is a binary one or a script. The first line of a script names its interpreter, which is
  a program again.
* `Files.launch` says whether a process can be made from a program and its arguments.
* `Files.machine` holds the programs that every machine has.
-/

namespace Rollout.Files

/-- Whether the owner may run a file of a mode. -/
def runnable (mode : Nat) : Bool := mode &&& 0o100 != 0

/-- The content of a file that is allowed to run. -/
def runnableContent (files : Files) (path : String) : Except IoError Bytes :=
  match files.find path with
  | .error e => .error e
  | .ok .directory => .error .denied
  | .ok (.file content mode) => if runnable mode then .ok content else .error .denied

/-! ## Scripts -/

/-- Whether a byte is a space or a tab. -/
def isGap (b : UInt8) : Bool := b = 32 || b = 9

/-- How many bytes of a file are looked at to find its interpreter. -/
def headSize : Nat := 256

/-- The path of the interpreter that the first line of a script names. The line has to end, or at
least the path in it, within the part that is looked at. -/
def interpreter? (content : Bytes) : Option Bytes :=
  match content.take headSize with
  | 0x23 :: 0x21 :: rest =>
    let (line, after) := rest.span fun b => b != 10 && b != 0
    let named := line.dropWhile isGap
    let path := named.takeWhile (!isGap ·)
    match after with
    | 10 :: _ => if path.isEmpty then none else some path
    | _ :: _ => some path
    | [] => if content.length < headSize || path.length < named.length then some path else none
  | _ => none

/-! ## Binary programs -/

/-- The number that bytes hold, the lowest first. -/
def numberIn (bytes : Bytes) : Nat := bytes.foldr (fun b n => n * 256 + b.toNat) 0

/-- The number in some bytes of a file. What stands behind its end counts as zero. -/
def numberAt (content : Bytes) (offset size : Nat) : Nat := numberIn ((content.drop offset).take size)

/-- The beginning of every binary program. -/
def binaryMark : Bytes := [0x7F, 0x45, 0x4C, 0x46]

/-- The number of the machine that binary programs are made for. -/
def machineNumber : Nat := 62

/-- The bytes of one entry in the table of a binary program. -/
def tableEntrySize : Nat := 56

/-- The most bytes of the table of a binary program. -/
def maxTable : Nat := 65536

/-- Whether a file is a binary program: its head says that it can be run on this machine, and the
table that the head refers to lies within the file. -/
def isBinary (content : Bytes) : Bool :=
  let kind := numberAt content 16 2
  let table := numberAt content 32 8
  let size := numberAt content 56 2 * tableEntrySize
  content.take 4 == binaryMark && (kind == 2 || kind == 3) &&
    numberAt content 18 2 == machineNumber && numberAt content 54 2 == tableEntrySize &&
    0 < size && size ≤ maxTable && table + size ≤ content.length

/-- A binary program that does nothing: a head and a table with an empty entry. -/
def idleBinary : Bytes :=
  binaryMark ++ [2, 1, 1, 0, 0, 0, 0, 0, 0, 0, 0, 0, 2, 0, 62, 0] ++ List.replicate 12 0 ++
    [64, 0, 0, 0, 0, 0, 0, 0] ++ List.replicate 12 0 ++ [64, 0, 56, 0, 1, 0] ++ List.replicate 62 0

example : isBinary idleBinary = true := by decide

/-! ## Making a process -/

/-- How many programs may be loaded one for the other: a script and its interpreters. -/
def maxLoads : Nat := 6

/-- Whether the content of a file is a program. -/
def loadable (files : Files) : Nat → Bytes → Except IoError Unit
  | 0, _ => .error .tooManyLinks
  | loads + 1, content =>
    if isBinary content then .ok ()
    else match interpreter? content with
      | none => .error .notExecutable
      | some path =>
        match files.runnableContent (Text.Utf8.lossy path) with
        | .error e => .error e
        | .ok content => files.loadable loads content

/-- The first number of bytes that no argument of a process has. -/
def argumentLimit : Nat := 131072

/-- Whether a text holds a null character, which would end an argument early. -/
def holdsNull (texts : List String) : Bool := texts.any fun s => s.toList.contains '\x00'

/-- Whether a text is too long for an argument. -/
def overlong (texts : List String) : Bool := texts.any fun s => argumentLimit ≤ s.utf8ByteSize

/-- Whether texts can be handed to a process. -/
def checkArguments (texts : List String) : Except IoError Unit :=
  if holdsNull texts then .error .nullInArgument
  else if overlong texts then .error .tooMuchArgument
  else .ok ()

/-- The directories whose programs are known by their names alone. -/
def programDirectories : List String := ["/usr/bin/", "/bin/"]

/-- The content of the program that a name leads to. A name without a slash is that of a known
program. -/
def programContent (files : Files) (program : String) : Except IoError Bytes :=
  if '/' ∈ program.toList then files.runnableContent program
  else if program.isEmpty then .error .notFound
  else if maxName < program.utf8ByteSize then .error .nameTooLong
  else
    let paths := programDirectories.map (· ++ program)
    (paths.findSome? fun path => (files.runnableContent path).toOption).elim (.error .notFound) .ok

/-- Whether a process can be made from a program and its arguments. -/
def launch (files : Files) (program : String) (args : List String) : Except IoError Unit :=
  if holdsNull (program :: args) then .error .nullInArgument
  else match files.programContent program with
    | .error e => .error e
    | .ok content =>
      if overlong (program :: args) then .error .tooMuchArgument
      else files.loadable maxLoads content

/-! ## The machine -/

/-- The programs that every machine has. -/
def commonPrograms : List String :=
  ["bash", "cat", "chmod", "cp", "date", "echo", "env", "false", "grep", "ls", "mkdir", "mv", "pwd",
    "rm", "sed", "sh", "sleep", "touch", "true"]

/-- A machine with its programs and nothing else. -/
def machine : Files :=
  let programs := programDirectories.flatMap fun directory => commonPrograms.map (directory ++ ·)
  programs.foldl (fun files path => files.install path (.file idleBinary 0o755))
    (Files.empty.install "/tmp" .directory)

end Rollout.Files
