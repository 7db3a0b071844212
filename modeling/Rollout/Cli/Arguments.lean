import Rollout.Text.Terminal

/-!
# Command line arguments

A `Command` describes the options of a program and the one argument without a name that it may need.
`Command.parse` reads arguments from left to right. An option may stand before its value, be joined
to it by an equals sign, or have a short name to which the value is attached.

A value that stands apart from its option is looked at when the next known option or argument comes,
or at the end. So an unknown argument behind a bad value is reported in its place.
-/

namespace Rollout.Cli

/-- An option of a program. -/
structure OptionSpec where
  long : String
  short : Option Char
  /-- The name of its value; a flag has none. -/
  value : Option String
  /-- Whether it may be given more than once. -/
  repeatable : Bool
  /-- The option without which it may not be given. -/
  needs : Option String
  /-- What is wrong with a value, if anything is. -/
  fault : String → Option String

/-- The option as messages show it. -/
def OptionSpec.shown (o : OptionSpec) : String :=
  "--" ++ o.long ++
    match o.value with
    | some name => " <" ++ name ++ ">"
    | none => ""

/-- A flag. -/
def OptionSpec.flag (long : String) (short : Option Char) : OptionSpec :=
  ⟨long, short, none, false, none, fun _ => none⟩

/-- What is wrong with arguments. -/
inductive ArgumentError where
  | unexpected (argument : String)
  | missingValue (option : String)
  | surplusValue (option value : String)
  | repeated (option : String)
  | invalidValue (value option reason : String)
  | missingArguments
deriving DecidableEq, Repr

/-- What is wrong, in words. An argument is shown as on a terminal. -/
def ArgumentError.message : ArgumentError → String
  | unexpected argument => "unexpected argument '" ++ Text.Terminal.visible argument ++ "' found"
  | missingValue option => "a value is required for '" ++ option ++ "' but none was supplied"
  | surplusValue option value =>
    "unexpected value '" ++ Text.Terminal.visible value ++ "' for '" ++ option ++
      "' found; no more were expected"
  | repeated option => "the argument '" ++ option ++ "' cannot be used multiple times"
  | invalidValue value option reason =>
    "invalid value '" ++ Text.Terminal.visible value ++ "' for '" ++ option ++ "': " ++ reason
  | missingArguments => "the following required arguments were not provided:"

/-- A program's arguments. -/
structure Command where
  name : String
  /-- What the program prints when asked for its version; some are not asked. -/
  version : Option String
  /-- What the program prints when asked for help. -/
  help : String
  options : List OptionSpec
  /-- The name of the argument without a name, where the program needs one. -/
  argument : Option String

/-- The arguments that were read: values by option, and the argument without a name. -/
structure Arguments where
  values : List (String × String)
  argument : Option String
deriving Repr, DecidableEq

/-- What arguments ask for. -/
inductive Request where
  | work (arguments : Arguments)
  | help
  | version
  | refused (e : ArgumentError)

/-- What was read but not looked at yet. -/
inductive Pending where
  | nothing
  /-- An option that waits for its value, or has it. -/
  | option (o : OptionSpec) (value : Option String)
  /-- The argument without a name. -/
  | argument (value : String)

/-- Arguments while they are read. -/
structure Intake where
  arguments : Arguments
  pending : Pending

namespace Command

/-- The options that are asked for by a name of their own: help, and the version of a program that
has one. -/
def questions (c : Command) : List (OptionSpec × Request) :=
  (.flag "help" 'h', .help) ::
    match c.version with
    | some _ => [(.flag "version" 'V', .version)]
    | none => []

/-- Takes a value for an option. -/
def accept (o : OptionSpec) (value : String) (a : Arguments) : Except ArgumentError Arguments :=
  if !o.repeatable ∧ a.values.any (·.1 == o.long) then .error (.repeated o.shown)
  else match o.fault value with
    | some reason => .error (.invalidValue value o.shown reason)
    | none => .ok { a with values := a.values ++ [(o.long, value)] }

/-- Looks at what was read last. -/
def settle (c : Command) (s : Intake) : Except ArgumentError Arguments :=
  match s.pending with
  | .nothing => .ok s.arguments
  | .option o none => .error (.missingValue o.shown)
  | .option o (some value) => accept o value s.arguments
  | .argument value =>
    if value.isEmpty then .error (.missingValue ("<" ++ c.argument.getD "" ++ ">"))
    else .ok { s.arguments with argument := some value }

/-- Looks at what was read last, and goes on if nothing is wrong with it. -/
def onward (c : Command) (s : Intake) (next : Arguments → Except ArgumentError Intake) :
    Except Request Intake :=
  match (c.settle s).bind next with
  | .ok s => .ok s
  | .error e => .error (.refused e)

/-- Reads an option with the value that is attached to it. -/
def readOption (c : Command) (o : OptionSpec) (attached : Option String) (s : Intake) :
    Except Request Intake :=
  match o.value, attached with
  | none, some value => .error (.refused (.surplusValue o.shown value))
  | none, none => c.onward s fun a => do return ⟨← accept o "" a, .nothing⟩
  | some _, some value => c.onward s fun a => do return ⟨← accept o value a, .nothing⟩
  | some _, none => c.onward s fun a => .ok ⟨a, .option o none⟩

/-- Reads a question. -/
def readQuestion (c : Command) (o : OptionSpec) (answer : Request) (attached : Option String)
    (s : Intake) : Except Request Intake :=
  match attached with
  | some value => .error (.refused (.surplusValue o.shown value))
  | none =>
    match c.settle s with
    | .ok _ => .error answer
    | .error e => .error (.refused e)

/-- Reads an argument that begins with two dashes. -/
def readLong (c : Command) (name : String) (attached : Option String) (s : Intake) :
    Except Request Intake :=
  match c.options.find? (·.long == name) with
  | some o => c.readOption o attached s
  | none =>
    match c.questions.find? (·.1.long == name) with
    | some (o, answer) => c.readQuestion o answer attached s
    | none => .error (.refused (.unexpected ("--" ++ name)))

/-- What is attached to a short name. -/
def attachment : List Char → Option String
  | [] => none
  | '=' :: rest => some (String.ofList rest)
  | rest => some (String.ofList rest)

/-- Reads the short names in an argument that begins with one dash. -/
def readShort (c : Command) : List Char → Intake → Except Request Intake
  | [], s => .ok s
  | name :: rest, s =>
    match c.options.find? (·.short == some name) with
    | some o =>
      if o.value.isSome then c.readOption o (attachment rest) s
      else do c.readShort rest (← c.readOption o none s)
    | none =>
      match c.questions.find? (·.1.short == some name) with
      | some (o, answer) => c.readQuestion o answer none s
      | none => .error (.refused (.unexpected ("-" ++ String.singleton name)))

/-- Reads an argument without a name. -/
def readPlain (c : Command) (arg : String) (s : Intake) : Except Request Intake :=
  let taken := match s.pending with
    | .argument _ => true
    | _ => s.arguments.argument.isSome
  if c.argument.isNone || taken then .error (.refused (.unexpected arg))
  else c.onward s fun a => .ok ⟨a, .argument arg⟩

/-- Reads an argument that is no option: the value that an option waits for, or one without a
name. -/
def readWord (c : Command) (arg : String) (s : Intake) : Except Request Intake :=
  match s.pending with
  | .option o none => .ok { s with pending := .option o (some arg) }
  | _ => c.readPlain arg s

/-- Reads the arguments in order; behind two dashes that stand alone, none of them is an option. -/
def readAll (c : Command) : List String → Intake → Except Request Intake
  | [], s => .ok s
  | arg :: rest, s =>
    match arg.toList with
    | ['-', '-'] => rest.foldlM (fun s arg => c.readPlain arg s) s
    | '-' :: '-' :: chars => do
      let attached := match chars.dropWhile (· != '=') with
        | _ :: value => some (String.ofList value)
        | [] => none
      c.readAll rest (← c.readLong (String.ofList (chars.takeWhile (· != '='))) attached s)
    | '-' :: names@(_ :: _) => do c.readAll rest (← c.readShort names s)
    | _ => do c.readAll rest (← c.readWord arg s)

/-- Whether something is missing that the program or one of its options needs. -/
def lacks (c : Command) (a : Arguments) : Bool :=
  (c.argument.isSome && a.argument.isNone) ||
    c.options.any fun o =>
      a.values.any (·.1 == o.long) && o.needs.any fun n => !a.values.any (·.1 == n)

/-- What arguments ask for once all of them were read. -/
def conclude (c : Command) (s : Intake) : Request :=
  match c.settle s with
  | .error e => .refused e
  | .ok a => if c.lacks a then .refused .missingArguments else .work a

/-- Reads the arguments of a program. -/
def parse (c : Command) (args : List String) : Request :=
  match c.readAll args ⟨⟨[], none⟩, .nothing⟩ with
  | .ok s => c.conclude s
  | .error r => r

end Command

end Rollout.Cli
