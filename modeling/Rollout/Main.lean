import Rollout.Cli.Programs

/-!
# The command line

Reads the files that the arguments name, runs the rollout program on them, and prints what it leaves
behind.
-/

namespace Rollout.Cli

/-- What a path names on disk, if it can be read. -/
def diskEntry (path : String) : IO (Option Entry) := do
  try
    return some (.file (← IO.FS.readBinFile path).toList 0o644)
  catch e =>
    match e with
    | .inappropriateType _ _ _ => return some .directory
    | _ => return none

/-- Files with what a path names on disk. -/
def withDisk (files : Files) (path : String) : IO Files := do
  match ← diskEntry path with
  | some entry => return files.install path entry
  | none => return files

/-- The files that the rollout program reads: the configuration and the binary that it names. -/
def wantedFiles (args : List String) : IO Files := do
  match rolloutCommand.parse args with
  | .work a =>
    let path := a.argument.getD ""
    let files ← withDisk .empty path
    match Config.load files path with
    | .ok c => withDisk files c.src
    | .error _ => return files
  | _ => return .empty

end Rollout.Cli

/-- Runs the rollout program. -/
def main (args : List String) : IO UInt32 := do
  let files ← Rollout.Cli.wantedFiles args
  let exit := Rollout.Cli.run Rollout.Cli.rolloutCommand.name files args
  (← IO.getStdout).putStr exit.stdout
  (← IO.getStderr).putStr exit.stderr
  return UInt32.ofNat exit.code
