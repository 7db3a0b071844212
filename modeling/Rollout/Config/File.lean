import Rollout.Config.Text
import Rollout.Document.Toml.Reader
import Rollout.Digest.Sha256
import Rollout.Files.Basic

/-!
# Configuration files

A configuration is read from a settings file when the file's name ends so, and from a JSON file
otherwise. What is loaded has been checked.
-/

namespace Rollout.Config

open Document

/-- The reason of a text that breaks the grammar of settings files. -/
def settingsFault : String := "syntax"

/-- The name that stands for a text that came from no file. -/
def inlineName : String := "<inline>"

/-- The configuration of a JSON text that came from the named file. -/
def ofJson (name text : String) : Except ConfigError Config :=
  match Json.decode record.decode text with
  | .ok c => .ok c
  | .error e => .error (.parse name e.message)

/-- The configuration of a settings file. -/
def ofSettings (name text : String) : Except ConfigError Config :=
  match Toml.read text with
  | none => .error (.parse name settingsFault)
  | some node =>
    match record.decode .table node with
    | .ok c => .ok c
    | .error e => .error (.parse name e.message)

/-- Whether a file is a settings file. -/
def isSettingsFile (name : String) : Bool := Text.Path.extension? name == some "toml"

/-- The configuration of a text, by the name of its file. -/
def ofText (name text : String) : Except ConfigError Config :=
  if isSettingsFile name then ofSettings name text else ofJson name text

/-- Loads a configuration from a file and checks it. -/
def load (files : Files) (name : String) : Except ConfigError Config := do
  match files.readText name with
  | .error e => throw (.read name e)
  | .ok text =>
    let c ← ofText name text
    c.check
    pure c

/-- The digest of the binary, in hexadecimal. -/
def sourceDigest (files : Files) (c : Config) : Except IoError String :=
  match files.readBytes c.src with
  | .ok content => .ok (Digest.Sha256.hex (Digest.Sha256.digest content))
  | .error e => .error e

end Rollout.Config
