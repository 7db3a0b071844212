import Rollout.Document.Decode
import Rollout.Document.Json.Reader
import Rollout.Document.Json.Writer

/-!
# JSON texts of values

`decode` reads a value from a JSON text; nothing but blanks may follow it.
-/

namespace Rollout.Document.Json

/-- The value of a document. -/
def decodeParsed (d : Decoder α) (document : Parsed) : Except DecodeError α := do
  let a ← d (.streamed maxLevels) document.root
  if document.trailing then failGrammar .trailingText else pure a

/-- The value of a JSON text. -/
def decode (d : Decoder α) (text : String) : Except DecodeError α := decodeParsed d (read text)

/-- The value of the bytes of a JSON text. -/
def decodeBytes (d : Decoder α) (bytes : Bytes) : Except DecodeError α :=
  decodeParsed d (readBytes bytes)

end Rollout.Document.Json
