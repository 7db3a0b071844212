/-!
# Slash-separated paths

The name and the extension of the last component of a path. Empty components and components that
are a single dot do not count.

* `fileName?` is the last component; a path without components, or one that ends in two dots, has
  none.
* `extension?` is what follows the last dot of the file name, when something stands before it.
-/

namespace Rollout.Text.Path

/-- Cuts characters at every `sep`, with the part read so far in reverse. -/
def splitFrom (sep : Char) : List Char → List Char → List (List Char)
  | [], part => [part.reverse]
  | c :: rest, part =>
    if c = sep then part.reverse :: splitFrom sep rest [] else splitFrom sep rest (c :: part)

/-- The parts between the separators, one more than there are separators. -/
def split (sep : Char) (cs : List Char) : List (List Char) := splitFrom sep cs []

/-- The components of a path, in order. -/
def components (path : String) : List (List Char) :=
  (split '/' path.toList).filter fun part => !part.isEmpty && part != ['.']

/-- The last component, unless it leads to a parent directory. -/
def fileName? (path : String) : Option String :=
  ((components path).getLast?.filter (· != ['.', '.'])).map String.ofList

/-- What follows the last dot of a file name that does not begin with that dot. -/
def extension? (path : String) : Option String :=
  (fileName? path).bind fun name =>
    let reversed := name.toList.reverse
    match reversed.dropWhile (· != '.') with
    | [] | [_] => none
    | _ :: _ => some (String.ofList (reversed.takeWhile (· != '.')).reverse)

end Rollout.Text.Path
