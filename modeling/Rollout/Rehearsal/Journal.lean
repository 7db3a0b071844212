import Rollout.Document.Value
import Rollout.Pool.Text
import Rollout.Rehearsal.World

/-!
# Journals of rehearsals

What was noted in a rehearsal, and what it leaves behind, as documents.

* A note is a list: the time in milliseconds, the name of what was done, and with what.
* `World.journal` sorts the notes by host, and `World.remains` shows the pools and the processes
  that live.
-/

namespace Rollout

open Document

/-- The name of a call and what it is made with. -/
def Call.noted : Call → List Value
  | poolHealth pattern => [.string "health", .string pattern]
  | addPool pattern type checks =>
    [.string "add_pool", .string pattern, type.value, checks.value]
  | removeBackend pattern b => [.string "remove", .string pattern, .string b.text]
  | addBackend pattern b => [.string "add", .string pattern, .string b.text]
  | find _ name => [.string "run", .string (Shell.lookup name)]
  | signal _ s pid => [.string "run", .string (s.command pid)]
  | copy _ _ dst mode => [.string "copy", .string dst, .string (Text.Decimal.octalText mode)]
  | start _ program args => [.string "start", .string program, .strings args]
  | probe endpoint => [.string "probe", .string endpoint]

/-- The name of what was noted and what it is about. -/
def Note.noted : Note → List Value
  | call c => c.noted
  | read count first => [.string "read", .nat count, .string (Text.Utf8.lossy first)]

/-- A note with its time. -/
def LogEntry.value (e : LogEntry) : Value := .array (.nat e.at_.millis :: e.note.noted)

/-- The members of a pool, sorted. -/
def Pool.sortedMembers (p : Pool) : List String :=
  (p.backends.map Backend.text).mergeSort fun a b => decide (a ≤ b)

namespace World

/-- The notes of every host, in order. -/
def journal (w : World) : Value :=
  let log := w.log.reverse
  .object ((log.map (·.host)).eraseDups.map fun host =>
    (host, .array ((log.filter (·.host == host)).map LogEntry.value)))

/-- The living processes of a host. -/
def living (w : World) (h : Host) : Value :=
  .array ((h.live w.now).map fun p => .array [.nat p.pid.toNat, .string p.name])

/-- The members of the pools and the processes that live. -/
def remains (w : World) : Value :=
  .object [
    ("pools", .object (w.table.pools.map fun (name, p) => (name, .strings p.sortedMembers))),
    ("processes", .object (w.hosts.map fun (name, h) => (name, w.living h)))]

end World

end Rollout
