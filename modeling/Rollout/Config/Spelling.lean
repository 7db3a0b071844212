import Rollout.Config.Text
import Rollout.Document.Toml.Spelling

/-!
# Configurations as settings

Which texts spell a configuration as a settings file: a line for each field in any order, with the
transport as a table on one line. An option that is absent has no line, as there is no word for it.
-/

namespace Rollout.Config

open Document

/-- The members that are there. -/
def present (members : List (String × Value)) : List (String × Value) :=
  members.filter fun m => !m.2.isNull

/-- The members of a configuration with something else in the place of its transport. -/
def membersWith (c : Config) (transport : Value) : List (String × Value) :=
  c.value.members.map fun m => if m.1 = "Transport" then (m.1, transport) else m

/-- Whether a text spells a configuration. -/
def SpelledBy (c : Config) (text : String) : Prop :=
  ∃ inner lines, inner.Perm (present c.transport.value.members) ∧
    lines.Perm (present (c.membersWith (.object inner))) ∧ Toml.SpellsLines text.toList lines

/-- Whether the numbers of a configuration fit the integers of a settings file. -/
def Fits (c : Config) : Prop :=
  ∀ n ∈ [c.concurrency, c.canaryNum, c.preconditionTimeoutSecs, c.actionTimeoutSecs,
    c.canaryCooldownSecs, c.retryDelaySecs], n.toNat ≤ Toml.maxInteger

instance (c : Config) : Decidable c.Fits := List.decidableBAll _ _

end Rollout.Config
