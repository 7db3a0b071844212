import Rollout.Config.Basic
import Rollout.Config.Error
import Rollout.Net.Backend
import Rollout.Text.Blank

/-!
# Valid configurations

`Config.check` looks at the load balancer's address, the backends, the pattern and the concurrency,
in this order, and reports the first that is wrong.
-/

namespace Rollout

/-- The backend that a text names, or why it names none. -/
def Backend.ofText (addr : String) : Except ConfigError Backend :=
  match Backend.read addr with
  | .ok b => .ok b
  | .error fault => .error (.address addr fault.message)

/-- The backend of a configured address. -/
def Backend.ofConfigured (addr : String) : Except ConfigError Backend :=
  match Backend.ofText addr with
  | .ok b => .ok b
  | .error e => .error (.backend addr e)

namespace Config

/-- The configured backends, in order. -/
def backendList (c : Config) : Except ConfigError (List Backend) :=
  c.backends.mapM Backend.ofConfigured

/-- Refuses a configuration that no rollout can follow. -/
def check (c : Config) : Except ConfigError Unit := do
  match Backend.ofText c.lb with
  | .ok _ => pure ()
  | .error e => throw (.loadBalancer c.lb e)
  if c.backends.isEmpty then throw .noBackends
  let _ ← c.backendList
  if (Text.trim c.pattern).isEmpty then throw (.pattern c.pattern)
  if c.concurrency < 1 then throw (.concurrency c.concurrency.toNat)

/-- What a configuration needs that passes its check. -/
theorem check_eq_ok {c : Config} : c.check = .ok () ↔
    (∃ b, Backend.ofText c.lb = .ok b) ∧ c.backends ≠ [] ∧ (∃ bs, c.backendList = .ok bs) ∧
      Text.trim c.pattern ≠ "" ∧ 1 ≤ c.concurrency := by
  have hthrow (e : ConfigError) : (throw e : Except ConfigError Unit) = .error e := rfl
  unfold check
  cases Backend.ofText c.lb with
  | error e => simp [hthrow, bind, Except.bind]
  | ok b =>
    by_cases hb : c.backends = []
    · simp [hb, hthrow, bind, Except.bind]
    · cases c.backendList with
      | error e => simp [hb, bind, Except.bind]
      | ok bs =>
        by_cases hp : Text.trim c.pattern = ""
        · simp [hb, hp, hthrow, bind, Except.bind]
        · by_cases hc : c.concurrency < 1
          · simp [hb, hp, hc, hthrow, bind, Except.bind]
          · simp [hb, hp, hc, UInt64.not_lt.mp hc, bind, Except.bind, pure, Except.pure]

end Config

end Rollout
