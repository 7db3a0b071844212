/-!
# Stages

The stages of one upgrade, in the order in which they run.
-/

namespace Rollout

/-- A stage of an upgrade. -/
inductive Stage where
  | removeFromPool
  | killExisting
  | copyBinary
  | startBinary
  | waitHealthy
  | addToPool
  | done
deriving DecidableEq, Repr, Inhabited

namespace Stage

/-- The name of a stage. -/
def name : Stage → String
  | removeFromPool => "RemoveFromPool"
  | killExisting => "KillExisting"
  | copyBinary => "CopyBinary"
  | startBinary => "StartBinary"
  | waitHealthy => "WaitHealthy"
  | addToPool => "AddToPool"
  | done => "Done"

/-- The stages in order. -/
def all : List Stage :=
  [removeFromPool, killExisting, copyBinary, startBinary, waitHealthy, addToPool, done]

/-- Where an upgrade starts. -/
def initial : Stage := removeFromPool

/-- The place of a stage in the order. -/
def rank : Stage → Nat
  | removeFromPool => 0
  | killExisting => 1
  | copyBinary => 2
  | startBinary => 3
  | waitHealthy => 4
  | addToPool => 5
  | done => 6

/-- The stage that follows when a stage succeeds. -/
def next : Stage → Stage
  | removeFromPool => killExisting
  | killExisting => copyBinary
  | copyBinary => startBinary
  | startBinary => waitHealthy
  | waitHealthy => addToPool
  | addToPool | done => done

/-- Whether nothing is left to do. -/
def isDone (s : Stage) : Bool := s == done

/-- Each stage but the last stands right before the next. -/
theorem rank_next (s : Stage) : s.next.rank = min (s.rank + 1) 6 := by cases s <;> rfl

end Stage

end Rollout
