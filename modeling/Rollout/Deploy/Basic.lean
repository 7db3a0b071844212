import Rollout.Deploy.Conclusion
import Rollout.Fleet.Retry

/-!
# Deployments

A deployment creates the pool where the load balancer does not know it, runs the rollout, and tries
failed upgrades again until none is left or the passes are used up.
-/

namespace Rollout

/-- Why a deployment has no conclusion. -/
inductive DeployError where
  | poolCreation (pattern : String) (source : PoolError)
  | fleet (source : ConfigError)
deriving DecidableEq, Repr

namespace DeployError

/-- The message of an error and of what caused it, in that order. -/
def chain : DeployError → List String
  | poolCreation pattern source => ["could not create pool " ++ pattern, source.message]
  | fleet source => (RunError.config source).message :: source.chain

/-- What went wrong, with all its causes. -/
def message (e : DeployError) : String := ": ".intercalate e.chain

end DeployError

/-- How far a deployment is. -/
inductive Deploy where
  /-- It waits for the health of the pool. -/
  | ensuring
  /-- It waits for the creation of the pool. -/
  | creating
  | running (fleet : Fleet) (run : Run)
  | cleaning (fleet : Fleet) (cleanup : Cleanup)
  | ended (result : Except DeployError Conclusion)
  | crashed (text : String)

namespace Deploy

/-- The call that asks for the pool. -/
def ensureCall (c : Config) : Wait := .call (.poolHealth c.pattern)

/-- The call that creates the pool. -/
def createCall (c : Config) : Wait :=
  .call (.addPool c.pattern .twoChoices (.standard c.healthPath))

/-- Follows a cleanup to the conclusion. -/
def ofCleanup (fleet : Fleet) (c : Cleanup) : Deploy :=
  match c.phase with
  | .ended (.ok ()) => .ended (.ok (.ofFleet fleet none))
  | .ended (.error e) => .ended (.ok (.ofFleet fleet (some e)))
  | .crashed text => .crashed text
  | _ => .cleaning fleet c

/-- Follows a rollout: its failure is the conclusion, and its success leads to the cleanup. -/
def ofRun (ctx : Context) (m : Moment) : Fleet × Run → Deploy
  | (fleet, .ended (.error e)) => .ended (.ok (.ofFleet fleet (some e)))
  | (fleet, .ended (.ok ())) =>
    ofCleanup fleet
      (.start fleet ctx m fleet.config.retryPasses.toNat fleet.config.retryDelay)
  | (_, .crashed text) => .crashed text
  | (fleet, run) => .running fleet run

/-- Makes the fleet and begins the rollout. -/
def begin_ (c : Config) (ctx : Context) (m : Moment) : Deploy :=
  match Fleet.ofConfig c .standard with
  | .error e => .ended (.error (.fleet e))
  | .ok fleet => ofRun ctx m (Run.start fleet ctx m)

/-- Goes on with the health of the pool. Whatever the error, the pool is taken for missing. -/
def ensured (c : Config) (ctx : Context) (m : Moment) : Event (ensureCall c) → Deploy
  | .result r =>
    match (r : Except PoolError PoolHealth) with
    | .ok _ => begin_ c ctx m
    | .error _ => .creating
  | .stopped _ => .ensuring
  | .crashed text => .crashed text

/-- Goes on with the creation of the pool. -/
def created (c : Config) (ctx : Context) (m : Moment) : Event (createCall c) → Deploy
  | .result r =>
    match (r : Except PoolError Unit) with
    | .ok () => begin_ c ctx m
    | .error e => .ended (.error (.poolCreation c.pattern e))
  | .stopped _ => .creating
  | .crashed text => .crashed text

end Deploy

end Rollout
