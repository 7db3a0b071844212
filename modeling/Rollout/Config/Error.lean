import Rollout.Files.IoError
import Rollout.Text.Quoted

/-!
# Configuration errors

What is wrong with a configuration: its file, its text, or one of its values.
-/

namespace Rollout

/-- What is wrong with a configuration. -/
inductive ConfigError where
  | read (path : String) (source : IoError)
  | parse (path : String) (reason : String)
  | address (addr : String) (reason : String)
  | loadBalancer (addr : String) (source : ConfigError)
  | backend (addr : String) (source : ConfigError)
  | noBackends
  | pattern (pattern : String)
  | concurrency (value : Nat)
deriving DecidableEq, Repr

namespace ConfigError

/-- What is wrong, in words. -/
def message : ConfigError → String
  | read path source =>
    "can't open workflow configuration file " ++ path ++ ": " ++ source.message
  | parse path reason => path ++ " is misconfigured: " ++ reason
  | address addr reason =>
    "address " ++ Text.quoted addr ++ " is not ip:port: " ++ reason
  | loadBalancer addr source => "LB(" ++ addr ++ ") is not correct: " ++ source.message
  | backend addr source => "Backend(" ++ addr ++ ") is not correct: " ++ source.message
  | noBackends => "must specify some Backends"
  | pattern p => "Pattern(" ++ Text.quoted p ++ ") is invalid"
  | concurrency n => "Concurrency(" ++ Text.Decimal.text n ++ ") is invalid"

/-- The message of an error and of what caused it, in that order. -/
def chain : ConfigError → List String
  | e@(read _ source) => [e.message, source.message]
  | e@(loadBalancer _ source) => e.message :: source.chain
  | e@(backend _ source) => e.message :: source.chain
  | e => [e.message]

end ConfigError

end Rollout
