import Rollout.Document.Json.Writer
import Rollout.Fleet.Basic

/-!
# Conclusions and their reports

What a deployment left behind, as a report for people and as one for programs. A deployment is clean
when nothing stopped it and no upgrade failed.
-/

namespace Rollout

open Document

/-- What a deployment left behind. -/
structure Conclusion where
  endState : EndState
  failures : List FailedUpgrade
  /-- Why the rollout or its retries stopped short. -/
  error : Option RunError
deriving DecidableEq, Repr

namespace Conclusion

/-- Whether every endpoint runs the new binary. -/
def isClean (c : Conclusion) : Bool := c.error.isNone && c.failures.isEmpty

/-- What a fleet leaves behind. -/
def ofFleet (f : Fleet) (error : Option RunError) : Conclusion := ⟨f.endState, f.failures, error⟩

/-- A failure as a document. -/
def failureValue (f : FailedUpgrade) : Value :=
  .object [("endpoint", .string f.endpoint), ("stage", .string f.failure),
    ("error", .string f.error.message)]

/-- The report for programs. -/
def value (c : Conclusion) : Value :=
  .object [("end_state", .string c.endState.text), ("clean", .bool c.isClean),
    ("error", .optional (c.error.map RunError.message)),
    ("failures", .array (c.failures.map failureValue))]

/-- A text with blanks behind it up to a width. -/
def padded (s : String) (width : Nat) : String :=
  s ++ String.ofList (List.replicate (width - s.length) ' ')

/-- A row of the table of failures. -/
def row (endpoint stage error : String) : String :=
  "  " ++ padded endpoint 22 ++ " " ++ padded stage 16 ++ " " ++ error ++ "\n"

/-- The row of a failure. -/
def failureRow (f : FailedUpgrade) : String :=
  row f.endpoint (if f.failure.isEmpty then "-" else f.failure) f.error.message

/-- The table of failures. -/
def failureTable (failures : List FailedUpgrade) : String :=
  "\n" ++ Text.Decimal.text failures.length ++ " endpoint(s) failed:\n\n" ++
    row "ENDPOINT" "FAILED STAGE" "ERROR" ++ String.join (failures.map failureRow)

/-- The line of an error. -/
def errorLine (text : String) : String := "Error: " ++ text ++ "\n"

/-- The report for people. There is no table when the rollout did not begin. -/
def report (c : Conclusion) : String :=
  "\nRollout: " ++ c.endState.text ++ "\n" ++
  match c.error with
  | some (.gate e) => errorLine e.message
  | error =>
    ((error.map fun e => errorLine e.message).getD "") ++
    (if c.failures.isEmpty then "All endpoints upgraded.\n" else failureTable c.failures)

end Conclusion

end Rollout
