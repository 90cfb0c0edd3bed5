import PlanChart.Envelope
import PlanChart.Files.Access
import PlanChart.Json.Fault
import PlanChart.Settings.Reader

/-!
# Failures of a run

Why a run ends without having done what it was asked to do, and what is said about it.
-/

namespace PlanChart

/-- Why a run fails. -/
inductive Failure
  /-- A configuration file cannot be read. -/
  | configAccess (path : String) (error : FileError)
  /-- A configuration file is no configuration. -/
  | configContent (path : String) (fault : Layer.Fault)
  /-- The plan file cannot be read. -/
  | planAccess (path : String) (error : FileError)
  /-- The plan file holds no plan. -/
  | planContent (path : String) (error : Json.ReadError)
  /-- The plan cannot be drawn. -/
  | plan (error : PlanError)
  /-- The document cannot be written. -/
  | outputAccess (path : String) (error : FileError)
  deriving Repr

namespace Failure

/-- The code of a failure to access a file. -/
def accessCode (error : FileError) : String :=
  if error = .notFound then "FILE_NOT_FOUND" else "IO_ERROR"

/-- The code of a failure. -/
def code : Failure → String
  | configAccess _ error => accessCode error
  | configContent .. => "PARSE_ERROR"
  | planAccess _ error => accessCode error
  | planContent .. => "PARSE_ERROR"
  | plan error => error.code
  | outputAccess _ error => accessCode error

/-- What the run was about to do. -/
def context : Failure → String
  | configAccess path _ => "Failed to read config file " ++ path
  | configContent path _ => "Failed to parse config file " ++ path
  | planAccess path _ => "Failed to read plan file " ++ path
  | planContent path _ => "Failed to parse plan file " ++ path
  | plan error => error.message
  | outputAccess path _ => "Failed to write " ++ path

/-- Why that was not possible, if it is not said already. -/
def cause? : Failure → Option String
  | configAccess _ error => some error.message
  | configContent _ .form => some "TOML parse error"
  | configContent _ (.mismatch mismatch) => some ("TOML parse error: " ++ mismatch.message)
  | planAccess _ error => some error.message
  | planContent _ error => some error.message
  | plan _ => none
  | outputAccess _ error => some error.message

/-- What is said of a failure. -/
def message (failure : Failure) : String :=
  match failure.cause? with
  | none => failure.context
  | some cause => failure.context ++ ": " ++ cause

/-- The note and the text about a failure of a run. A file that is missing is taken for the plan
file if that is missing too. -/
def report (failure : Failure) (planPath : String) (planExists : Bool) : ErrorNote × String :=
  match failure with
  | plan error => (error.note, error.advice.text)
  | failure =>
    if failure.code = "FILE_NOT_FOUND" ∧ !planExists then
      let advice := Advice.planNotFound planPath
      ({ code := failure.code
         message := advice.message
         suggestions := advice.suggestions }, advice.text)
    else
      ({ code := failure.code, message := failure.message }, "Error: " ++ failure.message ++ "\n")

end Failure

end PlanChart
