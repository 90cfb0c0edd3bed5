import PlanChart.PlanError

/-!
# Reports

A report lists what is wrong with a plan. An error keeps the plan from being drawn; a warning points
at something that is drawn, but probably not as it was meant.
-/

namespace PlanChart

/-- How grave a finding is. -/
inductive Severity
  /-- The plan cannot be drawn. -/
  | error
  /-- The plan can be drawn, but probably not as it was meant. -/
  | warning
  deriving DecidableEq, Repr

/-- The word for a severity. -/
def Severity.word : Severity → String
  | .error => "error"
  | .warning => "warning"

/-- One finding. -/
structure Diagnostic where
  severity : Severity
  /-- The kind of finding. Errors have the code of what keeps the plan from being drawn. -/
  code : String
  message : String
  /-- The id of the issue the finding is about, if it is about one. -/
  item : Option String
  deriving DecidableEq, Repr

namespace Diagnostic

/-- The finding that a plan cannot be drawn. -/
def ofError (error : PlanError) (item : Option String) : Diagnostic :=
  ⟨.error, error.code, error.message, item⟩

/-- The finding that what would keep a plan from being drawn is harmless here, for a reason. -/
def ofHarmless (error : PlanError) (reason : String) (item : Option String) : Diagnostic :=
  ⟨.warning, error.code, error.message ++ reason, item⟩

/-- A finding in one line. -/
def line (diagnostic : Diagnostic) : String :=
  diagnostic.severity.word ++ "[" ++ diagnostic.code ++ "]: " ++ diagnostic.message

end Diagnostic

/-- The findings on a plan, in order. -/
structure Report where
  /-- The number of issues that were looked at. -/
  issues : Nat
  diagnostics : List Diagnostic
  deriving DecidableEq, Repr

namespace Report

/-- The number of errors. -/
def errors (report : Report) : Nat :=
  report.diagnostics.countP (·.severity = .error)

/-- The number of warnings. -/
def warnings (report : Report) : Nat :=
  report.diagnostics.countP (·.severity = .warning)

/-- Whether there is an error. -/
def hasErrors (report : Report) : Bool :=
  0 < report.errors

end Report

end PlanChart
