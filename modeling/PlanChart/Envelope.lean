import PlanChart.Check.Report
import PlanChart.ExitStatus
import PlanChart.Json.Printer

/-!
# Envelopes

For other programs a run prints one JSON object. It tells whether the run succeeded and holds
either the result or the error, and then when the run took place and which command it was.
-/

namespace PlanChart

/-- An error as other programs see it. -/
structure ErrorNote where
  code : String
  message : String
  /-- Further values, if the error has any. -/
  details : Option Json := none
  suggestions : List String := []
  deriving Inhabited

namespace ErrorNote

/-- Add suggestions after the others. -/
def addSuggestions (note : ErrorNote) (suggestions : List String) : ErrorNote :=
  { note with suggestions := note.suggestions ++ suggestions }

/-- The status of a run that ends with an error. -/
def exitStatus (note : ErrorNote) : ExitStatus :=
  .ofCode note.code

/-- The value of an error. Details and suggestions are left out if there are none. -/
def toJson (note : ErrorNote) : Json :=
  .object (
    [("code", .string note.code), ("message", .string note.message)] ++
    (note.details.map fun details => ("details", details)).toList ++
    if note.suggestions.isEmpty then [] else [("suggestions", .ofTexts note.suggestions)])

end ErrorNote

/-- What an error is about, by name. -/
def PlanError.details : PlanError → Json
  | invalidColor category role value => .ofMembers [
      ("category", .string category), ("field", .string role.name), ("value", .string value)]
  | unresolvedDependency item dependency => .ofMembers [
      ("item", .string item), ("dependency", .string dependency)]
  | parentCycle cycle => .ofMembers [("cycle", .ofTexts cycle)]
  | duplicateItem id => .ofMembers [("id", .string id)]
  | identifierCollision first second identifier => .ofMembers [
      ("first", .string first), ("second", .string second), ("identifier", .string identifier)]
  | reservedIdentifier id identifier => .ofMembers [
      ("id", .string id), ("identifier", .string identifier)]

/-- A plan's error as other programs see it. -/
def PlanError.note (error : PlanError) : ErrorNote where
  code := error.code
  message := error.message
  details := some error.details
  suggestions := error.advice.suggestions

/-- The result of drawing a plan. -/
structure Drawing where
  /-- The file that holds the document, if it is not given here. -/
  output : Option String
  /-- The document, if it is not in a file. -/
  document : Option String
  issues : Nat
  edges : Nat
  deriving DecidableEq, Repr

/-- The value of a drawing. -/
def Drawing.toJson (drawing : Drawing) : Json :=
  .object (
    (drawing.output.map fun path => ("output", .string path)).toList ++
    (drawing.document.map fun text => ("dot", .string text)).toList ++
    [("issues", .integer drawing.issues), ("edges", .integer drawing.edges)])

/-- The value of a finding. -/
def Diagnostic.toJson (diagnostic : Diagnostic) : Json :=
  .object (
    [("severity", .string diagnostic.severity.word), ("code", .string diagnostic.code),
      ("message", .string diagnostic.message)] ++
    (diagnostic.item.map fun item => ("item", .string item)).toList)

/-- The value of a report. -/
def Report.toJson (report : Report) : Json :=
  .object [
    ("issues", .integer report.issues),
    ("errors", .integer report.errors),
    ("warnings", .integer report.warnings),
    ("diagnostics", .array (report.diagnostics.map Diagnostic.toJson))]

/-- What a run has to tell. -/
inductive Outcome
  | result (data : Json)
  | failure (note : ErrorNote)

/-- What a run has to tell, with the time of the run and its command. -/
structure Envelope where
  outcome : Outcome
  time : String
  command : String

namespace Envelope

/-- The version of the form of envelopes. -/
def version : String := "0.1.0"

/-- The members that tell about the run. -/
def metadata (envelope : Envelope) : Json :=
  .object [
    ("timestamp", .string envelope.time),
    ("version", .string version),
    ("command", .string envelope.command)]

/-- The value of an envelope. -/
def toJson (envelope : Envelope) : Json :=
  match envelope.outcome with
  | .result data =>
    .object [("success", .bool true), ("data", data), ("metadata", envelope.metadata)]
  | .failure note =>
    .object [("success", .bool false), ("error", note.toJson), ("metadata", envelope.metadata)]

/-- The text of an envelope. -/
def text (envelope : Envelope) : String :=
  envelope.toJson.print

end Envelope

end PlanChart
