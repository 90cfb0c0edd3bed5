import PlanChart.Check
import PlanChart.Command.Load
import PlanChart.Command.Settings
import PlanChart.Document
import PlanChart.Settings.BaseUrl

/-!
# Runs

A run reads the files it needs, draws or checks the plan, and prints. Other programs get exactly one
envelope as output. A person gets the document or the findings as output, and notes and errors apart
from it. When the document goes to a file, it is no part of the output.
-/

namespace PlanChart

/-- What a run leaves behind, apart from files. -/
structure RunResult where
  status : ExitStatus
  stdout : String := ""
  stderr : String := ""
  deriving DecidableEq, Repr

namespace Invocation

/-- A note for a person, unless the invocation asks for none. -/
def note (invocation : Invocation) (text : String) : String :=
  if invocation.isChatty then text ++ "\n" else ""

/-- The line that holds an envelope. -/
def envelope (invocation : Invocation) (surroundings : Surroundings) (outcome : Outcome) : String :=
  (Envelope.mk outcome surroundings.time invocation.action.name).text ++ "\n"

/-- The lines of the log about dependencies that are left out. -/
def droppedLog (surroundings : Surroundings) (policy : MissingPolicy) (issues : List Issue) :
    String :=
  match policy with
  | .reject => ""
  | .drop =>
    String.join ((DependencyGraph.ofIssues issues).unresolved.map fun (item, dependency) =>
      surroundings.time ++ "  WARN dropping dependency on unknown issue item=" ++ item ++
        " dependency=" ++ dependency ++ "\n")

/-- The result of a run that fails after the given text has been printed as notes. -/
def fail {m : Type → Type} [Monad m] (invocation : Invocation) (files : FileAccess m)
    (surroundings : Surroundings) (notes : String) (failure : Failure) : m RunResult := do
  let planExists ←
    if failure.code = "FILE_NOT_FOUND" then files.holds invocation.plan else pure true
  let (note, text) := failure.report invocation.plan planExists
  if invocation.json then
    return {
      status := note.exitStatus
      stdout := invocation.envelope surroundings (.failure note)
      stderr := notes }
  else
    return { status := note.exitStatus, stderr := notes ++ text }

/-- The output and the notes of a run that has drawn a document. -/
def drawn (invocation : Invocation) (surroundings : Surroundings) (output : Option String)
    (notes document : String) (forest : Forest) : RunResult :=
  let drawing : Drawing :=
    { output := output
      document := if output.isNone then some document else none
      issues := forest.size
      edges := forest.edgeCount }
  { status := .success
    stdout :=
      if invocation.json then invocation.envelope surroundings (.result drawing.toJson)
      else if output.isNone then document
      else ""
    stderr :=
      match output with
      | none => notes
      | some path =>
        notes ++ invocation.note ("Rendered " ++ toString forest.size ++ " issues to: " ++ path) }

/-- Print a document, or write it to the file that is named for it. -/
def deliver {m : Type → Type} [Monad m] (invocation : Invocation) (files : FileAccess m)
    (surroundings : Surroundings) (output : Option String) (notes document : String)
    (forest : Forest) : m RunResult := do
  match output with
  | none => return invocation.drawn surroundings none notes document forest
  | some path =>
    match ← files.write path document with
    | .error error => invocation.fail files surroundings notes (.outputAccess path error)
    | .ok () => return invocation.drawn surroundings (some path) notes document forest

/-- What is printed before a plan is drawn: a note if the links lead nowhere in particular. -/
def linkNote (invocation : Invocation) (layers : Layers) (plan : Plan) : String :=
  if (invocation.baseUrl layers plan).isEmpty then
    invocation.note "Warning: No base URL configured; issue links are relative"
  else ""

/-- Draw a plan. -/
def runRender {m : Type → Type} [Monad m] (invocation : Invocation) (files : FileAccess m)
    (surroundings : Surroundings) (output : Option String) (layers : Layers) (plan : Plan) :
    m RunResult := do
  let policy := invocation.policy layers
  let notes := invocation.linkNote layers plan
  match Forest.build plan.issues plan.directory (invocation.categoryField? layers) policy with
  | .error error => invocation.fail files surroundings notes (.plan error)
  | .ok forest =>
    let notes := notes ++ droppedLog surroundings policy plan.issues
    match Document.ofForest forest (BaseUrl.normalize (invocation.baseUrl layers plan)) with
    | .error error => invocation.fail files surroundings notes (.plan error)
    | .ok document => invocation.deliver files surroundings output notes document forest

/-- The output and the notes of a run that has checked a plan. -/
def checked (invocation : Invocation) (surroundings : Surroundings) (report : Report) :
    RunResult where
  status := if report.hasErrors then .validationFailed else .success
  stdout :=
    if invocation.json then invocation.envelope surroundings (.result report.toJson)
    else String.join (report.diagnostics.map fun diagnostic => diagnostic.line ++ "\n")
  stderr :=
    invocation.note ("Checked " ++ toString report.issues ++ " issues: " ++
      toString report.errors ++ " error(s), " ++ toString report.warnings ++ " warning(s)")

/-- Check a plan. -/
def runCheck (invocation : Invocation) (surroundings : Surroundings) (layers : Layers)
    (plan : Plan) : RunResult :=
  invocation.checked surroundings
    (PlanChart.check plan.issues plan.directory (invocation.categoryField? layers)
      (invocation.policy layers))

/-- Do what an invocation asks for. -/
def run {m : Type → Type} [Monad m] (invocation : Invocation) (files : FileAccess m)
    (surroundings : Surroundings) : m RunResult := do
  match ← (files.load surroundings invocation).run with
  | .error failure => invocation.fail files surroundings "" failure
  | .ok (layers, plan) =>
    match invocation.action with
    | .render _ output => invocation.runRender files surroundings output layers plan
    | .check => return invocation.runCheck surroundings layers plan

end Invocation

end PlanChart
