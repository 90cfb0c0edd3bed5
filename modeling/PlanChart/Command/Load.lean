import PlanChart.Command.Failure
import PlanChart.Command.Invocation
import PlanChart.Plan.Reader

/-!
# Loading

A run starts by reading the configuration files, those that count last first, and then the plan
file. The files of the user and of the working directory need not exist; a file that is named
explicitly must.
-/

namespace PlanChart

/-- Where a run takes place. -/
structure Surroundings where
  /-- The path of the working directory. -/
  workingDirectory : String
  /-- The path of the directory with the user's configurations, if it is known. -/
  configDirectory : Option String
  /-- The time of the run. -/
  time : String
  deriving DecidableEq, Repr

namespace Surroundings

/-- The path of the user's configuration file. -/
def userConfig? (surroundings : Surroundings) : Option String :=
  surroundings.configDirectory.map (· ++ "/planviz/config.toml")

/-- The path of the working directory's configuration file. -/
def projectConfig (surroundings : Surroundings) : String :=
  surroundings.workingDirectory ++ "/planviz.toml"

end Surroundings

namespace FileAccess

variable {m : Type → Type} [Monad m]

/-- Read a configuration file that must exist. -/
def loadLayer (files : FileAccess m) (path : String) : ExceptT Failure m Layer := do
  match ← files.read path with
  | .error error => throw (.configAccess path error)
  | .ok text =>
    match Layer.read text with
    | .error fault => throw (.configContent path fault)
    | .ok layer => return layer

/-- Read a configuration file. One that does not exist sets nothing. -/
def loadOptionalLayer (files : FileAccess m) (path : String) : ExceptT Failure m Layer := do
  if ← files.holds path then files.loadLayer path else return {}

/-- Read all configuration files. -/
def loadLayers (files : FileAccess m) (surroundings : Surroundings) (named : Option String) :
    ExceptT Failure m Layers := do
  let user ← match surroundings.userConfig? with
    | some path => files.loadOptionalLayer path
    | none => pure {}
  let project ← files.loadOptionalLayer surroundings.projectConfig
  let named ← match named with
    | some path => files.loadLayer path
    | none => pure {}
  return { user, project, named }

/-- Read the plan file. -/
def loadPlan (files : FileAccess m) (path : String) : ExceptT Failure m Plan := do
  match ← files.read path with
  | .error error => throw (.planAccess path error)
  | .ok text =>
    match Plan.read text with
    | .error error => throw (.planContent path error)
    | .ok plan => return plan

/-- Read all that an invocation needs. -/
def load (files : FileAccess m) (surroundings : Surroundings) (invocation : Invocation) :
    ExceptT Failure m (Layers × Plan) := do
  let layers ← files.loadLayers surroundings invocation.config
  let plan ← files.loadPlan invocation.plan
  return (layers, plan)

end FileAccess

end PlanChart
