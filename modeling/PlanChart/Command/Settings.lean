import PlanChart.Command.Invocation
import PlanChart.Plan
import PlanChart.Settings.Layer

/-!
# Settings of a run

For each setting the command line counts before the configuration files. The base URL may also come
from the plan.
-/

namespace PlanChart

namespace Invocation

/-- The base URL that the command line gives. -/
def baseUrl? (invocation : Invocation) : Option String :=
  match invocation.action with
  | .render baseUrl _ => baseUrl
  | .check => none

/-- The base URL of a run as it is given; it is empty if none is. -/
def baseUrl (invocation : Invocation) (layers : Layers) (plan : Plan) : String :=
  (invocation.baseUrl? <|> layers.baseUrl? <|> plan.baseUrl).getD ""

/-- What becomes of dependencies on unknown issues. -/
def policy (invocation : Invocation) (layers : Layers) : MissingPolicy :=
  invocation.missingDependencies.getD layers.missingDependencies

/-- The custom field for categories. -/
def categoryField? (invocation : Invocation) (layers : Layers) : Option String :=
  invocation.categoryField <|> layers.categoryField?

end Invocation

end PlanChart
