import PlanChart.Directory
import PlanChart.Issue

/-!
# Plans

A plan is what is drawn: issues, with the users and categories they refer to and, possibly, the
address under which the issues can be looked up.
-/

namespace PlanChart

/-- Issues together with what they refer to. -/
structure Plan where
  /-- The address in front of the links to the issues. -/
  baseUrl : Option String := none
  users : List User := []
  categories : List Category := []
  issues : List Issue := []
  deriving Inhabited

/-- The directory of a plan's users and categories. -/
def Plan.directory (plan : Plan) : Directory :=
  Directory.ofLists plan.users plan.categories

end PlanChart
