/-!
# Missing dependencies

An issue may depend on an id that no issue of the plan has. A policy says what becomes of that.
-/

namespace PlanChart

/-- What becomes of a dependency on an id that no issue has. -/
inductive MissingPolicy
  /-- The plan cannot be drawn. -/
  | reject
  /-- The dependency is left out. -/
  | drop
  deriving DecidableEq, Repr, Inhabited

namespace MissingPolicy

/-- The word for a policy in configurations and on the command line. -/
def word : MissingPolicy → String
  | reject => "reject"
  | drop => "drop"

/-- The policy a word stands for. -/
def ofWord? : String → Option MissingPolicy
  | "reject" => some reject
  | "drop" => some drop
  | _ => none

end MissingPolicy

end PlanChart
