import PlanChart.Advice
import PlanChart.Category

/-!
# Plans that cannot be drawn

The conditions under which a plan has no document, each with its code, its message and the advice
that goes with it.
-/

namespace PlanChart

/-- Why a plan cannot be drawn. -/
inductive PlanError
  /-- A category that is drawn sets a malformed colour. -/
  | invalidColor (category : String) (role : ColorRole) (value : String)
  /-- An issue depends on an id that no issue has. -/
  | unresolvedDependency (item dependency : String)
  /-- Going from an issue to its parent again and again leads back to it. The ids are listed child
  before parent, the first one once more at the end. -/
  | parentCycle (cycle : List String)
  /-- Two issues have the same id. -/
  | duplicateItem (id : String)
  /-- Two different ids have the same identifier. -/
  | identifierCollision (first second identifier : String)
  /-- The identifier of an id is a keyword. -/
  | reservedIdentifier (id identifier : String)
  deriving DecidableEq, Repr

namespace PlanError

/-- The code of a kind of error, which does not change between versions. -/
def code : PlanError → String
  | invalidColor .. => "INVALID_COLOR"
  | unresolvedDependency .. => "UNRESOLVED_DEPENDENCY"
  | parentCycle .. => "PARENT_CYCLE"
  | duplicateItem .. => "DUPLICATE_ITEM"
  | identifierCollision .. => "IDENTIFIER_COLLISION"
  | reservedIdentifier .. => "RESERVED_IDENTIFIER"

/-- What is said of an error in one line. -/
def message : PlanError → String
  | invalidColor category role value =>
    "Category '" ++ category ++ "' has an invalid " ++ role.name ++ " color '" ++ value ++ "'"
  | unresolvedDependency item dependency =>
    "Issue " ++ item ++ " depends on unknown issue " ++ dependency
  | parentCycle cycle => "Parent cycle detected: " ++ " -> ".intercalate cycle
  | duplicateItem id => "Duplicate issue id: " ++ id
  | identifierCollision first second identifier =>
    "Issues " ++ first ++ " and " ++ second ++ " both map to identifier " ++ identifier
  | reservedIdentifier id identifier =>
    "Issue " ++ id ++ " maps to identifier " ++ identifier ++ ", which is a DOT keyword"

/-- What may have caused an error. -/
def causes : PlanError → List String
  | invalidColor .. => ["Colors must be '#' followed by 3 or 6 hex digits"]
  | unresolvedDependency _ dependency =>
    ["Issue " ++ dependency ++ " was not included in the export",
      "The dependency may point to an issue in another project"]
  | parentCycle .. => ["An issue is (transitively) its own parent"]
  | duplicateItem .. => ["The plan file lists the same issue twice"]
  | identifierCollision .. => ["Ids differing only in punctuation map to the same identifier"]
  | reservedIdentifier .. => ["Keywords would turn the node into a default-attribute statement"]

/-- What can be done about an error. -/
def remedies : PlanError → List String
  | invalidColor category .. => ["Fix the color of category '" ++ category ++ "' in the plan file"]
  | unresolvedDependency .. =>
    ["Widen the saved query used for the export",
      "Drop such edges instead: --missing-dependencies drop"]
  | parentCycle .. => ["Fix the parent links in the issue tracker"]
  | duplicateItem .. => ["Remove the duplicate entry from the plan file"]
  | identifierCollision .. => ["Rename one of the issues so their ids stay distinct"]
  | reservedIdentifier .. => ["Give the issue an id with a project prefix, e.g. PROJ-1"]

/-- An error with its causes and remedies. -/
def advice (error : PlanError) : Advice :=
  ⟨error.message, error.causes, error.remedies⟩

end PlanError

end PlanChart
