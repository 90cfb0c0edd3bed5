import PlanChart.Directory
import PlanChart.Forest.Basic
import PlanChart.Forest.ParentCycle
import PlanChart.Index
import PlanChart.Issue
import PlanChart.MissingPolicy
import PlanChart.PlanError
import PlanChart.Text.Identifier
import PlanChart.Text.Markup

/-!
# From issues to a forest

The forest of a list of issues has one node per issue, in order. A parent that no issue has leaves
the node a root, and an assignee or category that the directory does not know is left out. What
cannot be repaired that way stops the building at the first fault, in this order: repeated ids,
identifiers that are taken or reserved, parent links that run in a circle, and dependencies on ids
that no issue has.
-/

namespace PlanChart

/-- For each issue the position of its parent, if it names one that the index knows. -/
def parentLinks (index : Index) (issues : List Issue) : Array (Option Nat) :=
  (issues.map fun issue => issue.parentId?.bind (index[·]?)).toArray

namespace Forest

/-- Add the ids of issues to an index, the first issue standing at the given position. An id that
the index holds already is an error. -/
def indexIssues (index : Index) (position : Nat) : List Issue → Except PlanError Index
  | [] => .ok index
  | issue :: issues =>
    if index.contains issue.id then .error (.duplicateItem issue.id)
    else indexIssues (index.insert issue.id position) (position + 1) issues

/-- Check the identifiers of issues, given the ids that have taken an identifier before. -/
def checkIdentifiers (taken : Std.HashMap String String) : List Issue → Except PlanError Unit
  | [] => .ok ()
  | issue :: issues =>
    let identifier := Identifier.ofText issue.id
    match taken[identifier]? with
    | some first => .error (.identifierCollision first issue.id identifier)
    | none =>
      if Identifier.isKeyword identifier then .error (.reservedIdentifier issue.id identifier)
      else checkIdentifiers (taken.insert identifier issue.id) issues

/-- The ids on a cycle of positions, the first one once more at the end. -/
def cycleIds (issues : List Issue) (cycle : List Nat) : List String :=
  let ids := (issues.map Issue.id).toArray
  let names := cycle.map fun position => ids.getD position ""
  names ++ names.head?.toList

/-- Check that no issue is above itself. -/
def checkParents (issues : List Issue) (parents : Array (Option Nat)) : Except PlanError Unit :=
  match parentCycles parents with
  | [] => .ok ()
  | cycle :: _ => .error (.parentCycle (cycleIds issues cycle))

/-- Check that an index knows every id that issues depend on. -/
def checkDependencies (index : Index) : List Issue → Except PlanError Unit
  | [] => .ok ()
  | issue :: issues =>
    match issue.dependencies.find? (fun id => !index.contains id) with
    | some id => .error (.unresolvedDependency issue.id id)
    | none => checkDependencies index issues

/-- For each position the positions that have it as their parent, in order. -/
def childTable (parents : Array (Option Nat)) : Array (Array Nat) :=
  parents.toList.zipIdx.foldl
    (fun table (parent, position) =>
      match parent with
      | some parent => table.modify parent (·.push position)
      | none => table)
    (Array.replicate parents.size #[])

/-- The positions without a parent, in order. -/
def rootPositions (parents : Array (Option Nat)) : Array Nat :=
  ((List.range parents.size).filter fun position => parents[position]?.join.isNone).toArray

/-- The node of an issue, given its parent and its children. -/
def nodeOf (directory : Directory) (categoryField : Option String) (index : Index) (issue : Issue)
    (parent : Option Nat) (children : Array Nat) : Node where
  id := Identifier.ofText issue.id
  externalId := issue.id
  label := Markup.escape issue.summary
  resolved := issue.resolved
  assigneeName := issue.assignee.bind directory.userName?
  category := (issue.categoryId? categoryField).bind directory.category?
  parent := parent
  children := children
  dependencies := (issue.dependencies.filterMap (index[·]?)).toArray

/-- The forest of issues whose ids are known to an index, given the positions of their parents. -/
def link (directory : Directory) (categoryField : Option String) (index : Index)
    (issues : List Issue) (parents : Array (Option Nat)) : Forest :=
  let children := childTable parents
  { nodes := issues.toArray.mapIdx fun position issue =>
      nodeOf directory categoryField index issue (parents.getD position none)
        (children.getD position #[])
    roots := rootPositions parents }

/-- The forest of a list of issues, or the first fault found. -/
def build (issues : List Issue) (directory : Directory) (categoryField : Option String)
    (policy : MissingPolicy) : Except PlanError Forest := do
  let index ← indexIssues ∅ 0 issues
  checkIdentifiers ∅ issues
  let parents := parentLinks index issues
  checkParents issues parents
  if policy = .reject then checkDependencies index issues
  return link directory categoryField index issues parents

end Forest

end PlanChart
