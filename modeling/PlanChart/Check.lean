import PlanChart.Check.Report
import PlanChart.Color
import PlanChart.Dependency.Graph
import PlanChart.Directory
import PlanChart.Forest.Build
import Std.Data.HashSet

/-!
# Checking a plan

Drawing a plan stops at the first fault. A check goes on and reports all of them, together with
what drawing would silently leave out. Where an id is used more than once, references to it mean
its first issue.
-/

namespace PlanChart

namespace Check

/-- The issues whose id an earlier issue has. -/
def duplicates (seen : Std.HashSet String) : List Issue → List Diagnostic
  | [] => []
  | issue :: issues =>
    if seen.contains issue.id then
      .ofError (.duplicateItem issue.id) issue.id :: duplicates seen issues
    else duplicates (seen.insert issue.id) issues

/-- The issues whose identifier is reserved or was first derived from another id, given the first
ids of the identifiers so far. -/
def identifiers (first : Std.HashMap String String) : List Issue → List Diagnostic
  | [] => []
  | issue :: issues =>
    let identifier := Identifier.ofText issue.id
    match first[identifier]? with
    | some id =>
      if id = issue.id then identifiers first issues
      else
        .ofError (.identifierCollision id issue.id identifier) issue.id ::
          identifiers first issues
    | none =>
      let rest := identifiers (first.insert identifier issue.id) issues
      if Identifier.isKeyword identifier then
        .ofError (.reservedIdentifier issue.id identifier) issue.id :: rest
      else rest

/-- A parent that no issue has. -/
def unknownParent (index : Index) (issue : Issue) : List Diagnostic :=
  match issue.parentId? with
  | none => []
  | some parent =>
    if index.contains parent then []
    else [⟨.warning, "UNKNOWN_PARENT",
      "Issue " ++ issue.id ++ " has unknown parent " ++ parent ++ "; it is drawn as a root",
      issue.id⟩]

/-- A cycle of parent links, given by its positions. -/
def parentCycle (issues : List Issue) (cycle : List Nat) : Diagnostic :=
  let ids := Forest.cycleIds issues cycle
  .ofError (.parentCycle ids) ids.head?

/-- A dependency on an id that no issue has. -/
def unresolved (policy : MissingPolicy) (item dependency : String) : Diagnostic :=
  let error := PlanError.unresolvedDependency item dependency
  match policy with
  | .reject => .ofError error item
  | .drop => .ofHarmless error "; the edge is dropped" item

/-- A cycle of dependencies, given by its ids. -/
def dependencyCycle (cycle : List String) : Diagnostic :=
  ⟨.warning, "DEPENDENCY_CYCLE", "Dependency cycle: " ++ " -> ".intercalate cycle, cycle.head?⟩

/-- An assignee the directory does not know. -/
def unknownAssignee (directory : Directory) (issue : Issue) : List Diagnostic :=
  match Issue.reference? issue.assignee with
  | none => []
  | some assignee =>
    if (directory.userName? assignee).isSome then []
    else [⟨.warning, "UNKNOWN_ASSIGNEE",
      "Issue " ++ issue.id ++ " is assigned to unknown user " ++ assignee, issue.id⟩]

/-- A category the directory does not know. -/
def unknownCategory (directory : Directory) (categoryField : Option String) (issue : Issue) :
    List Diagnostic :=
  match issue.categoryId? categoryField with
  | none => []
  | some category =>
    if (directory.category? category).isSome then []
    else [⟨.warning, "UNKNOWN_CATEGORY",
      "Issue " ++ issue.id ++ " has unknown category " ++ category, issue.id⟩]

/-- The ids that issues name as their category. -/
def usedCategories (categoryField : Option String) (issues : List Issue) : Std.HashSet String :=
  Std.HashSet.ofList (issues.filterMap (·.categoryId? categoryField))

/-- A malformed colour of a category. It is an error if an issue is drawn in it. -/
def malformedColor (used : Std.HashSet String) (category : Category) (role : ColorRole) :
    List Diagnostic :=
  match category.color? role with
  | none => []
  | some value =>
    match Color.normalize value with
    | .ok _ => []
    | .error _ =>
      let error := PlanError.invalidColor category.id role value
      if used.contains category.id then [.ofError error none]
      else [.ofHarmless error " (no issue uses it)" none]

/-- The malformed colours of a category, the foreground first. -/
def malformedColors (used : Std.HashSet String) (category : Category) : List Diagnostic :=
  malformedColor used category .foreground ++ malformedColor used category .background

end Check

/-- The findings on a list of issues and the directory they refer to. -/
def check (issues : List Issue) (directory : Directory) (categoryField : Option String)
    (policy : MissingPolicy) : Report :=
  let index := Index.ofIds (issues.map Issue.id)
  let graph := DependencyGraph.ofIssues issues
  { issues := issues.length
    diagnostics :=
      Check.duplicates ∅ issues ++
      Check.identifiers ∅ issues ++
      issues.flatMap (Check.unknownParent index) ++
      (parentCycles (parentLinks index issues)).map (Check.parentCycle issues) ++
      graph.unresolved.map (fun (item, dependency) => Check.unresolved policy item dependency) ++
      graph.cycles.map Check.dependencyCycle ++
      issues.flatMap (fun issue =>
        Check.unknownAssignee directory issue ++
          Check.unknownCategory directory categoryField issue) ++
      directory.categoryList.flatMap
        (Check.malformedColors (Check.usedCategories categoryField issues)) }

end PlanChart
