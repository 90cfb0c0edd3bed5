import PlanChart.Dependency.Cycle
import PlanChart.Index
import PlanChart.Issue

/-!
# Dependency graphs

A dependency graph has a node for each of a list of things, and each thing depends on others by
their ids. An id stands for the first node that has it. Ids that no node has are unresolved; they
are no part of any cycle.
-/

namespace PlanChart

/-- Something with an id that depends on others. -/
structure Dependent where
  id : String
  dependencies : List String
  deriving DecidableEq, Repr, Inhabited

/-- An issue as far as its dependencies are concerned. -/
def Issue.toDependent (issue : Issue) : Dependent :=
  ⟨issue.id, issue.dependencies⟩

/-- The nodes, in order, with the positions of their ids. -/
structure DependencyGraph where
  nodes : Array Dependent
  index : Index

namespace DependencyGraph

/-- The graph of a list of nodes. -/
def ofList (nodes : List Dependent) : DependencyGraph :=
  ⟨nodes.toArray, Index.ofIds (nodes.map Dependent.id)⟩

/-- The graph of the dependencies between issues. -/
def ofIssues (issues : List Issue) : DependencyGraph :=
  ofList (issues.map Issue.toDependent)

/-- The dependencies on ids that no node has, each with the id of its node. -/
def unresolved (graph : DependencyGraph) : List (String × String) :=
  graph.nodes.toList.flatMap fun node =>
    (node.dependencies.filter fun id => !graph.index.contains id).map fun id => (node.id, id)

/-- For each node the positions of the nodes it depends on. -/
def links (graph : DependencyGraph) : Array (List Nat) :=
  graph.nodes.map fun node => node.dependencies.filterMap (graph.index[·]?)

/-- The id of the node at a position. -/
def idAt (graph : DependencyGraph) (position : Nat) : String :=
  (graph.nodes[position]?.map Dependent.id).getD ""

/-- The cycles closed by a walk along the dependencies, as lists of ids. The first id of each is
listed once more at its end. -/
def cycles (graph : DependencyGraph) : List (List String) :=
  (linkCycles graph.links).map (·.map graph.idAt)

end DependencyGraph

end PlanChart
