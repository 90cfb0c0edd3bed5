import PlanChart.Category

/-!
# Forests

A forest holds the issues of a plan as nodes, ready to be drawn. Nodes are referred to by their
position. Every node knows its parent, its children and the nodes it depends on; the nodes without
a parent are the roots. Children and roots stand in the order of the plan.
-/

namespace PlanChart

/-- An issue with all that is drawn of it. -/
structure Node where
  /-- The identifier under which the document declares the node. -/
  id : String
  /-- The issue's id. -/
  externalId : String
  /-- The issue's summary, written for a label. -/
  label : String
  resolved : Bool
  assigneeName : Option String
  category : Option Category
  parent : Option Nat
  children : Array Nat
  dependencies : Array Nat
  deriving DecidableEq, Repr, Inhabited

/-- A node with a child is drawn as a cluster around its children. -/
def Node.isGroup (node : Node) : Bool :=
  !node.children.isEmpty

/-- The nodes of a plan and the positions of those without a parent. -/
structure Forest where
  nodes : Array Node
  roots : Array Nat
  deriving DecidableEq, Repr, Inhabited

namespace Forest

/-- The number of nodes. -/
def size (forest : Forest) : Nat :=
  forest.nodes.size

/-- The node at a position. -/
def node (forest : Forest) (position : Nat) : Node :=
  forest.nodes.getD position default

/-- The position of the node whose issue has an id. -/
def find? (forest : Forest) (externalId : String) : Option Nat :=
  forest.nodes.findIdx? (·.externalId == externalId)

/-- The number of dependencies between nodes. -/
def edgeCount (forest : Forest) : Nat :=
  forest.nodes.foldl (fun count node => count + node.dependencies.size) 0

end Forest

end PlanChart
