import PlanChart.Forest.Anchor

/-!
# The text of an edge

An edge leads from a dependency to the node that depends on it. Where either end is a group, the
edge joins a leaf inside the group instead, and an attribute names the cluster at whose border it
is clipped.
-/

namespace PlanChart.Document

/-- The attribute that names the cluster at which one end of an edge is clipped. -/
def clipLine (forest : Forest) (name : String) : Option Nat → String
  | none => ""
  | some group => "    " ++ name ++ " = cluster_" ++ (forest.node group).id ++ ";\n"

/-- The edge from one node to another. -/
def edge (forest : Forest) (dependency dependent : Nat) : String :=
  let tail := forest.anchor dependency
  let head := forest.anchor dependent
  let statement := "  " ++ (forest.node tail.leaf).id ++ " -> " ++ (forest.node head.leaf).id
  if tail.isRedirected || head.isRedirected then
    statement ++ " [\n" ++ clipLine forest "ltail" tail.cluster ++
      clipLine forest "lhead" head.cluster ++ "  ]\n"
  else statement ++ "\n"

/-- The edges that lead to a node, in the order of its dependencies. -/
def edgesTo (forest : Forest) (dependent : Nat) : String :=
  String.join ((forest.node dependent).dependencies.toList.map (edge forest · dependent))

end PlanChart.Document
