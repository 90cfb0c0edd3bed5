import PlanChart.Forest.Basic

/-!
# Anchors

An edge of the document joins two leaves. One that should start or end at a group is drawn from or
to a leaf inside the group, and clipped at the border of the group's cluster. The leaf is found by
going to the first child again and again.
-/

namespace PlanChart

/-- Where an end of an edge is drawn. -/
structure Anchor where
  /-- The leaf the edge is joined to. -/
  leaf : Nat
  /-- The group at whose border the edge is clipped. -/
  cluster : Option Nat
  deriving DecidableEq, Repr

/-- Whether the edge is joined to another node than the one it is about. -/
def Anchor.isRedirected (anchor : Anchor) : Bool :=
  anchor.cluster.isSome

namespace Forest

/-- Go to the first child, at most the given number of times. -/
def descendFirst (forest : Forest) : Nat → Nat → Nat
  | 0, position => position
  | limit + 1, position =>
    match (forest.node position).children[0]? with
    | none => position
    | some child => descendFirst forest limit child

/-- The leaf that is reached from a node by going to the first child again and again. In a forest no
walk down is longer than there are nodes. -/
def firstLeaf (forest : Forest) (position : Nat) : Nat :=
  forest.descendFirst forest.size position

/-- The anchor of an edge that starts or ends at a node. -/
def anchor (forest : Forest) (position : Nat) : Anchor :=
  let leaf := forest.firstLeaf position
  ⟨leaf, if leaf = position then none else some position⟩

end Forest

end PlanChart
