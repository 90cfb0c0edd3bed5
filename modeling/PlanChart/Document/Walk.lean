import PlanChart.Document.Edge
import PlanChart.Document.Node

/-!
# The walk through the forest

The document lists the nodes depth first, each group around its children, and after all nodes the
edges. A walk meets the nodes in that order and writes both texts side by side. It keeps no call
stack: a cursor for each list of siblings it stands in tells how many of them it has entered.

The node before the place of a cursor is the group whose children the next inner cursor runs
through. It is closed when the inner cursor is used up.
-/

namespace PlanChart.Document

/-- A place in a list of siblings: how many of them have been entered. -/
structure Cursor where
  siblings : Array Nat
  next : Nat
  deriving DecidableEq, Repr

/-- The sibling that was entered last. -/
def Cursor.current? (cursor : Cursor) : Option Nat :=
  if cursor.next = 0 then none else cursor.siblings[cursor.next - 1]?

/-- A cursor before the first of a list of siblings. -/
def Cursor.start (siblings : Array Nat) : Cursor :=
  ⟨siblings, 0⟩

/-- How far a walk has come: the cursors, the innermost first, and the texts written so far. -/
structure Walk where
  cursors : List Cursor
  nodes : String := ""
  edges : String := ""
  deriving DecidableEq, Repr

namespace Walk

/-- The walk before its first step. -/
def start (forest : Forest) : Walk :=
  { cursors := [Cursor.start forest.roots] }

/-- The walk after the innermost cursor, which is used up, is given up: the group around its
siblings is closed. -/
def leave (forest : Forest) (walk : Walk) (outer : List Cursor) : Walk :=
  match outer.head?.bind Cursor.current? with
  | none => { walk with cursors := outer }
  | some group =>
    { walk with
      cursors := outer
      nodes := walk.nodes ++ closeLine (forest.node group) outer.length }

/-- The walk after a node is entered. A leaf is closed at once, and a group's children come next.
The given cursors are those after the node. -/
def enter (forest : Forest) (baseUrl : String) (walk : Walk) (cursors : List Cursor)
    (position : Nat) : Except PlanError Walk := do
  let node := forest.node position
  let depth := cursors.length
  let text ← opening baseUrl node depth
  if node.isGroup then
    return {
      cursors := Cursor.start node.children :: cursors
      nodes := walk.nodes ++ text
      edges := walk.edges ++ edgesTo forest position }
  else
    return {
      cursors := cursors
      nodes := walk.nodes ++ text ++ closeLine node depth
      edges := walk.edges ++ edgesTo forest position }

/-- One step: enter the innermost cursor's next sibling, or leave its list. A walk without cursors
stands still. -/
def step (forest : Forest) (baseUrl : String) (walk : Walk) : Except PlanError Walk :=
  match walk.cursors with
  | [] => .ok walk
  | cursor :: outer =>
    match cursor.siblings[cursor.next]? with
    | none => .ok (walk.leave forest outer)
    | some position =>
      walk.enter forest baseUrl ({ cursor with next := cursor.next + 1 } :: outer) position

/-- Take steps until no cursor is left, at most the given number of them. -/
def run (forest : Forest) (baseUrl : String) : Nat → Walk → Except PlanError Walk
  | 0, walk => .ok walk
  | limit + 1, walk =>
    match walk.cursors with
    | [] => .ok walk
    | _ :: _ =>
      match walk.step forest baseUrl with
      | .error error => .error error
      | .ok walk => run forest baseUrl limit walk

/-- How many steps are enough: every node is entered once, and left are the list of roots and the
children of each group. -/
def stepLimit (forest : Forest) : Nat :=
  2 * forest.size + 1

/-- Walk through the whole forest. -/
def whole (forest : Forest) (baseUrl : String) : Except PlanError Walk :=
  run forest baseUrl (stepLimit forest) (start forest)

end Walk

end PlanChart.Document
