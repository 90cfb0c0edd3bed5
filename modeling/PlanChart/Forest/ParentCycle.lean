/-!
# Cycles of parent links

Every issue has at most one parent, so the parent links make up a table: for each position the
position of the parent, if there is one. Going up from a position either ends or runs into a cycle.

The search goes up from every position in turn and marks what it meets. A path that runs into its
own marks has closed a cycle; one that runs into the marks of an earlier path has not, for what can
be met from there is known. So every cycle is found once.
-/

namespace PlanChart

namespace ParentCycle

/-- What the search knows about a position. -/
inductive Mark
  /-- Not met yet. -/
  | unvisited
  /-- On the path that is being walked. -/
  | onPath
  /-- On a path that has been walked to its end. -/
  | done
  deriving DecidableEq, Repr, Inhabited

/-- The end of a walk: the marks, the path in the opposite order of walking, and the cycle that the
walk has closed. -/
structure Walk where
  marks : Array Mark
  path : List Nat
  cycle : Option (List Nat)

/-- The part of a path, given in the opposite order of walking, from a position on. -/
def cycleFrom (position : Nat) (path : List Nat) : List Nat :=
  position :: (path.takeWhile (· != position)).reverse

/-- Go up from a position, which extends a path, until the walk ends. -/
def climb (parents : Array (Option Nat)) (marks : Array Mark) (path : List Nat) :
    Option Nat → Walk
  | none => ⟨marks, path, none⟩
  | some position =>
    if h : position < marks.size then
      match hm : marks[position] with
      | .unvisited =>
        climb parents (marks.set position .onPath) (position :: path) (parents[position]?.join)
      | .onPath => ⟨marks, path, some (cycleFrom position path)⟩
      | .done => ⟨marks, path, none⟩
    else ⟨marks, path, none⟩
termination_by marks.count .unvisited
decreasing_by
  have pos := Array.count_pos_iff.mpr (hm ▸ Array.getElem_mem h)
  have old : (marks[position] == Mark.unvisited) = true := by rw [hm]; rfl
  have new : (Mark.onPath == Mark.unvisited) = false := rfl
  rw [Array.count_set, old, new, if_pos rfl, if_neg Bool.false_ne_true]
  omega

/-- Mark every position of a path as done. -/
def settle (marks : Array Mark) (path : List Nat) : Array Mark :=
  path.foldl (fun marks position => marks.setIfInBounds position .done) marks

/-- Search upwards from each of the given positions, unless it has been met before. -/
def searchFrom (parents : Array (Option Nat)) (marks : Array Mark) : List Nat → List (List Nat)
  | [] => []
  | start :: starts =>
    if marks[start]? = some .unvisited then
      let walk := climb parents marks [] (some start)
      walk.cycle.toList ++ searchFrom parents (settle walk.marks walk.path) starts
    else searchFrom parents marks starts

end ParentCycle

/-- The cycles of a table of parents. Each is listed once, child before parent, from the first of
its members that is met when going up from the positions in their order. -/
def parentCycles (parents : Array (Option Nat)) : List (List Nat) :=
  ParentCycle.searchFrom parents (Array.replicate parents.size .unvisited)
    (List.range parents.size)

end PlanChart
