/-!
# Cycles of links

A position may have any number of links to other positions, in order. The search walks along them
depth first. It keeps the positions from the start of the walk down to where it stands in a stack,
and closes a cycle whenever a link leads back to a position in the stack.
-/

namespace PlanChart

namespace LinkCycle

/-- What the search knows about a position. -/
inductive Mark
  /-- Not met yet. -/
  | unvisited
  /-- In the stack. -/
  | onStack
  /-- All that can be reached from it has been met. -/
  | done
  deriving DecidableEq, Repr, Inhabited

/-- A position of the walk with the links from it that have not been followed yet. -/
structure Frame where
  position : Nat
  pending : List Nat
  deriving Repr

/-- The cycle that a link back to a position of the stack closes, with that position at both
ends. The stack's first entry is where the walk stands. -/
def cycleFrom (position : Nat) (stack : List Frame) : List Nat :=
  position :: ((stack.map Frame.position).takeWhile (· != position)).reverse ++ [position]

/-- How many steps a stack takes if no position is met for the first time. -/
def steps : List Frame → Nat
  | [] => 0
  | frame :: stack => frame.pending.length + 1 + steps stack

/-- Marking a met position as done leaves no more positions unmet. -/
private theorem count_unvisited_done_le (marks : Array Mark) (position : Nat) :
    (marks.setIfInBounds position .done).count .unvisited ≤ marks.count .unvisited := by
  unfold Array.setIfInBounds
  split
  · rw [Array.count_set]
    simp
  · exact Nat.le_refl _

/-- Walk on from a stack until it is empty. The result is the marks then and the cycles closed on
the way, the last one first. -/
def explore (links : Array (List Nat)) (marks : Array Mark) (cycles : List (List Nat)) :
    List Frame → Array Mark × List (List Nat)
  | [] => (marks, cycles)
  | ⟨position, []⟩ :: stack =>
    explore links (marks.setIfInBounds position .done) cycles stack
  | ⟨position, next :: pending⟩ :: stack =>
    if h : next < marks.size then
      match hm : marks[next] with
      | .unvisited =>
        explore links (marks.set next .onStack) cycles
          (⟨next, links[next]?.getD []⟩ :: ⟨position, pending⟩ :: stack)
      | .onStack =>
        explore links marks (cycleFrom next (⟨position, pending⟩ :: stack) :: cycles)
          (⟨position, pending⟩ :: stack)
      | .done => explore links marks cycles (⟨position, pending⟩ :: stack)
    else explore links marks cycles (⟨position, pending⟩ :: stack)
termination_by stack => (marks.count .unvisited, steps stack)
decreasing_by
  · have := count_unvisited_done_le marks position
    simp only [Prod.lex_def, steps]
    omega
  · have pos := Array.count_pos_iff.mpr (hm ▸ Array.getElem_mem h)
    have old : (marks[next] == Mark.unvisited) = true := by rw [hm]; rfl
    have new : (Mark.onStack == Mark.unvisited) = false := rfl
    apply Prod.Lex.left
    rw [Array.count_set, old, new, if_pos rfl, if_neg Bool.false_ne_true]
    omega
  all_goals
    apply Prod.Lex.right
    simp [steps]

/-- Walk from each of the given positions, unless it has been met before. -/
def exploreFrom (links : Array (List Nat)) (marks : Array Mark) (cycles : List (List Nat)) :
    List Nat → List (List Nat)
  | [] => cycles.reverse
  | start :: starts =>
    if h : start < marks.size then
      if marks[start] = .unvisited then
        let (marks, cycles) :=
          explore links (marks.set start .onStack) cycles [⟨start, links[start]?.getD []⟩]
        exploreFrom links marks cycles starts
      else exploreFrom links marks cycles starts
    else exploreFrom links marks cycles starts

end LinkCycle

/-- The cycles closed by a walk along a table of links, in the order in which they are closed. Each
has its first position once more at its end. -/
def linkCycles (links : Array (List Nat)) : List (List Nat) :=
  LinkCycle.exploreFrom links (Array.replicate links.size .unvisited) []
    (List.range links.size)

end PlanChart
