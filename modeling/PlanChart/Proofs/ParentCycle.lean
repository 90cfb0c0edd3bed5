import PlanChart.Forest.ParentCycle
import PlanChart.Proofs.Ascent

/-!
# The search for cycles misses none

The search for cycles of parent links finds nothing just when the way up from every position ends.
A walk keeps the marks in order while it goes: from all positions marked as done the way up is known
to end, and the positions marked as being on the path are on it.
-/

namespace PlanChart

/-- The parent of a position in a table, if it has one. -/
def parentIn (parents : Array (Option Nat)) (position : Nat) : Option Nat :=
  parents[position]?.join

lemma lt_size_of_parentIn_eq_some {parents : Array (Option Nat)} {i p : Nat}
    (h : parentIn parents i = some p) : i < parents.size := by
  by_contra hge
  rw [parentIn, Array.getElem?_eq_none (Nat.le_of_not_lt hge)] at h
  cases h

namespace ParentCycle

variable {parents : Array (Option Nat)} {marks : Array Mark} {path : List Nat}

/-- What the marks mean in the course of a walk along a path. -/
structure Marked (parents : Array (Option Nat)) (marks : Array Mark) (path : List Nat) : Prop where
  size_eq : marks.size = parents.size
  grounded_of_done : ∀ i, marks[i]? = some .done → Grounded (parentIn parents) i
  mem_of_onPath : ∀ i, marks[i]? = some .onPath → i ∈ path

/-- From an unmarked table nothing is known. -/
lemma Marked.initial (parents : Array (Option Nat)) :
    Marked parents (Array.replicate parents.size .unvisited) [] where
  size_eq := Array.size_replicate
  grounded_of_done i h := by simp [Array.getElem?_replicate] at h
  mem_of_onPath i h := by simp [Array.getElem?_replicate] at h

/-- A position may be put on the path. -/
lemma Marked.push (h : Marked parents marks path) {position : Nat} (hp : position < marks.size) :
    Marked parents (marks.set position .onPath) (position :: path) where
  size_eq := by rw [Array.size_set, h.size_eq]
  grounded_of_done i hi := by
    rw [Array.getElem?_set] at hi
    split at hi
    · cases hi
    · exact h.grounded_of_done i hi
  mem_of_onPath i hi := by
    rw [Array.getElem?_set] at hi
    split at hi
    · rename_i heq
      simp [heq]
    · exact List.mem_cons_of_mem position (h.mem_of_onPath i hi)

/-- Beyond the table there are no parents. -/
lemma Marked.grounded_of_size_le (h : Marked parents marks path) {position : Nat}
    (hp : ¬ position < marks.size) : Grounded (parentIn parents) position := by
  apply Grounded.top
  have hnone : parents[position]? = none := by
    rw [Array.getElem?_eq_none_iff, ← h.size_eq]
    exact Nat.le_of_not_lt hp
  rw [parentIn, hnone]
  rfl

lemma size_settle (marks : Array Mark) (path : List Nat) :
    (settle marks path).size = marks.size := by
  induction path generalizing marks with
  | nil => rfl
  | cons position path ih => exact (ih _).trans Array.size_setIfInBounds

lemma getElem?_settle (marks : Array Mark) (path : List Nat) (i : Nat) :
    (settle marks path)[i]? = if i ∈ path then marks[i]?.map fun _ => .done else marks[i]? := by
  induction path generalizing marks with
  | nil => simp [settle]
  | cons position path ih =>
    have hstep : settle marks (position :: path) =
        settle (marks.setIfInBounds position .done) path := rfl
    rw [hstep, ih, Array.getElem?_setIfInBounds]
    by_cases heq : position = i
    · subst heq
      by_cases hlt : position < marks.size <;> simp [hlt]
    · simp [heq, Ne.symm heq]

/-- A walk's path may be marked as done once the way up is known to end from all of it. -/
lemma Marked.settle (h : Marked parents marks path)
    (hpath : ∀ i ∈ path, Grounded (parentIn parents) i) :
    Marked parents (ParentCycle.settle marks path) [] where
  size_eq := by rw [size_settle, h.size_eq]
  grounded_of_done i hi := by
    rw [getElem?_settle] at hi
    split at hi
    · rename_i hmem
      exact hpath i hmem
    · exact h.grounded_of_done i hi
  mem_of_onPath i hi := by
    rw [getElem?_settle] at hi
    split at hi
    · obtain ⟨_, _, hdone⟩ := Option.map_eq_some_iff.mp hi
      cases hdone
    · rename_i hmem
      exact absurd (h.mem_of_onPath i hi) hmem

/-- A walk that closes no cycle ends, and so does the way up from all of its path, provided that
it does if it ends from the place where the walk goes on. -/
lemma climb_grounded {current : Option Nat} (h : Marked parents marks path)
    (hlead : (∀ p, current = some p → Grounded (parentIn parents) p) →
      ∀ i ∈ path, Grounded (parentIn parents) i)
    (hcycle : (climb parents marks path current).cycle = none) :
    (∀ i ∈ (climb parents marks path current).path, Grounded (parentIn parents) i) ∧
      Marked parents (climb parents marks path current).marks
        (climb parents marks path current).path := by
  fun_induction climb parents marks path current with
  | case1 marks path => exact ⟨hlead (by simp), h⟩
  | case2 marks path position hlt hmark ih =>
    refine ih (h.push hlt) (fun hnext => ?_) hcycle
    -- The way up from here ends if the next position does, and then so does the one from the path.
    have hposition : Grounded (parentIn parents) position := by
      cases hup : parentIn parents position with
      | none => exact .top hup
      | some next => exact .step hup (hnext next hup)
    intro i hi
    rcases List.mem_cons.mp hi with rfl | hi
    · exact hposition
    · exact hlead (fun p hp => by cases hp; exact hposition) i hi
  | case3 marks path position hlt hmark => cases hcycle
  | case4 marks path position hlt hmark =>
    -- The walk comes to where an earlier one has been, or leaves the table: both end.
    refine ⟨hlead fun p hp => ?_, h⟩
    cases hp
    exact h.grounded_of_done position (by rw [Array.getElem?_eq_getElem hlt, hmark])
  | case5 marks path position hlt =>
    refine ⟨hlead fun p hp => ?_, h⟩
    cases hp
    exact h.grounded_of_size_le hlt

/-- A walk goes on from its path. -/
lemma suffix_climb (parents : Array (Option Nat)) (marks : Array Mark) (path : List Nat)
    (current : Option Nat) : path <:+ (climb parents marks path current).path := by
  fun_induction climb parents marks path current with
  | case2 marks path position hlt hmark ih => exact (List.suffix_cons position path).trans ih
  | case1 | case3 | case4 | case5 => exact List.suffix_rfl

/-- A walk that starts where it has not been goes on from its start. -/
lemma cons_suffix_climb_of_unvisited {position : Nat} (h : marks[position]? = some .unvisited) :
    position :: path <:+ (climb parents marks path (some position)).path := by
  obtain ⟨hlt, hmark⟩ := Array.getElem?_eq_some_iff.mp h
  rw [climb, dif_pos hlt]
  split
  · exact suffix_climb _ _ _ _
  · rename_i hother
    rw [hmark] at hother
    cases hother
  · rename_i hother
    rw [hmark] at hother
    cases hother

lemma mem_climb_of_unvisited {position : Nat} (h : marks[position]? = some .unvisited) :
    position ∈ (climb parents marks path (some position)).path :=
  (cons_suffix_climb_of_unvisited h).subset List.mem_cons_self

/-- A search that finds nothing has seen the way up end from everywhere it has started. -/
lemma searchFrom_grounded {starts : List Nat} (h : Marked parents marks [])
    (hnone : searchFrom parents marks starts = []) :
    ∀ i ∈ starts, Grounded (parentIn parents) i := by
  induction starts generalizing marks with
  | nil => simp
  | cons start starts ih =>
    rw [searchFrom] at hnone
    split at hnone
    · rename_i hmark
      obtain ⟨hcycle, hrest⟩ := List.append_eq_nil_iff.mp hnone
      rw [Option.toList_eq_nil_iff] at hcycle
      obtain ⟨hpath, hmarked⟩ := climb_grounded h (by simp) hcycle
      intro i hi
      rcases List.mem_cons.mp hi with rfl | hi
      · exact hpath i (mem_climb_of_unvisited hmark)
      · exact ih (hmarked.settle hpath) hrest i hi
    · rename_i hmark
      intro i hi
      rcases List.mem_cons.mp hi with rfl | hi
      · -- Between two walks nothing is on a path, so a start that is marked is known to end.
        by_cases hlt : i < marks.size
        · cases hm : marks[i] with
          | unvisited => rw [Array.getElem?_eq_getElem hlt, hm] at hmark; exact absurd rfl hmark
          | onPath =>
            exact absurd (h.mem_of_onPath i (by rw [Array.getElem?_eq_getElem hlt, hm])) (by simp)
          | done => exact h.grounded_of_done i (by rw [Array.getElem?_eq_getElem hlt, hm])
        · exact h.grounded_of_size_le hlt
      · exact ih h hnone i hi

/-- A walk closes no cycle where the way up ends, provided that it goes on above its whole path. -/
lemma climb_cycle_eq_none {current : Option Nat} (h : Marked parents marks path)
    (hground : ∀ i, Grounded (parentIn parents) i)
    (habove : ∀ p, current = some p → ∀ i ∈ path,
      ∃ steps, ascend (parentIn parents) (steps + 1) i = some p) :
    (climb parents marks path current).cycle = none := by
  fun_induction climb parents marks path current with
  | case1 | case4 | case5 => rfl
  | case2 marks path position hlt hmark ih =>
    refine ih (h.push hlt) fun p hp i hi => ?_
    have hnext : ascend (parentIn parents) 1 position = some p := by
      rw [ascend_succ, parentIn, hp]
      rfl
    rcases List.mem_cons.mp hi with rfl | hi
    · exact ⟨0, hnext⟩
    · obtain ⟨steps, hsteps⟩ := habove position rfl i hi
      exact ⟨steps + 1, by rw [ascend_add, hsteps]; exact hnext⟩
  | case3 marks path position hlt hmark =>
    have hmem : position ∈ path :=
      h.mem_of_onPath position (by rw [Array.getElem?_eq_getElem hlt, hmark])
    obtain ⟨steps, hsteps⟩ := habove position rfl position hmem
    exact absurd hsteps ((hground position).ascend_ne_self steps)

lemma searchFrom_eq_nil {starts : List Nat} (h : Marked parents marks [])
    (hground : ∀ i, Grounded (parentIn parents) i) : searchFrom parents marks starts = [] := by
  induction starts generalizing marks with
  | nil => rfl
  | cons start starts ih =>
    rw [searchFrom]
    split
    · have hcycle : (climb parents marks [] (some start)).cycle = none :=
        climb_cycle_eq_none h hground (by simp)
      obtain ⟨hpath, hmarked⟩ := climb_grounded h (by simp) hcycle
      simp only [hcycle, Option.toList_none, List.nil_append]
      exact ih (hmarked.settle hpath)
    · exact ih h

end ParentCycle

/-- When no cycle is found, the way up ends from every position. -/
theorem grounded_of_parentCycles_eq_nil {parents : Array (Option Nat)}
    (h : parentCycles parents = []) (i : Nat) : Grounded (parentIn parents) i := by
  have hmarked := ParentCycle.Marked.initial parents
  by_cases hi : i < parents.size
  · exact ParentCycle.searchFrom_grounded hmarked h i (List.mem_range.mpr hi)
  · exact hmarked.grounded_of_size_le (by rwa [Array.size_replicate])

/-- No cycle is found just when the way up ends from every position. -/
theorem parentCycles_eq_nil_iff {parents : Array (Option Nat)} :
    parentCycles parents = [] ↔ ∀ i, Grounded (parentIn parents) i :=
  ⟨grounded_of_parentCycles_eq_nil,
    ParentCycle.searchFrom_eq_nil (ParentCycle.Marked.initial parents)⟩

end PlanChart
