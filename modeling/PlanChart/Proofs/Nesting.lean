import PlanChart.Document.Walk
import PlanChart.Proofs.Anchoring

/-!
# Nested cursors

The cursors of a walk are nested as the groups are in which it stands. Each one runs through the
children of the group that the next outer one has entered last, so that this group is at hand when
the inner cursor is given up. The groups behind the cursors stand above each other, and a walk
therefore never has more cursors than a forest has levels of groups, and one for the roots.
-/

namespace PlanChart

namespace Forest

variable {forest : Forest}

/-! ### Groups above each other -/

/-- A node and the nodes above it, upwards. No way up takes as many steps as there are nodes. -/
def wayUp (forest : Forest) (position : Nat) : List Nat :=
  (List.range forest.size).filterMap (ascend forest.up · position)

/-- How many of some nodes are groups. -/
def countGroups (forest : Forest) (positions : List Nat) : Nat :=
  positions.countP fun i => (forest.node i).isGroup

/-- The largest number of groups on the way between a root and a node. -/
def groupDepth (forest : Forest) : Nat :=
  (Finset.range forest.size).sup fun i => forest.countGroups (forest.wayUp i)

lemma countGroups_range (forest : Forest) :
    forest.countGroups (List.range forest.size) = forest.nodes.countP Node.isGroup := by
  rw [← Array.countP_toList, ← map_node_range, List.countP_map]
  rfl

namespace Sound

/-- A chain of links from a node to its parent and further on is a part of the way up. -/
lemma isPrefix_wayUp (h : forest.Sound) {i : Nat} {way : List Nat}
    (hchain : (i :: way).IsChain fun i p => forest.up i = some p) (hi : i < forest.size) :
    (i :: way) <+: forest.wayUp i := by
  have hlast := ascend_eq_getElem hchain (Nat.lt_succ_self way.length)
  have hlength : (i :: way).length ≤ forest.size := (h.grounded i).steps_lt h.up_lt hi hlast
  have hways : (List.range (i :: way).length).map (ascend forest.up · i) = (i :: way).map some := by
    refine List.ext_getElem (by simp) fun steps hsteps _ => ?_
    rw [List.length_map, List.length_range] at hsteps
    rw [List.getElem_map, List.getElem_map, List.getElem_range, ascend_eq_getElem hchain hsteps]
  have hfront : (List.range (i :: way).length).filterMap (ascend forest.up · i) = i :: way :=
    calc (List.range (i :: way).length).filterMap (ascend forest.up · i)
      _ = ((List.range (i :: way).length).map (ascend forest.up · i)).filterMap id := by
        rw [List.filterMap_map, Function.id_comp]
      _ = ((i :: way).map some).filterMap id := by rw [hways]
      _ = i :: way := by rw [List.filterMap_map, Function.id_comp, List.filterMap_some]
  obtain ⟨extra, hextra⟩ := Nat.exists_eq_add_of_le hlength
  rw [wayUp, hextra, List.range_add, List.filterMap_append, hfront]
  exact List.prefix_append _ _

/-- There are no more groups above each other than the largest number of them. -/
lemma length_le_groupDepth (h : forest.Sound) {groups : List Nat}
    (hchain : groups.IsChain fun i p => forest.up i = some p)
    (hgroups : ∀ i ∈ groups, i < forest.size ∧ (forest.node i).isGroup = true) :
    groups.length ≤ forest.groupDepth := by
  cases groups with
  | nil => exact Nat.zero_le _
  | cons i way =>
    have hi : i < forest.size := (hgroups i List.mem_cons_self).1
    calc (i :: way).length
      _ = forest.countGroups (i :: way) :=
        (List.countP_eq_length.mpr fun j hj => (hgroups j hj).2).symm
      _ ≤ forest.countGroups (forest.wayUp i) := (h.isPrefix_wayUp hchain hi).sublist.countP_le
      _ ≤ forest.groupDepth :=
        Finset.le_sup (f := fun i => forest.countGroups (forest.wayUp i)) (Finset.mem_range.mpr hi)

end Sound

/-! ### An example -/

lemma isGroup_tangledForest (i : Nat) : (tangledForest.node i).isGroup = decide (i < 2) := by
  have hsound := sound_of_build build_tangledIssues
  have hsize : tangledForest.size = 4 := size_ofIssues tangledIssues tangledDirectory none
  have hparents : (List.range 4).map tangledForest.up = [some 1, none, some 0, none] := by
    rw [up_tangledForest]
    decide
  have hmem : some i ∈ (List.range 4).map tangledForest.up ↔ tangledForest.down i ≠ [] := by
    rw [hsound.down_eq, hsize]
    simp
  rw [Bool.eq_iff_iff, isGroup_iff, ← hmem, hparents]
  simp only [List.mem_cons, List.not_mem_nil, Option.some.injEq, reduceCtorEq, false_or, or_false,
    decide_eq_true_eq]
  omega

lemma countP_isGroup_tangledForest : tangledForest.nodes.countP Node.isGroup = 2 := by
  have hsize : tangledForest.size = 4 := size_ofIssues tangledIssues tangledDirectory none
  rw [← countGroups_range, hsize, countGroups]
  simp only [isGroup_tangledForest]
  rfl

lemma groupDepth_tangledForest : tangledForest.groupDepth = 2 := by
  have hsize : tangledForest.size = 4 := size_ofIssues tangledIssues tangledDirectory none
  simp only [groupDepth, countGroups, wayUp, isGroup_tangledForest, hsize, up_tangledForest]
  decide

end Forest

namespace Document

/-! ### The invariant of the cursors -/

/-- Of two cursors the inner one runs through the children of the group that the outer one has
entered last. -/
def Cursor.Inside (forest : Forest) (inner outer : Cursor) : Prop :=
  1 ≤ outer.next ∧ ∃ group, outer.siblings[outer.next - 1]? = some group ∧
    (forest.node group).isGroup = true ∧ inner.siblings = (forest.node group).children

/-- The cursors of a walk, the innermost first: none has gone beyond its siblings, each stands
inside of the next one, and the last one runs through the roots. -/
structure Nested (forest : Forest) (cursors : List Cursor) : Prop where
  next_le : ∀ cursor ∈ cursors, cursor.next ≤ cursor.siblings.size
  inside : cursors.IsChain (Cursor.Inside forest)
  bottom : ∀ cursor ∈ cursors.getLast?, cursor.siblings = forest.roots

namespace Nested

variable {forest : Forest} {cursor : Cursor} {outer : List Cursor} {position : Nat}

lemma start (forest : Forest) : Nested forest [Cursor.start forest.roots] where
  next_le := by simp [Cursor.start]
  inside := List.isChain_singleton _
  bottom := by simp [Cursor.start]

/-- The innermost cursor may be given up. -/
lemma leave (h : Nested forest (cursor :: outer)) : Nested forest outer where
  next_le c hc := h.next_le c (List.mem_cons_of_mem cursor hc)
  inside := h.inside.tail
  bottom c hc := by
    refine h.bottom c ?_
    cases outer with
    | nil => cases hc
    | cons d outer => rwa [List.getLast?_cons_cons]

/-- The innermost cursor may enter its next sibling. -/
lemma advance (h : Nested forest (cursor :: outer))
    (hnext : cursor.siblings[cursor.next]? = some position) :
    Nested forest ({ cursor with next := cursor.next + 1 } :: outer) where
  next_le c hc := by
    rcases List.mem_cons.mp hc with rfl | hc
    · exact (Array.getElem?_eq_some_iff.mp hnext).1
    · exact h.next_le c (List.mem_cons_of_mem cursor hc)
  -- Where a cursor stands inside of another one depends on its siblings alone.
  inside := List.isChain_cons.mpr
    ⟨fun d hd => (List.isChain_cons.mp h.inside).1 d hd, h.inside.tail⟩
  bottom c hc := by
    cases outer with
    | nil =>
      obtain rfl : _ = c := Option.some.inj hc
      exact h.bottom cursor rfl
    | cons d outer =>
      rw [List.getLast?_cons_cons] at hc
      exact h.bottom c (by rwa [List.getLast?_cons_cons])

/-- When the innermost cursor has entered a group, a cursor for the group's children may come
inside. -/
lemma enter (h : Nested forest ({ cursor with next := cursor.next + 1 } :: outer))
    (hnext : cursor.siblings[cursor.next]? = some position)
    (hgroup : (forest.node position).isGroup = true) :
    Nested forest (Cursor.start (forest.node position).children ::
      { cursor with next := cursor.next + 1 } :: outer) where
  next_le c hc := by
    rcases List.mem_cons.mp hc with rfl | hc
    · exact Nat.zero_le _
    · exact h.next_le c hc
  inside := List.isChain_cons_cons.mpr
    ⟨⟨Nat.le_add_left 1 _, position, hnext, hgroup, rfl⟩, h.inside⟩
  bottom c hc := h.bottom c (by rwa [List.getLast?_cons_cons] at hc)

/-- The cursors run through nodes of the forest. -/
lemma lt_size (hsound : forest.Sound) {cursors : List Cursor} (h : Nested forest cursors) :
    ∀ cursor ∈ cursors, ∀ i ∈ cursor.siblings, i < forest.size := by
  induction cursors with
  | nil => simp
  | cons cursor outer ih =>
    intro c hc i hi
    rcases List.mem_cons.mp hc with rfl | hc
    · cases outer with
      | nil =>
        rw [h.bottom c rfl, ← Array.mem_toList_iff] at hi
        exact (hsound.mem_roots_iff.mp hi).1
      | cons d outer =>
        obtain ⟨-, group, -, -, hsiblings⟩ := (List.isChain_cons_cons.mp h.inside).1
        rw [hsiblings, ← Array.mem_toList_iff] at hi
        exact (hsound.mem_down_iff.mp hi).1
    · exact ih h.leave c hc i hi

/-- The groups behind the cursors, the innermost first: the innermost cursor runs through the
children of the first one, and each stands below the next one. -/
lemma exists_groups (hsound : forest.Sound) (h : Nested forest (cursor :: outer)) :
    ∃ groups : List Nat, groups.length = outer.length ∧
      (∀ i ∈ groups, i < forest.size ∧ (forest.node i).isGroup = true) ∧
      (groups.IsChain fun i p => forest.up i = some p) ∧
      ∀ group ∈ groups.head?, cursor.siblings = (forest.node group).children := by
  induction outer generalizing cursor with
  | nil => exact ⟨[], rfl, by simp, List.isChain_nil, by simp⟩
  | cons d outer ih =>
    obtain ⟨groups, hlength, hgroups, hchain, hhead⟩ := ih h.leave
    obtain ⟨-, group, hgroup, hkind, hsiblings⟩ := (List.isChain_cons_cons.mp h.inside).1
    have hmem : group ∈ d.siblings := Array.mem_of_getElem? hgroup
    have hlt : group < forest.size := h.lt_size hsound d (by simp) group hmem
    refine ⟨group :: groups, by rw [List.length_cons, List.length_cons, hlength], ?_, ?_, ?_⟩
    · exact List.forall_mem_cons.mpr ⟨⟨hlt, hkind⟩, hgroups⟩
    · -- The siblings of the cursor outside are the children of the next group, which is the parent.
      refine List.isChain_cons.mpr ⟨fun p hp => ?_, hchain⟩
      rw [hhead p hp, ← Array.mem_toList_iff] at hmem
      exact (hsound.mem_down_iff.mp hmem).2
    · intro p hp
      obtain rfl : group = p := Option.some.inj hp
      exact hsiblings

/-- There are no more cursors than one for the roots and one for each of some groups above each
other. -/
lemma length_le (hsound : forest.Sound) {cursors : List Cursor} (h : Nested forest cursors) :
    cursors.length ≤ 1 + forest.groupDepth := by
  cases cursors with
  | nil => exact Nat.zero_le _
  | cons cursor outer =>
    obtain ⟨groups, hlength, hgroups, hchain, -⟩ := h.exists_groups hsound
    have hdepth := hsound.length_le_groupDepth hchain hgroups
    rw [List.length_cons]
    omega

end Nested

end Document

end PlanChart
