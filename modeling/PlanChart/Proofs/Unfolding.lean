import PlanChart.Proofs.Grove
import PlanChart.Proofs.Linking

/-!
# A forest as a grove

A forest refers to its nodes by their positions. Going down from the roots along the children it
unfolds into one grove of positions, in which every node stands exactly once.
-/

namespace PlanChart

namespace Forest

/-- A grove shows what is met when a forest is walked through from its roots. -/
structure Unfolds (forest : Forest) (grove : Grove Nat) : Prop where
  roots_eq : grove.roots = forest.roots.toList
  follows : grove.Follows forest.down

/-- There is at most one way to walk through a forest. -/
lemma Unfolds.unique {forest : Forest} {grove grove' : Grove Nat} (h : forest.Unfolds grove)
    (h' : forest.Unfolds grove') : grove = grove' :=
  h.follows.eq_of_roots_eq h'.follows (h.roots_eq.trans h'.roots_eq.symm)

/-- Adding up one for every occurrence counts the occurrences. -/
lemma sum_map_ite_eq_count (p : Nat) (l : List Nat) :
    (l.map fun q => if some p = some q then 1 else 0).sum = l.count p := by
  induction l with
  | nil => rfl
  | cons q l ih =>
    rw [List.map_cons, List.sum_cons, ih, List.count_cons, Nat.add_comm]
    by_cases hq : p = q
    · simp [hq]
    · simp [hq, Ne.symm hq]

namespace Sound

variable {forest : Forest} {grove : Grove Nat}

lemma wellFounded_down (h : forest.Sound) : WellFounded fun i p => i ∈ forest.down p := by
  simp only [h.mem_down_iff]
  exact Grounded.wellFounded_down h.grounded h.up_lt

lemma exists_unfolds (h : forest.Sound) : ∃ grove, forest.Unfolds grove := by
  obtain ⟨grove, hroots, hfollows⟩ := Grove.exists_follows h.wellFounded_down forest.roots.toList
  exact ⟨grove, hroots, hfollows⟩

/-- Only nodes of the forest are met below nodes of the forest. -/
lemma lt_of_mem_preorder (h : forest.Sound) (hg : grove.Follows forest.down)
    (hroots : ∀ i ∈ grove.roots, i < forest.size) : ∀ i ∈ grove.preorder, i < forest.size := by
  induction grove with
  | nil => simp
  | cons root below rest ihb ihr =>
    obtain ⟨hb, hfb, hfr⟩ := hg
    have hbelow : ∀ i ∈ below.roots, i < forest.size := by
      intro i hi
      rw [hb] at hi
      exact (h.mem_down_iff.mp hi).1
    intro i hi
    rw [Grove.preorder_cons, List.mem_cons, List.mem_append] at hi
    rcases hi with rfl | hi | hi
    · exact hroots i List.mem_cons_self
    · exact ihb hfb hbelow i hi
    · exact ihr hfr (fun j hj => hroots j (List.mem_cons_of_mem root hj)) i hi

/-- Every node is met exactly once. -/
lemma count_preorder (h : forest.Sound) (hg : forest.Unfolds grove) {i : Nat}
    (hi : i < forest.size) : grove.preorder.count i = 1 := by
  have hcount : ∀ i < forest.size, grove.preorder.count i =
      (if forest.up i = none then 1 else 0) +
        (grove.preorder.map fun p => if forest.up i = some p then 1 else 0).sum := by
    intro i hi
    rw [hg.follows.count_preorder, hg.roots_eq, h.count_roots hi]
    simp only [h.count_down hi]
  have hground := h.grounded i
  -- A root is met as a root only, and any other node once for every time its parent is met.
  induction hground with
  | top hup => simp [hcount _ hi, hup]
  | @step i p hup _ ih =>
    rw [hcount i hi, hup, sum_map_ite_eq_count, ih (h.up_lt i p hup)]
    rfl

/-- The nodes are met in an order that is a rearrangement of their positions. -/
lemma preorder_perm (h : forest.Sound) (hg : forest.Unfolds grove) :
    grove.preorder.Perm (List.range forest.size) := by
  have hlt : ∀ i ∈ grove.preorder, i < forest.size := by
    refine h.lt_of_mem_preorder hg.follows fun i hi => ?_
    rw [hg.roots_eq] at hi
    exact (h.mem_roots_iff.mp hi).1
  rw [List.perm_iff_count]
  intro i
  by_cases hi : i < forest.size
  · rw [h.count_preorder hg hi, List.count_eq_one_of_mem List.nodup_range (by simpa using hi)]
  · rw [List.count_eq_zero_of_not_mem (fun hmem => hi (hlt i hmem)),
      List.count_eq_zero_of_not_mem (by simpa using hi)]

lemma mem_preorder_iff (h : forest.Sound) (hg : forest.Unfolds grove) {i : Nat} :
    i ∈ grove.preorder ↔ i < forest.size := by
  rw [(h.preorder_perm hg).mem_iff, List.mem_range]

/-- From every node the way up leads to a root, in fewer steps than there are nodes. -/
lemma exists_root (h : forest.Sound) {i : Nat} (hi : i < forest.size) :
    ∃ steps < forest.size, ∃ root ∈ forest.roots,
      ascend forest.up steps i = some root ∧ forest.up root = none := by
  obtain ⟨steps, root, hroot, htop⟩ := (h.grounded i).exists_top
  refine ⟨steps, (h.grounded i).steps_lt h.up_lt hi hroot, root, ?_, hroot, htop⟩
  rw [← Array.mem_toList_iff, h.mem_roots_iff]
  exact ⟨ascend_lt h.up_lt hi hroot, htop⟩

end Sound

/-- A forest holds the issues it has been built from, in order. -/
lemma map_externalId_of_build {issues : List Issue} {directory : Directory}
    {categoryField : Option String} {policy : MissingPolicy} {forest : Forest}
    (h : build issues directory categoryField policy = .ok forest) :
    forest.nodes.toList.map Node.externalId = issues.map Issue.id := by
  obtain ⟨-, rfl⟩ := build_eq_ok_iff.mp h
  exact map_externalId_ofIssues issues directory categoryField

/-- Every forest that is built is one: the way up from each node leads to a root without coming
back to the node, and a walk down from the roots meets each issue's node exactly once. -/
theorem places_every_issue_once {issues : List Issue} {directory : Directory}
    {categoryField : Option String} {policy : MissingPolicy} {forest : Forest}
    (h : build issues directory categoryField policy = .ok forest) :
    forest.nodes.toList.map Node.externalId = issues.map Issue.id ∧
      (∀ i < forest.size, ∃ steps < forest.size, ∃ root ∈ forest.roots,
        ascend forest.up steps i = some root ∧ forest.up root = none) ∧
      (∀ i steps, ascend forest.up (steps + 1) i ≠ some i) ∧
      ∃ grove, forest.Unfolds grove ∧ (∀ other, forest.Unfolds other → other = grove) ∧
        grove.preorder.Perm (List.range forest.size) := by
  have hsound := sound_of_build h
  obtain ⟨grove, hgrove⟩ := hsound.exists_unfolds
  refine ⟨map_externalId_of_build h, fun i hi => hsound.exists_root hi, ?_, grove, hgrove, ?_, ?_⟩
  · exact fun i steps => (hsound.grounded i).ascend_ne_self steps
  · exact fun other hother => hother.unique hgrove
  · exact hsound.preorder_perm hgrove

theorem tangledIssues_placed_once :
    build tangledIssues tangledDirectory none .drop = .ok tangledForest ∧
      tangledForest.nodes.toList.map Node.externalId = ["A-2", "A-1", "7\\", ""] ∧
      (∃ steps < 4, ∃ root ∈ tangledForest.roots,
        ascend tangledForest.up steps 2 = some root ∧ tangledForest.up root = none) ∧
      ∃ grove, tangledForest.Unfolds grove ∧ grove.preorder.Perm [0, 1, 2, 3] := by
  obtain ⟨hids, hup, -, grove, hgrove, -, hperm⟩ := places_every_issue_once build_tangledIssues
  have hsize : tangledForest.size = 4 := size_ofIssues tangledIssues tangledDirectory none
  rw [hsize] at hup hperm
  exact ⟨build_tangledIssues, hids, hup 2 (by decide), grove, hgrove, hperm⟩

end Forest

end PlanChart
