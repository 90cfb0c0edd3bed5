import PlanChart.Proofs.Linking

/-!
# A forest says what its issues say

The nodes of a forest that has been built stand for the issues one by one, in order. Every link
between two nodes is one that the issues name by their ids, and no link that they name is left out,
provided that it leads to an issue of the plan. What a node says of its assignee and its category is
what the directory knows about them.
-/

namespace PlanChart

namespace Forest

/-- The nodes of a forest and the links between them are those of a list of issues. -/
structure Represents (forest : Forest) (issues : List Issue) (directory : Directory)
    (categoryField : Option String) : Prop where
  size_eq : forest.size = issues.length
  externalId_eq : ∀ i (hi : i < issues.length), (forest.node i).externalId = issues[i].id
  find?_eq_some_iff : ∀ id i,
    forest.find? id = some i ↔ ∃ hi : i < issues.length, issues[i].id = id
  parent_eq_some_iff : ∀ i (hi : i < issues.length) p,
    (forest.node i).parent = some p ↔
      ∃ hp : p < issues.length, issues[i].parentId? = some issues[p].id
  parent_eq_none_iff : ∀ i (hi : i < issues.length),
    (forest.node i).parent = none ↔
      issues[i].parent = none ∨ issues[i].parent = some "" ∨
        ∃ id, issues[i].parent = some id ∧ ∀ issue ∈ issues, issue.id ≠ id
  children_eq : ∀ p < forest.size, (forest.node p).children.toList =
    (List.range forest.size).filter fun i => (forest.node i).parent = some p
  roots_eq : forest.roots.toList =
    (List.range forest.size).filter fun i => (forest.node i).parent = none
  dependencies_eq : ∀ i (hi : i < issues.length), (forest.node i).dependencies.toList =
    issues[i].dependencies.filterMap forest.find?
  assigneeName_eq : ∀ i (hi : i < issues.length), (forest.node i).assigneeName =
    issues[i].assignee.bind directory.userName?
  category_eq : ∀ i (hi : i < issues.length), (forest.node i).category =
    (issues[i].categoryId? categoryField).bind directory.category?
  parent_lt : ∀ i < forest.size, ∀ p, (forest.node i).parent = some p → p < forest.size
  children_lt : ∀ i < forest.size, ∀ child ∈ (forest.node i).children, child < forest.size
  dependencies_lt : ∀ i < forest.size, ∀ d ∈ (forest.node i).dependencies, d < forest.size
  roots_lt : ∀ root ∈ forest.roots, root < forest.size

/-- A node is found at the position of its issue's id. -/
lemma find?_ofIssues (issues : List Issue) (directory : Directory) (categoryField : Option String)
    (id : String) :
    (ofIssues issues directory categoryField).find? id = (issues.map Issue.id).idxOf? id := by
  have hnodes : (ofIssues issues directory categoryField).find? id =
      (ofIssues issues directory categoryField).nodes.toList.findIdx? (·.externalId == id) := by
    rw [← List.findIdx?_toArray, Array.toArray_toList, find?]
  rw [hnodes, ← map_externalId_ofIssues issues directory categoryField, List.idxOf?,
    List.findIdx?_map]
  rfl

/-- An issue names no parent of the plan just when it names none at all, or one that no issue has
for its id. -/
lemma parentId?_bind_eq_none_iff (issues : List Issue) (issue : Issue) :
    issue.parentId?.bind ((issues.map Issue.id).idxOf? ·) = none ↔
      issue.parent = none ∨ issue.parent = some "" ∨
        ∃ id, issue.parent = some id ∧ ∀ other ∈ issues, other.id ≠ id := by
  unfold Issue.parentId?
  cases hparent : issue.parent with
  | none => simp [Issue.reference?]
  | some id =>
    by_cases hempty : id = ""
    · simp [Issue.reference?, hempty]
    · have hreference : Issue.reference? (some id) = some id := by
        simp [Issue.reference?, hempty]
      simp [hreference, hempty]

/-- A forest that is built from issues says of each of them what the issue itself says, and links
them as they name each other. -/
theorem represents_of_build {issues : List Issue} {directory : Directory}
    {categoryField : Option String} {policy : MissingPolicy} {forest : Forest}
    (h : build issues directory categoryField policy = .ok forest) :
    forest.Represents issues directory categoryField := by
  -- A forest that is built is the one of the issues, so what is said of that holds of it.
  obtain ⟨hbuildable, rfl⟩ := build_eq_ok_iff.mp h
  have hsound := hbuildable.sound directory categoryField
  -- Ids are looked up in the forest as they are in the list of issues.
  have hfind : (ofIssues issues directory categoryField).find? =
      fun id => (issues.map Issue.id).idxOf? id :=
    funext (find?_ofIssues issues directory categoryField)
  have hsize := size_ofIssues issues directory categoryField
  exact {
    size_eq := hsize
    externalId_eq := fun i hi => by
      rw [node_ofIssues _ _ _ hi]
      rfl
    find?_eq_some_iff := fun id i => by
      rw [find?_ofIssues, idxOf?_id_eq_some_iff hbuildable.ids_nodup]
    parent_eq_some_iff := fun i hi p => by
      have hup := up_ofIssues issues directory categoryField i
      rw [up] at hup
      rw [hup, parentIn_parentTable_eq_some_iff hbuildable.ids_nodup]
      simp [hi]
    parent_eq_none_iff := fun i hi => by
      rw [parent_ofIssues _ _ _ hi, parentId?_bind_eq_none_iff]
    children_eq := fun p _ => hsound.down_eq p
    roots_eq := by
      rw [hsound.roots_eq]
      -- Roots are told by their lack of a parent, on either side.
      refine List.filter_congr fun i _ => ?_
      cases hparent : ((ofIssues issues directory categoryField).node i).parent with
      | none => simp [up, hparent]
      | some p => simp [up, hparent]
    dependencies_eq := fun i hi => by
      rw [dependencies_ofIssues _ _ _ hi, hfind]
    assigneeName_eq := fun i hi => by
      rw [node_ofIssues _ _ _ hi]
      rfl
    category_eq := fun i hi => by
      rw [node_ofIssues _ _ _ hi]
      rfl
    parent_lt := fun i _ => hsound.up_lt i
    children_lt := fun i _ child hchild =>
      (hsound.mem_down_iff.mp (Array.mem_toList_iff.mpr hchild)).1
    dependencies_lt := fun i _ => hsound.dependencies_lt i
    roots_lt := fun root hroot =>
      (hsound.mem_roots_iff.mp (Array.mem_toList_iff.mpr hroot)).1 }

/-- In the forest of a plan whose children come before their parents, the issue with an unknown
parent is a root and the dependency on an unknown issue is missing; the dependency of an issue on
itself stays. -/
theorem tangledForest_represents :
    build tangledIssues tangledDirectory none .drop = .ok tangledForest ∧
      tangledForest.find? "7\\" = some 2 ∧ (tangledForest.node 2).parent = some 0 ∧
      (tangledForest.node 3).parent = none ∧ (tangledForest.node 0).children.toList = [2] ∧
      tangledForest.roots.toList = [1, 3] ∧
      (tangledForest.node 1).dependencies.toList = [2, 0, 1] := by
  have h := represents_of_build build_tangledIssues
  have hsize : tangledForest.size = 4 := h.size_eq
  have hfind : tangledForest.find? = fun id => (tangledIssues.map Issue.id).idxOf? id :=
    funext (find?_ofIssues tangledIssues tangledDirectory none)
  have h0 : (tangledForest.node 0).parent = some 1 :=
    (h.parent_eq_some_iff 0 (by decide) 1).mpr ⟨by decide, by decide⟩
  have h1 : (tangledForest.node 1).parent = none :=
    (h.parent_eq_none_iff 1 (by decide)).mpr (by decide)
  have h2 : (tangledForest.node 2).parent = some 0 :=
    (h.parent_eq_some_iff 2 (by decide) 0).mpr ⟨by decide, by decide⟩
  have h3 : (tangledForest.node 3).parent = none :=
    (h.parent_eq_none_iff 3 (by decide)).mpr
      (Or.inr (Or.inr ⟨"ELSEWHERE", by decide, by decide⟩))
  refine ⟨build_tangledIssues, ?_, h2, h3, ?_, ?_, ?_⟩
  · exact (h.find?_eq_some_iff "7\\" 2).mpr ⟨by decide, by decide⟩
  · rw [h.children_eq 0 (by omega), hsize]
    simp [List.range_succ, h0, h1, h2, h3]
  · rw [h.roots_eq, hsize]
    simp [List.range_succ, h0, h1, h2, h3]
  · rw [h.dependencies_eq 1 (by decide), hfind]
    decide

end Forest

end PlanChart
