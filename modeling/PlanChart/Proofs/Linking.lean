import PlanChart.Proofs.Buildable

/-!
# The links of a forest

A forest stores every link twice: each node knows its parent, and each parent knows its children.
In a forest that has been built the two agree, no link leads out of the forest, and the way up from
every node ends.
-/

namespace PlanChart

namespace Forest

/-- The parent of a node, if it has one. -/
def up (forest : Forest) (position : Nat) : Option Nat :=
  (forest.node position).parent

/-- The children of a node, in order. -/
def down (forest : Forest) (position : Nat) : List Nat :=
  (forest.node position).children.toList

/-- The links of a forest fit together. -/
structure Sound (forest : Forest) : Prop where
  up_lt : ∀ i p, forest.up i = some p → p < forest.size
  down_eq : ∀ p, forest.down p = (List.range forest.size).filter fun i => forest.up i = some p
  roots_eq : forest.roots.toList =
    (List.range forest.size).filter fun i => (forest.up i).isNone
  dependencies_lt : ∀ i, ∀ d ∈ (forest.node i).dependencies, d < forest.size
  grounded : ∀ i, Grounded forest.up i

lemma node_of_size_le {forest : Forest} {position : Nat} (h : forest.size ≤ position) :
    forest.node position = default := by
  rw [node, Array.getD_eq_getD_getElem?, Array.getElem?_eq_none h]
  rfl

/-- The nodes of a forest stand in the order of their positions. -/
lemma map_node_range (forest : Forest) :
    (List.range forest.size).map forest.node = forest.nodes.toList := by
  refine List.ext_getElem (by simp [size]) fun i hi hi' => ?_
  have hlt : i < forest.nodes.size := by simpa using hi'
  simp [node, hlt]

lemma isGroup_iff (forest : Forest) (position : Nat) :
    (forest.node position).isGroup = true ↔ forest.down position ≠ [] := by
  simp [Node.isGroup, down]

lemma down_eq_nil_of_not_isGroup {forest : Forest} {position : Nat}
    (h : (forest.node position).isGroup = false) : forest.down position = [] := by
  by_contra hne
  rw [(isGroup_iff forest position).mpr hne] at h
  cases h

namespace Sound

variable {forest : Forest}

lemma mem_down_iff (h : forest.Sound) {i p : Nat} :
    i ∈ forest.down p ↔ i < forest.size ∧ forest.up i = some p := by
  rw [h.down_eq]
  simp

lemma mem_roots_iff (h : forest.Sound) {i : Nat} :
    i ∈ forest.roots.toList ↔ i < forest.size ∧ forest.up i = none := by
  rw [h.roots_eq]
  simp

lemma count_down (h : forest.Sound) {i : Nat} (hi : i < forest.size) (p : Nat) :
    (forest.down p).count i = if forest.up i = some p then 1 else 0 := by
  rw [h.down_eq]
  split
  · rename_i hup
    exact List.count_eq_one_of_mem (List.nodup_range.filter _) (by simp [hi, hup])
  · rename_i hup
    exact List.count_eq_zero_of_not_mem (by simp [hup])

lemma count_roots (h : forest.Sound) {i : Nat} (hi : i < forest.size) :
    forest.roots.toList.count i = if forest.up i = none then 1 else 0 := by
  rw [h.roots_eq]
  split
  · rename_i hup
    exact List.count_eq_one_of_mem (List.nodup_range.filter _) (by simp [hi, hup])
  · rename_i hup
    exact List.count_eq_zero_of_not_mem (by simp [hup])

end Sound

/-! ### Children and roots in a table of parents -/

/-- A table of children with one more link in it. -/
def addChild (table : Array (Array Nat)) (link : Option Nat × Nat) : Array (Array Nat) :=
  link.1.elim table fun parent => table.modify parent (·.push link.2)

lemma childTable_eq (parents : Array (Option Nat)) :
    childTable parents =
      parents.toList.zipIdx.foldl addChild (Array.replicate parents.size #[]) := by
  unfold childTable
  congr 1
  funext table link
  obtain ⟨parent, position⟩ := link
  cases parent <;> rfl

lemma getElem?_foldl_addChild {n p : Nat} (hp : p < n) (links : List (Option Nat)) :
    (links.zipIdx.foldl addChild (Array.replicate n #[]))[p]? =
      some ((List.range links.length).filter fun i => links[i]?.join = some p).toArray := by
  -- The table is filled from the front, so the induction adds a link at the end of the list.
  induction links using List.reverseRecOn with
  | nil => simp [hp]
  | append_singleton links parent ih =>
    have hold : (List.range links.length).filter (fun i => (links ++ [parent])[i]?.join = some p) =
        (List.range links.length).filter fun i => links[i]?.join = some p := by
      refine List.filter_congr fun i hi => ?_
      rw [List.getElem?_append_left (List.mem_range.mp hi)]
    rw [List.zipIdx_append, List.foldl_append, List.length_append, List.length_singleton,
      List.range_succ, List.filter_append, hold]
    cases parent with
    | none => simpa [addChild] using ih
    | some parent =>
      simp only [List.zipIdx_singleton, List.foldl_cons, List.foldl_nil, addChild, Option.elim_some,
        Array.getElem?_modify, ih]
      by_cases heq : parent = p
      · simp [heq]
      · simp [heq]

lemma childTable_getElem? (parents : Array (Option Nat)) {p : Nat} (hp : p < parents.size) :
    (childTable parents)[p]? =
      some ((List.range parents.size).filter fun i => parentIn parents i = some p).toArray := by
  have hcolumn : ∀ i, parentIn parents i = parents.toList[i]?.join := fun i => by simp [parentIn]
  simp only [childTable_eq, getElem?_foldl_addChild hp, hcolumn, Array.length_toList]

lemma toList_rootPositions (parents : Array (Option Nat)) :
    (rootPositions parents).toList =
      (List.range parents.size).filter fun i => (parentIn parents i).isNone := rfl

/-! ### The forest of a list of issues -/

section

variable (issues : List Issue) (directory : Directory) (categoryField : Option String)

@[simp] lemma size_ofIssues : (ofIssues issues directory categoryField).size = issues.length := by
  simp [ofIssues, link, size]

lemma node_ofIssues {i : Nat} (h : i < issues.length) :
    (ofIssues issues directory categoryField).node i =
      nodeOf directory categoryField (Index.ofIds (issues.map Issue.id)) issues[i]
        (parentIn (parentTable issues) i)
        ((childTable (parentTable issues)).getD i #[]) := by
  have hi : i < (parentTable issues).size := by simpa using h
  have hparent : parentIn (parentTable issues) i = (parentTable issues)[i] := by
    rw [parentIn, Array.getElem?_eq_getElem hi, Option.join_some]
  simp [ofIssues, link, node, h, hparent]

lemma id_node_ofIssues {i : Nat} (hi : i < issues.length) :
    ((ofIssues issues directory categoryField).node i).id = (issueAt issues i).identifier := by
  rw [node_ofIssues _ _ _ hi, issueAt_eq hi]
  rfl

lemma up_ofIssues (i : Nat) :
    (ofIssues issues directory categoryField).up i = parentIn (parentTable issues) i := by
  by_cases h : i < issues.length
  · rw [up, node_ofIssues _ _ _ h]
    rfl
  · rw [up, node_of_size_le (by simpa using h), parentIn_parentTable,
      List.getElem?_eq_none (Nat.le_of_not_lt h)]
    rfl

lemma parent_ofIssues {position : Nat} (hposition : position < issues.length) :
    ((ofIssues issues directory categoryField).node position).parent =
      issues[position].parentId?.bind ((issues.map Issue.id).idxOf? ·) := by
  have hup := up_ofIssues issues directory categoryField position
  rwa [parentIn_parentTable, List.getElem?_eq_getElem hposition, Option.bind_some] at hup

lemma dependencies_ofIssues {position : Nat} (hposition : position < issues.length) :
    ((ofIssues issues directory categoryField).node position).dependencies =
      (issues[position].dependencies.filterMap ((issues.map Issue.id).idxOf? ·)).toArray := by
  rw [node_ofIssues _ _ _ hposition]
  simp [nodeOf]

/-- A forest holds the issues it stands for, in order. -/
lemma map_externalId_ofIssues :
    (ofIssues issues directory categoryField).nodes.toList.map Node.externalId =
      issues.map Issue.id := by
  apply List.ext_getElem
  · simp [ofIssues, link]
  · intro i _ _
    simp [ofIssues, link, nodeOf]

end

/-- What is built is sound. -/
lemma Buildable.sound {issues : List Issue} {policy : MissingPolicy} (h : Buildable issues policy)
    (directory : Directory) (categoryField : Option String) :
    (ofIssues issues directory categoryField).Sound where
  up_lt i p hp := by
    rw [up_ofIssues] at hp
    rw [size_ofIssues]
    exact parentIn_parentTable_lt hp
  down_eq p := by
    simp only [up_ofIssues, size_ofIssues]
    by_cases hp : p < issues.length
    · rw [down, node_ofIssues _ _ _ hp, nodeOf, Array.getD_eq_getD_getElem?,
        childTable_getElem? _ (by simpa using hp), size_parentTable]
      rfl
    · -- Behind the last issue stands the blank node, and no issue has its parent there.
      rw [down, node_of_size_le (by simpa using hp)]
      refine (List.filter_eq_nil_iff.mpr fun i _ hi => hp ?_).symm
      exact parentIn_parentTable_lt (of_decide_eq_true hi)
  roots_eq := by
    simp only [up_ofIssues, size_ofIssues]
    rw [← size_parentTable issues]
    exact toList_rootPositions (parentTable issues)
  dependencies_lt i d hd := by
    rw [size_ofIssues]
    by_cases hi : i < issues.length
    · rw [node_ofIssues _ _ _ hi, nodeOf] at hd
      obtain ⟨id, -, hid⟩ := List.mem_filterMap.mp (List.mem_toArray.mp hd)
      simpa using Index.getElem?_ofIds_lt hid
    · rw [node_of_size_le (by simpa using hi)] at hd
      cases Array.not_mem_empty d hd
  -- A cycle would have stopped the third pass, so the way up ends everywhere.
  grounded i := by
    have hup : (ofIssues issues directory categoryField).up = parentIn (parentTable issues) :=
      funext fun i => up_ofIssues issues directory categoryField i
    rw [hup]
    exact grounded_of_parentCycles_eq_nil h.no_cycle i

/-- A forest that has been built is sound. -/
lemma sound_of_build {issues : List Issue} {directory : Directory} {categoryField : Option String}
    {policy : MissingPolicy} {forest : Forest}
    (h : build issues directory categoryField policy = .ok forest) : forest.Sound := by
  obtain ⟨hbuildable, rfl⟩ := build_eq_ok_iff.mp h
  exact hbuildable.sound directory categoryField

end Forest

end PlanChart
