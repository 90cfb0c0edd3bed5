import PlanChart.Forest.Anchor
import PlanChart.Proofs.Unfolding

/-!
# Where edges are joined

Going to the first child again and again ends at a leaf, before the number of steps that is allowed
runs out. It is the first leaf that the walk through the forest meets from there on. The leaf that
an edge is joined to for a group therefore stands inside the group, and a leaf is its own.
-/

namespace PlanChart

namespace Forest

variable {forest : Forest}

lemma getElem?_children (forest : Forest) (position : Nat) :
    (forest.node position).children[0]? = (forest.down position).head? := by
  rw [← Array.getElem?_toList, ← List.head?_eq_getElem?, down]

lemma descendFirst_of_not_isGroup {position : Nat} (h : (forest.node position).isGroup = false)
    (limit : Nat) : forest.descendFirst limit position = position := by
  cases limit with
  | zero => rfl
  | succ limit =>
    rw [descendFirst, getElem?_children, down_eq_nil_of_not_isGroup h]
    rfl

/-- Going to the first child again and again ends at the first leaf in preorder, as long as it may
take as many steps as there are nodes below. -/
lemma find?_isLeaf_eq_descendFirst {below : Grove Nat} {position : Nat}
    (hroots : below.roots = forest.down position) (hfollows : below.Follows forest.down) {limit : Nat}
    (hlimit : below.preorder.length ≤ limit) :
    (position :: below.preorder).find? (fun i => !(forest.node i).isGroup) =
      some (forest.descendFirst limit position) := by
  -- The first child is the first root of the grove below, so this goes down along the grove.
  induction below generalizing position limit with
  | nil =>
    have hleaf : (forest.node position).isGroup = false := by
      rw [← Bool.not_eq_true, isGroup_iff, ← hroots]
      simp
    rw [descendFirst_of_not_isGroup hleaf, List.find?_cons_of_pos (by simp [hleaf])]
  | cons child inner rest ihb _ =>
    obtain ⟨hinner, hfb, -⟩ := hfollows
    have hgroup : (forest.node position).isGroup = true := by
      rw [isGroup_iff, ← hroots]
      simp
    have hfirst : (forest.node position).children[0]? = some child := by
      rw [getElem?_children, ← hroots, Grove.roots_cons, List.head?_cons]
    rw [Grove.preorder_cons, List.length_cons, List.length_append] at hlimit
    cases limit with
    | zero => omega
    | succ limit =>
      have hinnerLimit : inner.preorder.length ≤ limit := by omega
      rw [descendFirst, hfirst, List.find?_cons_of_neg (by simp [hgroup]), Grove.preorder_cons,
        ← List.cons_append, List.find?_append, ihb hinner hfb hinnerLimit, Option.some_or]

lemma anchor_of_not_isGroup {position : Nat} (h : (forest.node position).isGroup = false) :
    forest.anchor position = ⟨position, none⟩ := by
  simp [anchor, firstLeaf, descendFirst_of_not_isGroup h]

/-- An edge is clipped at no other group than the node that it is about. -/
lemma cluster_anchor {position group : Nat}
    (h : (forest.anchor position).cluster = some group) : group = position := by
  rw [anchor] at h
  dsimp only at h
  split at h
  · cases h
  · cases h
    rfl

namespace Sound

variable {grove : Grove Nat}

lemma exists_subtree (h : forest.Sound) (hg : forest.Unfolds grove) {position : Nat}
    (hposition : position < forest.size) : ∃ below, (position, below) ∈ grove.subtrees := by
  have hmem : position ∈ grove.subtrees.map Prod.fst := by
    rwa [Grove.map_fst_subtrees, h.mem_preorder_iff hg]
  obtain ⟨⟨_, below⟩, hbelow, rfl⟩ := List.mem_map.mp hmem
  exact ⟨below, hbelow⟩

lemma length_preorder_lt (h : forest.Sound) (hg : forest.Unfolds grove) {position : Nat}
    {below : Grove Nat} (hbelow : (position, below) ∈ grove.subtrees) :
    below.preorder.length < forest.size := by
  have hlt := Grove.length_preorder_lt_of_mem_subtrees hbelow
  rwa [(h.preorder_perm hg).length_eq, List.length_range] at hlt

lemma find?_isLeaf_eq_firstLeaf (h : forest.Sound) (hg : forest.Unfolds grove) {position : Nat}
    {below : Grove Nat} (hbelow : (position, below) ∈ grove.subtrees) :
    (position :: below.preorder).find? (fun i => !(forest.node i).isGroup) =
      some (forest.firstLeaf position) := by
  obtain ⟨hroots, hfollows⟩ := hg.follows.of_mem_subtrees hbelow
  exact find?_isLeaf_eq_descendFirst hroots hfollows (h.length_preorder_lt hg hbelow).le

lemma anchor_of_isGroup (h : forest.Sound) (hg : forest.Unfolds grove) {position : Nat}
    {below : Grove Nat} (hbelow : (position, below) ∈ grove.subtrees)
    (hgroup : (forest.node position).isGroup = true) :
    ∃ leaf ∈ below.preorder, (forest.node leaf).isGroup = false ∧
      forest.anchor position = ⟨leaf, some position⟩ := by
  have hfirst := h.find?_isLeaf_eq_firstLeaf hg hbelow
  have hleaf : (forest.node (forest.firstLeaf position)).isGroup = false := by
    simpa using List.find?_some hfirst
  have hne : forest.firstLeaf position ≠ position := by
    intro heq
    rw [heq, hgroup] at hleaf
    cases hleaf
  rw [List.find?_cons_of_neg (by simp [hgroup])] at hfirst
  refine ⟨forest.firstLeaf position, List.mem_of_find?_eq_some hfirst, hleaf, ?_⟩
  simp [anchor, hne]

/-- An edge is clipped at a group that it is about, and at nothing else. -/
lemma anchor_eq_firstLeaf (h : forest.Sound) {position : Nat} (hposition : position < forest.size) :
    forest.anchor position =
      ⟨forest.firstLeaf position, if (forest.node position).isGroup then some position else none⟩ := by
  obtain ⟨grove, hg⟩ := h.exists_unfolds
  obtain ⟨below, hbelow⟩ := h.exists_subtree hg hposition
  have hleaf : (forest.anchor position).leaf = forest.firstLeaf position := rfl
  rw [← hleaf]
  cases hgroup : (forest.node position).isGroup with
  | false => rw [anchor_of_not_isGroup hgroup, if_neg Bool.false_ne_true]
  | true =>
    obtain ⟨leaf, -, -, hanchor⟩ := h.anchor_of_isGroup hg hbelow hgroup
    rw [hanchor, if_pos rfl]

/-- Going to the first child does not lead out of the forest. -/
lemma descendFirst_lt (h : forest.Sound) {position : Nat} (hposition : position < forest.size)
    (limit : Nat) : forest.descendFirst limit position < forest.size := by
  induction limit generalizing position with
  | zero => exact hposition
  | succ limit ih =>
    rw [descendFirst, getElem?_children]
    cases hfirst : (forest.down position).head? with
    | none => exact hposition
    | some child => exact ih (h.mem_down_iff.mp (List.mem_of_head? hfirst)).1

lemma firstLeaf_lt (h : forest.Sound) {position : Nat} (hposition : position < forest.size) :
    forest.firstLeaf position < forest.size :=
  h.descendFirst_lt hposition forest.size

end Sound

/-- In a forest that has been built, going to the first child again and again comes to an end at
every node, before it has made as many steps as there are nodes. It ends at the first leaf that the
walk through the forest meets from the node on, which is the node itself or stands below it. There
an edge about the node is joined, and it is clipped at the node if that is a group. -/
theorem anchors_at_first_leaf {issues : List Issue} {directory : Directory}
    {categoryField : Option String} {policy : MissingPolicy} {forest : Forest}
    (h : build issues directory categoryField policy = .ok forest) :
    ∃ grove, forest.Unfolds grove ∧ ∀ position < forest.size, ∃ below,
      (position, below) ∈ grove.subtrees ∧
      (∃ steps < forest.size, ∀ limit, steps ≤ limit →
        forest.descendFirst limit position = forest.firstLeaf position) ∧
      (position :: below.preorder).find? (fun i => !(forest.node i).isGroup) =
        some (forest.firstLeaf position) ∧
      forest.anchor position = ⟨forest.firstLeaf position,
        if (forest.node position).isGroup then some position else none⟩ := by
  have hsound := sound_of_build h
  obtain ⟨grove, hgrove⟩ := hsound.exists_unfolds
  refine ⟨grove, hgrove, ?_⟩
  intro position hposition
  obtain ⟨below, hbelow⟩ := hsound.exists_subtree hgrove hposition
  have hfirst := hsound.find?_isLeaf_eq_firstLeaf hgrove hbelow
  refine ⟨below, hbelow, ?_, hfirst, hsound.anchor_eq_firstLeaf hposition⟩
  -- The way down visits no node twice, so the nodes below bound its length.
  refine ⟨below.preorder.length, hsound.length_preorder_lt hgrove hbelow, ?_⟩
  intro limit hlimit
  obtain ⟨hroots, hfollows⟩ := hgrove.follows.of_mem_subtrees hbelow
  rw [find?_isLeaf_eq_descendFirst hroots hfollows hlimit] at hfirst
  exact Option.some.inj hfirst

/-! ### An example -/

lemma up_tangledForest : tangledForest.up = fun i => tangledIssues[i]?.bind fun issue =>
    issue.parentId?.bind ((tangledIssues.map Issue.id).idxOf? ·) := by
  funext i
  exact (up_ofIssues tangledIssues tangledDirectory none i).trans (parentIn_parentTable _ i)

lemma down_tangledForest :
    tangledForest.down 1 = [0] ∧ tangledForest.down 0 = [2] ∧ tangledForest.down 2 = [] := by
  have hsound := sound_of_build build_tangledIssues
  have hsize : tangledForest.size = 4 := size_ofIssues tangledIssues tangledDirectory none
  rw [hsound.down_eq, hsound.down_eq, hsound.down_eq, hsize, up_tangledForest]
  decide

/-- An edge about a group around a group is joined to the leaf inside both. -/
theorem tangledForest_anchors_at_first_leaf :
    build tangledIssues tangledDirectory none .drop = .ok tangledForest ∧
      tangledForest.anchor 1 = ⟨2, some 1⟩ ∧
      ∃ steps < 4, ∀ limit, steps ≤ limit → tangledForest.descendFirst limit 1 = 2 := by
  obtain ⟨grove, -, hall⟩ := anchors_at_first_leaf build_tangledIssues
  have hsize : tangledForest.size = 4 := size_ofIssues tangledIssues tangledDirectory none
  obtain ⟨houter, hinner, hnone⟩ := down_tangledForest
  have hgroup : (tangledForest.node 1).isGroup = true := by
    rw [isGroup_iff, houter]
    simp
  have hleaf : tangledForest.firstLeaf 1 = 2 := by
    simp [firstLeaf, hsize, descendFirst, getElem?_children, houter, hinner, hnone]
  rw [hsize] at hall
  obtain ⟨below, -, hends, -, hanchor⟩ := hall 1 (by decide)
  rw [hleaf] at hends hanchor
  rw [hgroup, if_pos rfl] at hanchor
  exact ⟨build_tangledIssues, hanchor, hends⟩

end Forest

end PlanChart
