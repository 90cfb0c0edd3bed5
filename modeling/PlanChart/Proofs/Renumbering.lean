import PlanChart.Proofs.Anchoring
import PlanChart.Proofs.Rendering

/-!
# Renumbering nodes

The nodes of a forest can be put at other positions, with all links between them changed
accordingly. Walking through the forest and looking for anchors commute with this renumbering, and
the document does not change at all: positions are not written.
-/

namespace PlanChart

/-- The node in whose links every position is replaced. -/
def Node.renumber (σ : Nat → Nat) (node : Node) : Node :=
  { node with
    parent := node.parent.map σ
    children := node.children.map σ
    dependencies := node.dependencies.map σ }

@[simp] lemma Node.id_renumber (σ : Nat → Nat) (node : Node) : (node.renumber σ).id = node.id := rfl

@[simp] lemma Node.isGroup_renumber (σ : Nat → Nat) (node : Node) :
    (node.renumber σ).isGroup = node.isGroup := by
  simp [isGroup, renumber, Array.isEmpty]

namespace Forest

/-- Every node of one forest stands at another position in the other one. -/
structure Renumbers (σ : Nat → Nat) (forest forest' : Forest) : Prop where
  size_eq : forest'.size = forest.size
  node_eq : ∀ i < forest.size, forest'.node (σ i) = (forest.node i).renumber σ
  roots_eq : forest'.roots.toList = forest.roots.toList.map σ

namespace Renumbers

variable {σ : Nat → Nat} {forest forest' : Forest}

lemma down_eq (h : Renumbers σ forest forest') {i : Nat} (hi : i < forest.size) :
    forest'.down (σ i) = (forest.down i).map σ := by
  rw [down, h.node_eq i hi]
  exact Array.toList_map

lemma id_eq (h : Renumbers σ forest forest') {i : Nat} (hi : i < forest.size) :
    (forest'.node (σ i)).id = (forest.node i).id := by
  rw [h.node_eq i hi, Node.id_renumber]

lemma isGroup_eq (h : Renumbers σ forest forest') {i : Nat} (hi : i < forest.size) :
    (forest'.node (σ i)).isGroup = (forest.node i).isGroup := by
  rw [h.node_eq i hi, Node.isGroup_renumber]

/-! ### Groves -/

lemma follows_map (h : Renumbers σ forest forest') {grove : Grove Nat}
    (hfollows : grove.Follows forest.down) (hlt : ∀ i ∈ grove.preorder, i < forest.size) :
    (grove.map σ).Follows forest'.down := by
  induction grove with
  | nil => trivial
  | cons root below rest ihb ihr =>
    obtain ⟨hroots, hfb, hfr⟩ := hfollows
    rw [Grove.preorder_cons, List.forall_mem_cons, List.forall_mem_append] at hlt
    obtain ⟨hroot, hb, hr⟩ := hlt
    refine ⟨?_, ihb hfb hb, ihr hfr hr⟩
    rw [Grove.roots_map, hroots, h.down_eq hroot]

/-- A forest that is renumbered unfolds into the renumbered grove. -/
lemma unfolds_map (h : Renumbers σ forest forest') (hsound : forest.Sound) {grove : Grove Nat}
    (hgrove : forest.Unfolds grove) : forest'.Unfolds (grove.map σ) where
  roots_eq := by rw [Grove.roots_map, hgrove.roots_eq, h.roots_eq]
  follows := h.follows_map hgrove.follows fun i hi => (hsound.mem_preorder_iff hgrove).mp hi

/-! ### Anchors -/

lemma descendFirst_eq (h : Renumbers σ forest forest') (hsound : forest.Sound) (limit : Nat)
    {i : Nat} (hi : i < forest.size) :
    forest'.descendFirst limit (σ i) = σ (forest.descendFirst limit i) := by
  induction limit generalizing i with
  | zero => rfl
  | succ limit ih =>
    have hchildren : (forest'.node (σ i)).children[0]? = (forest.node i).children[0]?.map σ := by
      rw [h.node_eq i hi]
      exact Array.getElem?_map
    rw [descendFirst, descendFirst, hchildren]
    cases hfirst : (forest.node i).children[0]? with
    | none => rfl
    | some child =>
      have hmem : child ∈ forest.down i := Array.mem_toList_iff.mpr (Array.mem_of_getElem? hfirst)
      exact ih (hsound.mem_down_iff.mp hmem).1

/-- Anchors are renumbered like nodes. -/
lemma anchor_eq (h : Renumbers σ forest forest') (hsound : forest.Sound) {i : Nat}
    (hi : i < forest.size) :
    forest'.anchor (σ i) = ⟨σ (forest.anchor i).leaf, (forest.anchor i).cluster.map σ⟩ := by
  cases hgroup : (forest.node i).isGroup with
  | false =>
    have hgroup' : (forest'.node (σ i)).isGroup = false := (h.isGroup_eq hi).trans hgroup
    rw [anchor_of_not_isGroup hgroup, anchor_of_not_isGroup hgroup']
    rfl
  | true =>
    obtain ⟨grove, hgrove⟩ := hsound.exists_unfolds
    obtain ⟨below, hbelow⟩ := hsound.exists_subtree hgrove hi
    obtain ⟨leaf, hmem, hleaf, hanchor⟩ := hsound.anchor_of_isGroup hgrove hbelow hgroup
    have hlt : leaf < forest.size :=
      (hsound.mem_preorder_iff hgrove).mp (Grove.mem_preorder_of_mem_subtrees hbelow hmem)
    have hfirst : forest'.firstLeaf (σ i) = σ leaf := by
      rw [firstLeaf, h.size_eq, h.descendFirst_eq hsound _ hi]
      exact congrArg (fun anchor : Anchor => σ anchor.leaf) hanchor
    -- The leaf stays a leaf and the group stays a group, so they stay apart.
    have hne : σ leaf ≠ σ i := by
      intro heq
      have hsame := h.isGroup_eq hlt
      rw [heq, h.isGroup_eq hi, hgroup, hleaf] at hsame
      cases hsame
    rw [hanchor, anchor, hfirst]
    simp [hne]

end Renumbers

end Forest

namespace Document

open Forest

variable {σ : Nat → Nat} {forest forest' : Forest}

/-! ### Texts -/

lemma attributeLines_renumber (σ : Nat → Nat) (baseUrl : String) (node : Node) (depth : Nat) :
    attributeLines baseUrl (node.renumber σ) depth = attributeLines baseUrl node depth := rfl

lemma render_map (h : Renumbers σ forest forest') (baseUrl : String) (depth : Nat)
    {grove : Grove Nat} (hlt : ∀ i ∈ grove.preorder, i < forest.size) :
    render forest' baseUrl depth (grove.map σ) = render forest baseUrl depth grove := by
  induction grove generalizing depth with
  | nil => rfl
  | cons position below rest ihb ihr =>
    rw [Grove.preorder_cons, List.forall_mem_cons, List.forall_mem_append] at hlt
    obtain ⟨hposition, hb, hr⟩ := hlt
    simp only [Grove.map_cons, render, h.node_eq position hposition, attributeLines_renumber,
      Node.isGroup_renumber, Node.id_renumber, ihb (depth + 1) hb, ihr depth hr]

lemma clipLine_anchor (h : Renumbers σ forest forest') (hsound : forest.Sound) (name : String)
    {i : Nat} (hi : i < forest.size) :
    clipLine forest' name (forest'.anchor (σ i)).cluster =
      clipLine forest name (forest.anchor i).cluster := by
  rw [h.anchor_eq hsound hi]
  cases hcluster : (forest.anchor i).cluster with
  | none => rfl
  | some group =>
    obtain rfl := cluster_anchor hcluster
    simp only [Option.map_some, clipLine, h.id_eq hi]

/-- The text of an edge is the same when both ends are renumbered. -/
lemma edge_map (h : Renumbers σ forest forest') (hsound : forest.Sound) {dependency dependent : Nat}
    (hdependency : dependency < forest.size) (hdependent : dependent < forest.size) :
    edge forest' (σ dependency) (σ dependent) = edge forest dependency dependent := by
  have hleaf : ∀ i < forest.size, (forest'.node (forest'.anchor (σ i)).leaf).id =
      (forest.node (forest.anchor i).leaf).id := by
    intro i hi
    rw [h.anchor_eq hsound hi]
    exact h.id_eq (hsound.firstLeaf_lt hi)
  have hredirected : ∀ i < forest.size,
      (forest'.anchor (σ i)).isRedirected = (forest.anchor i).isRedirected := by
    intro i hi
    rw [h.anchor_eq hsound hi, Anchor.isRedirected, Option.isSome_map, Anchor.isRedirected]
  simp only [edge, hleaf dependency hdependency, hleaf dependent hdependent,
    hredirected dependency hdependency, hredirected dependent hdependent,
    clipLine_anchor h hsound _ hdependency, clipLine_anchor h hsound _ hdependent]

lemma edgeStatements_map (h : Renumbers σ forest forest') (hsound : forest.Sound)
    {grove : Grove Nat} (hlt : ∀ i ∈ grove.preorder, i < forest.size) :
    edgeStatements forest' (grove.map σ) = edgeStatements forest grove := by
  rw [edgeStatements, edgeStatements, Grove.preorder_map, List.flatMap_map]
  refine List.flatMap_congr fun i hi => ?_
  have hdependencies : (forest'.node (σ i)).dependencies.toList =
      (forest.node i).dependencies.toList.map σ := by
    rw [h.node_eq i (hlt i hi)]
    exact Array.toList_map
  rw [hdependencies, List.map_map]
  refine List.map_congr_left fun dependency hdependency => ?_
  exact edge_map h hsound
    (hsound.dependencies_lt i dependency (Array.mem_toList_iff.mp hdependency)) (hlt i hi)

/-- The document of a forest does not show the positions of the nodes. -/
theorem ofForest_renumber (h : Renumbers σ forest forest') (hsound : forest.Sound)
    (hsound' : forest'.Sound) (baseUrl : String) :
    ofForest forest' baseUrl = ofForest forest baseUrl := by
  obtain ⟨grove, hgrove⟩ := hsound.exists_unfolds
  have hlt : ∀ i ∈ grove.preorder, i < forest.size :=
    fun i hi => (hsound.mem_preorder_iff hgrove).mp hi
  rw [ofForest_eq hsound hgrove, ofForest_eq hsound' (h.unfolds_map hsound hgrove),
    render_map h baseUrl 1 hlt, edgeStatements_map h hsound hlt]

end Document

end PlanChart
