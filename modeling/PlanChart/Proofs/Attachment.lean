import PlanChart.Proofs.RoundTrip

/-!
# Where the edges of a document are attached

Every edge of a document joins two leaves that the document declares. Where it is about a group, it
names the cluster of the group, and the leaf that it joins stands inside that cluster. This holds of
all dependencies, also of those between a group and what is inside it, and of a node on itself.
-/

namespace PlanChart

open Dot

/-! ### What a document declares -/

namespace Dot

/-- The values that are set for an attribute, in order. -/
def values (settings : List Setting) (name : String) : List Value :=
  (settings.filter (·.name = name)).map Setting.value

/-- Of all blocks, leaves and clusters, a single one has an identifier, and it is a leaf. -/
def DeclaresLeaf (blocks : Grove Block) (identifier : String) : Prop :=
  ∃ settings, blocks.preorder.filter (·.identifier? = some identifier) =
    [⟨.node, identifier, settings⟩]

/-- A single cluster has a name, and the given blocks stand between its braces. A leaf may have the
same name, for the names of clusters are apart from those of nodes. -/
def DeclaresCluster (blocks : Grove Block) (name : String) (inside : Grove Block) : Prop :=
  ∃ settings, blocks.subtrees.filter (fun (block, _) =>
    block.kind = .subgraph ∧ block.name = name) = [(⟨.subgraph, name, settings⟩, inside)]

/-- An end of an edge, given by the leaf that it joins and the clusters that it is clipped at, is
about the node with an identifier, which may be a group. -/
structure Attached (blocks : Grove Block) (leaf : String) (clips : List Value)
    (identifier : String) (isGroup : Prop) : Prop where
  declared : DeclaresLeaf blocks leaf
  plain : ¬ isGroup → leaf = identifier ∧ clips = []
  clipped : isGroup → clips = [.text ("cluster_" ++ identifier)]
  enclosed : ∀ clip ∈ clips, ∃ name inside, clip = .text name ∧
    DeclaresCluster blocks name inside ∧ DeclaresLeaf inside leaf

end Dot

/-- Whether an issue has a child, so that it is drawn as a group. -/
def Issue.IsGroup (issue : Issue) (issues : List Issue) : Prop :=
  ∃ child ∈ issues, child.parentId? = some issue.id

/-- The issues that an issue depends on, in order. -/
def Issue.dependenciesIn (issue : Issue) (issues : List Issue) : List Issue :=
  issue.dependencies.filterMap fun id => issues.find? (·.id = id)

/-- Both ends of an edge are attached as the dependency of one issue on another demands. -/
structure Dot.Edge.Shows (edge : Edge) (blocks : Grove Block) (issues : List Issue)
    (dependency dependent : Issue) : Prop where
  tail : Attached blocks edge.tail (values edge.settings "ltail") dependency.identifier
    (dependency.IsGroup issues)
  head : Attached blocks edge.head (values edge.settings "lhead") dependent.identifier
    (dependent.IsGroup issues)

/-! ### Blocks of a grove -/

lemma filter_eq_singleton {α β : Type} [DecidableEq β] {l : List α} {f : α → β}
    (hnodup : (l.map f).Nodup) {a : α} (ha : a ∈ l) : l.filter (fun b => f b = f a) = [a] := by
  have hfilter : (l.flatMap fun a => [a]).filter (fun b => f b = f a) = [a] :=
    filter_flatMap_eq hnodup (by simp) ha
  rwa [List.flatMap_singleton'] at hfilter

namespace Document

variable {forest : Forest} {grove : Grove Nat}

lemma declaresLeaf_blocks (baseUrl : String)
    (hnodup : (grove.preorder.map fun i => (forest.node i).id).Nodup) {leaf : Nat}
    (hmem : leaf ∈ grove.preorder) (hleaf : (forest.node leaf).isGroup = false) :
    DeclaresLeaf (grove.map (block forest baseUrl)) (forest.node leaf).id := by
  have hblock : block forest baseUrl leaf =
      ⟨.node, (forest.node leaf).id, settings baseUrl (forest.node leaf)⟩ := by
    simp [block, blockName, hleaf]
  have hsame : (fun b : Block => decide (b.identifier? = some (forest.node leaf).id)) ∘
      block forest baseUrl = fun i => decide ((forest.node i).id = (forest.node leaf).id) := by
    funext i
    simp [identifier?_block]
  refine ⟨settings baseUrl (forest.node leaf), ?_⟩
  rw [Grove.preorder_map, List.filter_map, hsame, filter_eq_singleton hnodup hmem,
    List.map_singleton, hblock]

lemma declaresCluster_blocks (baseUrl : String)
    (hnodup : (grove.preorder.map fun i => (forest.node i).id).Nodup) {group : Nat}
    {below : Grove Nat} (hmem : (group, below) ∈ grove.subtrees)
    (hgroup : (forest.node group).isGroup = true) :
    DeclaresCluster (grove.map (block forest baseUrl)) ("cluster_" ++ (forest.node group).id)
      (below.map (block forest baseUrl)) := by
  have hblock : block forest baseUrl group =
      ⟨.subgraph, "cluster_" ++ (forest.node group).id, settings baseUrl (forest.node group)⟩ := by
    simp [block, blockName, hgroup]
  have hnodup' : (grove.subtrees.map fun subtree => (forest.node subtree.1).id).Nodup := by
    rw [← Grove.map_fst_subtrees, List.map_map] at hnodup
    exact hnodup
  have hsame : ∀ subtree ∈ grove.subtrees,
      decide ((block forest baseUrl subtree.1).kind = .subgraph ∧
        (block forest baseUrl subtree.1).name = "cluster_" ++ (forest.node group).id) =
      decide ((forest.node subtree.1).id = (forest.node group).id) := by
    intro subtree hsubtree
    rw [decide_eq_decide]
    cases hkind : (forest.node subtree.1).isGroup with
    | true => simp [block, blockName, hkind]
    | false =>
      -- A leaf has another identifier than the group.
      simp only [block, hkind, Bool.false_eq_true, if_false, reduceCtorEq, false_and, false_iff]
      intro heq
      rw [List.inj_on_of_nodup_map hnodup' hsubtree hmem heq, hgroup] at hkind
      cases hkind
  refine ⟨settings baseUrl (forest.node group), ?_⟩
  rw [Grove.subtrees_map, List.filter_map, ← hblock]
  exact congrArg _ ((List.filter_congr hsame).trans (filter_eq_singleton hnodup' hmem))

/-! ### Edges of a forest -/

/-- The clusters that an end of an edge is clipped at. -/
def clipValues (forest : Forest) (cluster : Option Nat) : List Value :=
  cluster.toList.map fun group => .text ("cluster_" ++ (forest.node group).id)

lemma values_joint (forest : Forest) (dependency dependent : Nat) :
    values (joint forest dependency dependent).settings "ltail" =
        clipValues forest (forest.anchor dependency).cluster ∧
      values (joint forest dependency dependent).settings "lhead" =
        clipValues forest (forest.anchor dependent).cluster := by
  unfold joint
  cases (forest.anchor dependency).cluster <;> cases (forest.anchor dependent).cluster <;>
    simp [values, clip, clipValues]

/-- An edge that starts or ends at a node is attached as it should be. -/
lemma attached_anchor (hsound : forest.Sound) (hgrove : forest.Unfolds grove)
    (hnodup : (identifiers forest).Nodup) {position : Nat} (hposition : position < forest.size)
    (baseUrl : String) :
    Attached (grove.map (block forest baseUrl)) (forest.node (forest.anchor position).leaf).id
      (clipValues forest (forest.anchor position).cluster) (forest.node position).id
      ((forest.node position).isGroup = true) := by
  have hids : (grove.preorder.map fun i => (forest.node i).id).Nodup :=
    ((hsound.preorder_perm hgrove).map _).nodup_iff.mpr hnodup
  -- An issue without children is its own anchor; a group has its anchor somewhere below it.
  cases hgroup : (forest.node position).isGroup with
  | false =>
    have hmem : position ∈ grove.preorder := (hsound.mem_preorder_iff hgrove).mpr hposition
    rw [Forest.anchor_of_not_isGroup hgroup]
    exact {
      declared := declaresLeaf_blocks baseUrl hids hmem hgroup
      plain := fun _ => ⟨rfl, rfl⟩
      clipped := fun h => by cases h
      enclosed := by simp [clipValues] }
  | true =>
    obtain ⟨below, hbelow⟩ := hsound.exists_subtree hgrove hposition
    obtain ⟨leaf, hmem, hleaf, hanchor⟩ := hsound.anchor_of_isGroup hgrove hbelow hgroup
    -- What stands inside the group is a part of the whole, so its identifiers differ as well.
    have hinside := (Grove.preorder_sublist_of_mem_subtrees hbelow).map fun i => (forest.node i).id
    rw [hanchor]
    exact {
      declared := declaresLeaf_blocks baseUrl hids
        (Grove.mem_preorder_of_mem_subtrees hbelow hmem) hleaf
      plain := fun h => absurd rfl h
      clipped := fun _ => rfl
      enclosed := by
        intro clip hclip
        obtain rfl := List.mem_singleton.mp hclip
        exact ⟨_, _, rfl, declaresCluster_blocks baseUrl hids hbelow hgroup,
          declaresLeaf_blocks baseUrl (hids.sublist hinside) hmem hleaf⟩ }

end Document

/-! ### Edges of a plan -/

/-- The issues that an issue depends on are found by the positions of their ids. -/
lemma Issue.dependenciesIn_eq (issue : Issue) (issues : List Issue) :
    issue.dependenciesIn issues =
      (issue.dependencies.filterMap ((Index.ofIds (issues.map Issue.id))[·]?)).map
        (issueAt issues) := by
  simp only [dependenciesIn, find?_id_eq, List.map_filterMap, Index.getElem?_ofIds]

namespace Forest.Buildable

variable {issues : List Issue} {policy : MissingPolicy}

/-- The nodes that the edges of a forest join stand for the issues that depend on each other. -/
lemma map_issueAt_dependencyPairs (h : Buildable issues policy) (directory : Directory)
    (categoryField : Option String) {grove : Grove Nat}
    (hgrove : (ofIssues issues directory categoryField).Unfolds grove) :
    (Document.dependencyPairs (ofIssues issues directory categoryField) grove).map
        (fun pair => (issueAt issues pair.1, issueAt issues pair.2)) =
      (grove.preorder.map (issueAt issues)).flatMap fun dependent =>
        (dependent.dependenciesIn issues).map (·, dependent) := by
  have hsound := h.sound directory categoryField
  rw [Document.dependencyPairs, List.map_flatMap, List.flatMap_map]
  refine List.flatMap_congr fun i hi => ?_
  rw [hsound.mem_preorder_iff hgrove, size_ofIssues] at hi
  rw [node_ofIssues _ _ _ hi, issueAt_eq hi, Issue.dependenciesIn_eq, List.map_map, List.map_map]
  refine List.map_congr_left fun d _ => ?_
  simp [issueAt_eq hi]

/-- The edge from one node to another is attached as the dependency between their issues demands. -/
lemma shows_joint (h : Buildable issues policy) (directory : Directory)
    (categoryField : Option String) {grove : Grove Nat}
    (hgrove : (ofIssues issues directory categoryField).Unfolds grove) (baseUrl : String)
    {dependency dependent : Nat} (hdependency : dependency < issues.length)
    (hdependent : dependent < issues.length) :
    (Document.joint (ofIssues issues directory categoryField) dependency dependent).Shows
      (grove.map (Document.block (ofIssues issues directory categoryField) baseUrl)) issues
      (issueAt issues dependency) (issueAt issues dependent) := by
  have hnodup : (Document.identifiers (ofIssues issues directory categoryField)).Nodup := by
    rw [identifiers_ofIssues]
    exact h.identifiers_nodup
  have hattached : ∀ i < issues.length, Attached
      (grove.map (Document.block (ofIssues issues directory categoryField) baseUrl))
      ((ofIssues issues directory categoryField).node
        ((ofIssues issues directory categoryField).anchor i).leaf).id
      (Document.clipValues (ofIssues issues directory categoryField)
        ((ofIssues issues directory categoryField).anchor i).cluster)
      (issueAt issues i).identifier ((issueAt issues i).IsGroup issues) := by
    intro i hi
    have hanchor := Document.attached_anchor (h.sound directory categoryField) hgrove hnodup
      (by rwa [size_ofIssues] : i < _) baseUrl
    rwa [id_node_ofIssues _ _ _ hi, h.isGroup_iff _ _ hi, ← issueAt_eq hi] at hanchor
  obtain ⟨htail, hhead⟩ := Document.values_joint
    (ofIssues issues directory categoryField) dependency dependent
  constructor
  · rw [htail]
    exact hattached dependency hdependency
  · rw [hhead]
    exact hattached dependent hdependent

variable {directory : Directory} {categoryField : Option String} {grove : Grove Nat}

lemma lt_length_of_mem_preorder (h : Buildable issues policy)
    (hgrove : (ofIssues issues directory categoryField).Unfolds grove) {i : Nat}
    (hi : i ∈ grove.preorder) : i < issues.length := by
  rwa [(h.sound directory categoryField).mem_preorder_iff hgrove, size_ofIssues] at hi

/-- The issues in the order in which the document declares them. -/
lemma map_issueAt_preorder_perm (h : Buildable issues policy)
    (hgrove : (ofIssues issues directory categoryField).Unfolds grove) :
    (grove.preorder.map (issueAt issues)).Perm issues := by
  have hperm := ((h.sound directory categoryField).preorder_perm hgrove).map (issueAt issues)
  rwa [size_ofIssues, map_issueAt_range] at hperm

end Forest.Buildable

/-- The outline of the document of a plan. -/
lemma outline?_of_draw {issues : List Issue} {directory : Directory} {options : DrawOptions}
    {document : String} (h : draw issues directory options = .ok document) :
    ∃ grove, (Forest.ofIssues issues directory options.categoryField).Unfolds grove ∧
      outline? document = some
        (grove.map (Document.block (Forest.ofIssues issues directory options.categoryField)
          options.baseUrl),
        (Document.dependencyPairs (Forest.ofIssues issues directory options.categoryField)
          grove).map fun pair => Document.joint
            (Forest.ofIssues issues directory options.categoryField) pair.1 pair.2) := by
  obtain ⟨hbuildable, hdocument⟩ := draw_eq_ok_iff.mp h
  have hsound := hbuildable.sound directory options.categoryField
  obtain ⟨grove, hgrove⟩ := hsound.exists_unfolds
  refine ⟨grove, hgrove, Document.outline?_ofForest hsound hgrove (fun i hi => ?_) hdocument⟩
  rw [Forest.size_ofIssues] at hi
  exact hbuildable.legible directory options.categoryField hi

/-- What holds for every issue and the block of its node holds for every issue and the block that is
read in the document. -/
lemma exists_blocks_of_draw {issues : List Issue} {directory : Directory} {options : DrawOptions}
    {document : String} (h : draw issues directory options = .ok document)
    {R : Issue → Block → Prop}
    (hblock : ∀ (i : Nat) (hi : i < issues.length), R issues[i] (Document.block
      (Forest.ofIssues issues directory options.categoryField) options.baseUrl i)) :
    ∃ order blocks edges, outline? document = some (blocks, edges) ∧ order.Perm issues ∧
      List.Forall₂ (fun issue block => block.identifier? = some issue.identifier ∧ R issue block)
        order blocks.preorder := by
  obtain ⟨hbuildable, -⟩ := draw_eq_ok_iff.mp h
  obtain ⟨grove, hgrove, houtline⟩ := outline?_of_draw h
  refine ⟨grove.preorder.map (issueAt issues), _, _, houtline,
    hbuildable.map_issueAt_preorder_perm hgrove, ?_⟩
  rw [Grove.preorder_map, List.forall₂_map_left_iff, List.forall₂_map_right_iff, List.forall₂_same]
  intro i hi
  have hlt := hbuildable.lt_length_of_mem_preorder hgrove hi
  have hR := hblock i hlt
  rw [← issueAt_eq hlt] at hR
  exact ⟨by rw [Document.identifier?_block, Forest.id_node_ofIssues _ _ _ hlt], hR⟩

/-- The edges of a document are those of the dependencies of the plan, issue by issue in the order
in which the document declares them, and each is attached to leaves and clusters that the document
declares. -/
theorem draw_edges_attached {issues : List Issue} {directory : Directory} {options : DrawOptions}
    {document : String} (h : draw issues directory options = .ok document) :
    ∃ (blocks : Grove Block) (edges : List Edge) (order : List Issue),
      outline? document = some (blocks, edges) ∧ order.Perm issues ∧
      blocks.preorder.map Block.identifier? = order.map (fun issue => some issue.identifier) ∧
      List.Forall₂ (fun edge (dependency, dependent) =>
          edge.Shows blocks issues dependency dependent) edges
        (order.flatMap fun dependent => (dependent.dependenciesIn issues).map (·, dependent)) := by
  obtain ⟨hbuildable, -⟩ := draw_eq_ok_iff.mp h
  have hsound := hbuildable.sound directory options.categoryField
  obtain ⟨grove, hgrove, houtline⟩ := outline?_of_draw h
  refine ⟨_, _, grove.preorder.map (issueAt issues), houtline,
    hbuildable.map_issueAt_preorder_perm hgrove, ?_, ?_⟩
  · rw [Grove.preorder_map, List.map_map, List.map_map]
    refine List.map_congr_left fun i hi => ?_
    rw [Function.comp_apply, Document.identifier?_block,
      Forest.id_node_ofIssues _ _ _ (hbuildable.lt_length_of_mem_preorder hgrove hi)]
    rfl
  · -- The edges and the pairs of issues both come from the same pairs of positions.
    rw [← hbuildable.map_issueAt_dependencyPairs directory options.categoryField hgrove,
      List.forall₂_map_left_iff, List.forall₂_map_right_iff, List.forall₂_same]
    intro pair hpair
    obtain ⟨hdependency, hdependent⟩ := Document.lt_of_mem_dependencyPairs hsound hgrove pair hpair
    rw [Forest.size_ofIssues] at hdependency hdependent
    exact hbuildable.shows_joint directory options.categoryField hgrove options.baseUrl
      hdependency hdependent

/-- A group that depends on itself has an edge between leaves inside it, clipped at both ends. -/
theorem draw_tangledIssues_edges_attached :
    ∃ (document : String) (blocks : Grove Block) (edges : List Edge),
      draw Forest.tangledIssues Forest.tangledDirectory { missingDependencies := .drop } =
          .ok document ∧
        outline? document = some (blocks, edges) ∧ edges.length = 4 ∧
        ∃ edge ∈ edges, edge.Shows blocks Forest.tangledIssues Forest.tangledIssues[1]
            Forest.tangledIssues[1] ∧
          values edge.settings "ltail" = [.text "cluster_A_1"] ∧
          values edge.settings "lhead" = [.text "cluster_A_1"] := by
  obtain ⟨document, hdocument⟩ := exists_draw_iff.mpr (drawable_tangledIssues "")
  obtain ⟨blocks, edges, order, houtline, hperm, -, hedges⟩ := draw_edges_attached hdocument
  refine ⟨document, blocks, edges, hdocument, houtline, ?_, ?_⟩
  · rw [hedges.length_eq, (hperm.flatMap_right _).length_eq]
    rfl
  · -- The second issue depends on itself, and it is a group.
    have hself : (Forest.tangledIssues[1], Forest.tangledIssues[1]) ∈
        order.flatMap fun dependent =>
          (dependent.dependenciesIn Forest.tangledIssues).map (·, dependent) := by
      refine List.mem_flatMap.mpr ⟨Forest.tangledIssues[1], hperm.mem_iff.mpr (by simp), ?_⟩
      refine List.mem_map_of_mem (List.mem_filterMap.mpr ⟨"A-1", ?_, rfl⟩)
      decide
    have hgroup : Forest.tangledIssues[1].IsGroup Forest.tangledIssues :=
      ⟨Forest.tangledIssues[0], by simp, rfl⟩
    obtain ⟨n, hn, hpair⟩ := List.getElem_of_mem hself
    have hshows := hedges.get (hedges.length_eq ▸ hn) hn
    simp only [List.get_eq_getElem, hpair] at hshows
    have hclip : "cluster_" ++ Forest.tangledIssues[1].identifier = "cluster_A_1" := by
      decide +kernel
    exact ⟨_, List.getElem_mem _, hshows, hclip ▸ hshows.tail.clipped hgroup,
      hclip ▸ hshows.head.clipped hgroup⟩

end PlanChart
