import PlanChart.Proofs.Attachment
import PlanChart.Proofs.Reporting

/-!
# The colours of a document

A document has every node in the colours of its category, and each of the two colours that a
category leaves open falls back to a default of its own. Where a category sets what is no colour
literal, there is no document. Then the first node in preorder whose category does so is to blame,
its foreground before its background, and the links have no part in it.
-/

namespace PlanChart

open Dot

/-- The errors for what a node's category sets although it is no colour literal, the foreground
first. -/
def Node.malformedColors (node : Node) : List PlanError :=
  node.category.toList.flatMap fun category =>
    [ColorRole.foreground, ColorRole.background].filterMap fun role =>
      ((category.color? role).filter (¬ Color.IsLiteral ·)).map
        (PlanError.invalidColor category.id role)

/-- A block is in the colours of a node: it is filled with the background of the node's category,
and the text and the outline have the foreground, both in their long forms. The default background
is white, and the default foreground is black. -/
structure Dot.Block.WearsColors (block : Block) (node : Node) : Prop where
  fillcolor : ∃ color, values block.settings "fillcolor" = [.text color] ∧
    Color.IsLongForm ((node.category.bind (·.color? .background)).getD "#ffffff") color
  fontcolor : ∃ color, values block.settings "fontcolor" = [.text color] ∧
    Color.IsLongForm ((node.category.bind (·.color? .foreground)).getD "#000000") color
  color : ∃ color, values block.settings "color" = [.text color] ∧
    Color.IsLongForm ((node.category.bind (·.color? .foreground)).getD "#000000") color

/-! ### Nodes -/

namespace Node

variable {node : Node}

lemma faults_eq_malformedColors (node : Node) : node.faults = node.malformedColors := by
  simp only [faults, fault?_color, malformedColors]
  cases node.category <;> simp

lemma isLongForm_drawnColor {role : ColorRole} (h : ∃ color, node.color role = .ok color) :
    Color.IsLongForm ((node.category.bind (·.color? role)).getD role.defaultColor)
      (node.drawnColor role) := by
  obtain ⟨color, hcolor⟩ := h
  rw [drawnColor_eq hcolor, ← Color.normalize_eq_ok_iff]
  exact normalize_of_color hcolor

end Node

/-! ### Forests -/

namespace Document

variable {forest : Forest}

lemma faults_eq (forest : Forest) (grove : Grove Nat) :
    faults forest grove = grove.preorder.flatMap fun i => (forest.node i).malformedColors := by
  simp only [faults, Node.faults_eq_malformedColors]

/-- Whether there is a document is up to the colours that are set, and not to the base URL. -/
lemma exists_ofForest_eq_error_iff (hsound : forest.Sound) (baseUrl : String) :
    (∃ error, ofForest forest baseUrl = .error error) ↔
      ∃ i < forest.size, ∃ category, (forest.node i).category = some category ∧
        ∃ role literal, category.color? role = some literal ∧ ¬ Color.IsLiteral literal := by
  constructor
  · rintro ⟨error, herror⟩
    obtain ⟨i, hi, role, hcolor⟩ := exists_of_ofForest_eq_error hsound herror
    obtain ⟨category, literal, hcategory, hliteral, hbad, -⟩ := Node.color_eq_error_iff.mp hcolor
    exact ⟨i, hi, category, hcategory, role, literal, hliteral, hbad⟩
  · rintro ⟨i, hi, category, hcategory, role, literal, hliteral, hbad⟩
    obtain ⟨grove, hgrove⟩ := hsound.exists_unfolds
    have hcolor := Node.color_eq_error_iff.mpr ⟨category, literal, hcategory, hliteral, hbad, rfl⟩
    have hfault := (mem_faults_iff hsound hgrove).mpr ⟨i, hi, role, hcolor⟩
    have hfirst := fault?_ofForest hsound hgrove baseUrl
    rw [List.head?_eq_some_head (List.ne_nil_of_mem hfault)] at hfirst
    exact ⟨_, fault?_eq_some_iff.mp hfirst⟩

lemma wearsColors_block (baseUrl : String) {position : Nat}
    (h : ∀ role, ∃ color, (forest.node position).color role = .ok color) :
    (block forest baseUrl position).WearsColors (forest.node position) where
  fillcolor := ⟨_, rfl, Node.isLongForm_drawnColor (h .background)⟩
  fontcolor := ⟨_, rfl, Node.isLongForm_drawnColor (h .foreground)⟩
  color := ⟨_, rfl, Node.isLongForm_drawnColor (h .foreground)⟩

/-- Whether a forest has a document is up to the colours of its categories, and so is the error if
it has none, which is about the first malformed literal in preorder. If it has one, every node is in
the colours of its category. -/
theorem ofForest_colors {issues : List Issue} {directory : Directory}
    {categoryField : Option String} {policy : MissingPolicy}
    (h : Forest.build issues directory categoryField policy = .ok forest) :
    ∃ grove, forest.Unfolds grove ∧ grove.preorder.Perm (List.range forest.size) ∧
      (∀ baseUrl, (∃ error, ofForest forest baseUrl = .error error) ↔
        ∃ i < forest.size, ∃ category, (forest.node i).category = some category ∧
          ∃ role literal, category.color? role = some literal ∧ ¬ Color.IsLiteral literal) ∧
      (∀ baseUrl error, ofForest forest baseUrl = .error error ↔
        (grove.preorder.flatMap fun i => (forest.node i).malformedColors).head? = some error) ∧
      ∀ baseUrl document, ofForest forest baseUrl = .ok document →
        ∃ blocks edges, outline? document = some (blocks, edges) ∧
          List.Forall₂ (fun i block => block.identifier? = some (forest.node i).id ∧
            block.WearsColors (forest.node i)) grove.preorder blocks.preorder := by
  obtain ⟨hbuildable, rfl⟩ := Forest.build_eq_ok_iff.mp h
  have hsound := hbuildable.sound directory categoryField
  obtain ⟨grove, hgrove⟩ := hsound.exists_unfolds
  refine ⟨grove, hgrove, hsound.preorder_perm hgrove, exists_ofForest_eq_error_iff hsound, ?_, ?_⟩
  · intro baseUrl error
    rw [← fault?_eq_some_iff, fault?_ofForest hsound hgrove, faults_eq]
  · intro baseUrl document hdocument
    -- A document is there, so all nodes have colours, and the blocks can be read back.
    have hcolors := (exists_ofForest_iff hsound baseUrl).mp ⟨document, hdocument⟩
    refine ⟨_, _, outline?_ofForest hsound hgrove ?_ hdocument, ?_⟩
    · intro i hi
      rw [Forest.size_ofIssues] at hi
      exact hbuildable.legible directory categoryField hi
    · rw [Grove.preorder_map, List.forall₂_map_right_iff, List.forall₂_same]
      intro i hi
      rw [hsound.mem_preorder_iff hgrove] at hi
      exact ⟨identifier?_block _ baseUrl i, wearsColors_block baseUrl (hcolors i hi)⟩

/-! ### Two examples -/

lemma category_tangledForest : (Forest.tangledForest.node 0).category =
    some { id := "bug", colors := some ⟨some "#1a2", none⟩ } := by
  rw [Forest.tangledForest, Forest.node_ofIssues _ _ _ (by decide)]
  show Forest.tangledDirectory.category? "bug" = _
  rw [Forest.tangledDirectory, Directory.category?_ofLists]
  rfl

/-- Where a category sets only a foreground, the filling is white, and no base URL makes up for a
malformed colour. -/
theorem tangledForest_and_motleyForest_colors :
    (∀ baseUrl, ∃ document blocks edges, ofForest Forest.tangledForest baseUrl = .ok document ∧
      outline? document = some (blocks, edges) ∧ ∃ block ∈ blocks.preorder,
        block.identifier? = some "A_2" ∧ values block.settings "fillcolor" = [.text "#ffffff"] ∧
        values block.settings "fontcolor" = [.text "#11aa22"]) ∧
    ∀ baseUrl, ofForest motleyForest baseUrl = .error (.invalidColor "ruby" .foreground "#12") := by
  constructor
  · intro baseUrl
    obtain ⟨document, hdraw⟩ := exists_draw_iff.mpr (drawable_tangledIssues baseUrl)
    obtain ⟨-, hdocument⟩ := draw_eq_ok_iff.mp hdraw
    obtain ⟨grove, -, hperm, -, -, hshows⟩ := ofForest_colors Forest.build_tangledIssues
    obtain ⟨blocks, edges, houtline, hblocks⟩ := hshows baseUrl document hdocument
    have hmem : 0 ∈ grove.preorder := by
      rw [hperm.mem_iff, Forest.tangledForest, Forest.size_ofIssues]
      decide
    -- Blocks and nodes go in step, so the block at the place of a node is the one of that node.
    obtain ⟨n, hn, hfirst⟩ := List.getElem_of_mem hmem
    obtain ⟨hidentifier, hcolors⟩ := hblocks.get hn (hblocks.length_eq ▸ hn)
    simp only [List.get_eq_getElem, hfirst] at hidentifier hcolors
    obtain ⟨fill, hfill, hlong⟩ := hcolors.fillcolor
    obtain ⟨font, hfont, hlong'⟩ := hcolors.fontcolor
    rw [category_tangledForest, ← Color.normalize_eq_ok_iff] at hlong hlong'
    cases hlong
    cases hlong'
    exact ⟨document, blocks, edges, hdocument, houtline, _, List.getElem_mem _, hidentifier,
      hfill, hfont⟩
  · intro baseUrl
    obtain ⟨grove, hgrove, -, -, hfault, -⟩ := ofForest_colors build_motleyIssues
    have hroot := head?_roots_motleyForest
    rw [← hgrove.roots_eq] at hroot
    rw [hfault]
    cases grove with
    | nil => cases hroot
    | cons root below rest =>
      cases hroot
      have hbad : ¬ Color.IsLiteral "#12" := by decide
      simp [Node.malformedColors, category_motleyForest, Category.color?, hbad, Option.filter]

end Document

end PlanChart
