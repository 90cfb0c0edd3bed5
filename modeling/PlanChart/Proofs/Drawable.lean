import PlanChart.Proofs.ColorLiteral
import PlanChart.Proofs.Definitions
import PlanChart.Proofs.Rendering

/-!
# When a plan can be drawn

Building the forest and writing the document are the two places where drawing can fail. The first
depends on the issues alone. The second fails at malformed colours, and since every node is written,
it fails just when one of the issues is drawn in such a colour.
-/

namespace PlanChart

/-- The category in whose colours an issue is drawn, if the directory knows it. -/
def Issue.drawnCategory? (issue : Issue) (directory : Directory) (categoryField : Option String) :
    Option Category :=
  (issue.categoryId? categoryField).bind directory.category?

/-- Every colour that a category sets is well-formed. -/
def Category.WellColored (category : Category) : Prop :=
  ∀ role literal, category.color? role = some literal →
    ∃ color, Color.normalize literal = .ok color

/-- What is needed for a list of issues to have a document. -/
structure Drawable (issues : List Issue) (directory : Directory) (options : DrawOptions) :
    Prop where
  buildable : Forest.Buildable issues options.missingDependencies
  wellColored : ∀ issue ∈ issues, ∀ category,
    issue.drawnCategory? directory options.categoryField = some category → category.WellColored

/-! ### The first fault -/

section

variable {ε α β : Type}

/-- What a computation fails with, if it does. -/
def fault? : Except ε α → Option ε
  | .ok _ => none
  | .error error => some error

lemma fault?_eq_some_iff {x : Except ε α} {error : ε} : fault? x = some error ↔ x = .error error := by
  cases x <;> simp [fault?]

lemma fault?_eq_none_iff {x : Except ε α} : fault? x = none ↔ ∃ a, x = .ok a := by
  cases x <;> simp [fault?]

lemma fault?_map (x : Except ε α) (f : α → β) : fault? (x.map f) = fault? x := by
  cases x <;> rfl

/-- Of two steps, the second of which fails in the same way whatever the first one yields, the first
fault counts. -/
lemma fault?_bind {x : Except ε α} {next : α → Except ε β} (fault : Option ε)
    (h : ∀ a, fault? (next a) = fault) : fault? (x >>= next) = (fault? x).or fault := by
  cases x with
  | ok a => exact h a
  | error error => rfl

end

/-! ### Colours of a node -/

lemma normalize_defaultColor (role : ColorRole) :
    Color.normalize role.defaultColor = .ok role.defaultColor := by
  cases role <;> rfl

lemma Node.normalize_of_color {node : Node} {role : ColorRole} {color : String}
    (h : node.color role = .ok color) :
    Color.normalize ((node.category.bind (·.color? role)).getD role.defaultColor) = .ok color := by
  unfold Node.color at h
  dsimp only at h
  split at h
  · rename_i hnormal
    cases h
    exact hnormal
  · cases h

/-- A node fails with a malformed colour that its category sets, and with nothing else. -/
lemma Node.fault?_color (node : Node) (role : ColorRole) :
    fault? (node.color role) = node.category.bind fun category =>
      ((category.color? role).filter (¬ Color.IsLiteral ·)).map
        (PlanError.invalidColor category.id role) := by
  rw [color]
  cases hcategory : node.category with
  | none => simp [normalize_defaultColor, fault?]
  | some category =>
    cases hliteral : category.color? role with
    | none => simp [hliteral, normalize_defaultColor, fault?]
    | some literal =>
      by_cases h : Color.IsLiteral literal
      · obtain ⟨color, hnormal⟩ := Color.exists_normalize_iff.mpr h
        simp [hliteral, hnormal, h, fault?, Option.filter]
      · simp [hliteral, Color.normalize_of_not_isLiteral h, h, fault?, Option.filter]

lemma Node.color_eq_error_iff {node : Node} {role : ColorRole} {error : PlanError} :
    node.color role = .error error ↔ ∃ category literal, node.category = some category ∧
      category.color? role = some literal ∧ ¬ Color.IsLiteral literal ∧
      .invalidColor category.id role literal = error := by
  rw [← fault?_eq_some_iff, fault?_color]
  simp [Option.bind_eq_some_iff, and_assoc]

lemma Node.exists_color_iff (node : Node) (role : ColorRole) :
    (∃ color, node.color role = .ok color) ↔
      ∀ category, node.category = some category → ∀ literal,
        category.color? role = some literal → ∃ color, Color.normalize literal = .ok color := by
  simp only [Color.exists_normalize_iff]
  rw [← fault?_eq_none_iff, fault?_color]
  simp

/-- The faults of a node's colours, the foreground first. -/
def Node.faults (node : Node) : List PlanError :=
  [ColorRole.foreground, ColorRole.background].filterMap fun role => fault? (node.color role)

lemma Node.mem_faults_iff {node : Node} {error : PlanError} :
    error ∈ node.faults ↔ ∃ role, node.color role = .error error := by
  simp only [faults, List.mem_filterMap, fault?_eq_some_iff]
  constructor
  · rintro ⟨role, -, h⟩
    exact ⟨role, h⟩
  · rintro ⟨role, h⟩
    refine ⟨role, ?_, h⟩
    cases role <;> simp

namespace Document

/-- The faults of the colours in a forest, in the order in which the nodes are written. -/
def faults (forest : Forest) (grove : Grove Nat) : List PlanError :=
  grove.preorder.flatMap fun i => (forest.node i).faults

lemma faults_cons (forest : Forest) (position : Nat) (below rest : Grove Nat) :
    faults forest (.cons position below rest) =
      (forest.node position).faults ++ (faults forest below ++ faults forest rest) := by
  simp [faults]

lemma fault?_attributeLines (baseUrl : String) (node : Node) (depth : Nat) :
    fault? (attributeLines baseUrl node depth) = node.faults.head? := by
  rw [attributeLines, fault?_bind (fault? (node.color .background)), Node.faults]
  · cases hforeground : fault? (node.color .foreground) <;>
      cases hbackground : fault? (node.color .background) <;> simp [hforeground, hbackground]
  · intro foreground
    exact (fault?_bind none fun _ => rfl).trans Option.or_none

/-- A text fails with the first fault of its nodes. -/
lemma fault?_render (forest : Forest) (baseUrl : String) (depth : Nat) (grove : Grove Nat) :
    fault? (render forest baseUrl depth grove) = (faults forest grove).head? := by
  induction grove generalizing depth with
  | nil => rfl
  | cons position below rest ihb ihr =>
    rw [render, faults_cons, List.head?_append, List.head?_append, ← ihb (depth + 1), ← ihr depth,
      ← fault?_attributeLines baseUrl (forest.node position) (depth + 1)]
    apply fault?_bind
    intro attributes
    apply fault?_bind
    intro inner
    exact (fault?_bind none fun _ => rfl).trans Option.or_none

/-- The document of a forest fails with the first fault of the nodes, whatever the links are. -/
lemma fault?_ofForest {forest : Forest} (hsound : forest.Sound) {grove : Grove Nat}
    (hgrove : forest.Unfolds grove) (baseUrl : String) :
    fault? (ofForest forest baseUrl) = (faults forest grove).head? := by
  rw [ofForest_eq hsound hgrove, fault?_map, fault?_render]

lemma mem_faults_iff {forest : Forest} (hsound : forest.Sound) {grove : Grove Nat}
    (hgrove : forest.Unfolds grove) {error : PlanError} :
    error ∈ faults forest grove ↔
      ∃ i < forest.size, ∃ role, (forest.node i).color role = .error error := by
  simp only [faults, List.mem_flatMap, hsound.mem_preorder_iff hgrove, Node.mem_faults_iff]

lemma exists_ofForest_iff {forest : Forest} (hsound : forest.Sound) (baseUrl : String) :
    (∃ document, ofForest forest baseUrl = .ok document) ↔
      ∀ i < forest.size, ∀ role, ∃ color, (forest.node i).color role = .ok color := by
  obtain ⟨grove, hgrove⟩ := hsound.exists_unfolds
  rw [← fault?_eq_none_iff, fault?_ofForest hsound hgrove, List.head?_eq_none_iff,
    List.eq_nil_iff_forall_not_mem]
  simp only [mem_faults_iff hsound hgrove]
  constructor
  · intro h i hi role
    cases hcolor : (forest.node i).color role with
    | ok color => exact ⟨color, rfl⟩
    | error error => exact absurd ⟨i, hi, role, hcolor⟩ (h error)
  · rintro h error ⟨i, hi, role, hcolor⟩
    obtain ⟨color, hok⟩ := h i hi role
    rw [hok] at hcolor
    cases hcolor

end Document

/-! ### Documents -/

lemma draw_eq_ok_iff {issues : List Issue} {directory : Directory} {options : DrawOptions}
    {document : String} :
    draw issues directory options = .ok document ↔
      Forest.Buildable issues options.missingDependencies ∧
        Document.ofForest (Forest.ofIssues issues directory options.categoryField)
          options.baseUrl = .ok document := by
  rw [draw, bind_eq_ok_iff]
  constructor
  · rintro ⟨forest, hforest, hdocument⟩
    obtain ⟨hbuildable, rfl⟩ := Forest.build_eq_ok_iff.mp hforest
    exact ⟨hbuildable, hdocument⟩
  · rintro ⟨hbuildable, hdocument⟩
    exact ⟨_, Forest.build_eq_ok_iff.mpr ⟨hbuildable, rfl⟩, hdocument⟩

/-- A list of issues has a document just when it satisfies the conditions for it. -/
theorem exists_draw_iff {issues : List Issue} {directory : Directory} {options : DrawOptions} :
    (∃ document, draw issues directory options = .ok document) ↔
      Drawable issues directory options := by
  -- Once the forest is built, only a color can fail; nodes and issues share their positions.
  have hcolors (hbuildable : Forest.Buildable issues options.missingDependencies) :
      (∃ document, Document.ofForest (Forest.ofIssues issues directory options.categoryField)
        options.baseUrl = .ok document) ↔
      ∀ issue ∈ issues, ∀ category,
        issue.drawnCategory? directory options.categoryField = some category →
          category.WellColored := by
    rw [Document.exists_ofForest_iff (hbuildable.sound _ _)]
    simp only [Forest.size_ofIssues, Node.exists_color_iff]
    constructor
    · intro h issue hissue category hcategory role literal hliteral
      obtain ⟨i, hi, rfl⟩ := List.getElem_of_mem hissue
      refine h i hi role category ?_ literal hliteral
      rw [Forest.node_ofIssues _ _ _ hi]
      exact hcategory
    · intro h i hi role category hcategory literal hliteral
      rw [Forest.node_ofIssues _ _ _ hi] at hcategory
      exact h issues[i] (List.getElem_mem hi) category hcategory role literal hliteral
  simp only [draw_eq_ok_iff]
  constructor
  · rintro ⟨document, hbuildable, hdocument⟩
    exact ⟨hbuildable, (hcolors hbuildable).mp ⟨document, hdocument⟩⟩
  · rintro ⟨hbuildable, hwellColored⟩
    obtain ⟨document, hdocument⟩ := (hcolors hbuildable).mpr hwellColored
    exact ⟨document, hbuildable, hdocument⟩

/-! ### An example -/

lemma drawable_tangledIssues (baseUrl : String) :
    Drawable Forest.tangledIssues Forest.tangledDirectory
      { baseUrl := baseUrl, missingDependencies := .drop } where
  buildable := Forest.buildable_tangledIssues
  wellColored := by
    intro issue _ category hcategory role literal hliteral
    obtain ⟨id, -, hfound⟩ := Option.bind_eq_some_iff.mp hcategory
    rw [Forest.tangledDirectory, Directory.category?_ofLists] at hfound
    obtain rfl := List.mem_singleton.mp (List.mem_of_find?_eq_some hfound)
    cases role with
    | foreground =>
      cases hliteral
      exact ⟨"#11aa22", by decide⟩
    | background => cases hliteral

end PlanChart
