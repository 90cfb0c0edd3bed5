import PlanChart.Proofs.Drawable
import PlanChart.Proofs.Foretelling

/-!
# Checking agrees with drawing

A check collects findings from tables of its own and goes on where drawing stops. Its errors are
nevertheless the failures of drawing: there is an error among them just when drawing fails.
-/

namespace PlanChart

/-! ### Directories -/

/-- The directories that can be made by defining users and categories one after the other. -/
inductive Directory.Built : Directory → Prop where
  | empty : Built .empty
  | insertUser {directory : Directory} (h : Built directory) (user : User) :
      Built (directory.insertUser user)
  | insertCategory {directory : Directory} (h : Built directory) (category : Category) :
      Built (directory.insertCategory category)

namespace Directory

lemma built_ofLists (users : List User) (categories : List Category) :
    Built (ofLists users categories) := by
  have husers : ∀ directory, Built directory → Built (users.foldl insertUser directory) := by
    induction users with
    | nil => exact fun directory h => h
    | cons user users ih => exact fun directory h => ih _ (h.insertUser user)
  have hcategories : ∀ directory, Built directory →
      Built (categories.foldl insertCategory directory) := by
    induction categories with
    | nil => exact fun directory h => h
    | cons category categories ih => exact fun directory h => ih _ (h.insertCategory category)
  exact hcategories _ (husers _ .empty)

/-- A category is found under its own id. -/
lemma Built.id_eq {directory : Directory} (h : Built directory) {id : String} {category : Category}
    (hcategory : directory.category? id = some category) : category.id = id := by
  induction h with
  | empty => simp at hcategory
  | insertUser _ user ih => exact ih hcategory
  | insertCategory _ new ih =>
    rw [category?_insertCategory] at hcategory
    split at hcategory
    · rename_i heq
      cases hcategory
      exact heq
    · exact ih hcategory

end Directory

namespace Check

lemma hasError_malformedColor_iff (used : Std.HashSet String) (category : Category)
    (role : ColorRole) :
    HasError (malformedColor used category role) ↔
      category.id ∈ used ∧ ∃ literal, category.color? role = some literal ∧
        ¬ ∃ color, Color.normalize literal = .ok color := by
  unfold malformedColor
  cases hliteral : category.color? role with
  | none => simp
  | some literal =>
    cases hnormal : Color.normalize literal with
    | ok color => simp [hnormal]
    | error malformed =>
      by_cases hused : category.id ∈ used
      · simp [hused, hnormal]
      · simp [hused, hnormal, Diagnostic.ofHarmless]

lemma hasError_malformedColors_iff (used : Std.HashSet String) (category : Category) :
    HasError (malformedColors used category) ↔ category.id ∈ used ∧ ¬ category.WellColored := by
  rw [malformedColors, hasError_append, hasError_malformedColor_iff, hasError_malformedColor_iff,
    Category.WellColored]
  constructor
  · rintro (⟨hused, literal, hliteral, hbad⟩ | ⟨hused, literal, hliteral, hbad⟩)
    · exact ⟨hused, fun h => hbad (h .foreground literal hliteral)⟩
    · exact ⟨hused, fun h => hbad (h .background literal hliteral)⟩
  · rintro ⟨hused, hbad⟩
    push Not at hbad
    obtain ⟨role, literal, hliteral, hbad⟩ := hbad
    cases role with
    | foreground =>
      exact Or.inl ⟨hused, literal, hliteral, fun ⟨color, hcolor⟩ => hbad color hcolor⟩
    | background =>
      exact Or.inr ⟨hused, literal, hliteral, fun ⟨color, hcolor⟩ => hbad color hcolor⟩

/-- The errors among the findings on colours are the malformed colours that an issue is drawn in,
provided that the directory has every category under its own id. -/
lemma hasError_colors_iff {directory : Directory} (hbuilt : directory.Built)
    (categoryField : Option String) (issues : List Issue) :
    HasError (directory.categoryList.flatMap
        (malformedColors (usedCategories categoryField issues))) ↔
      ¬ ∀ issue ∈ issues, ∀ category,
        issue.drawnCategory? directory categoryField = some category → category.WellColored := by
  have hused : ∀ id, id ∈ usedCategories categoryField issues ↔
      ∃ issue ∈ issues, issue.categoryId? categoryField = some id := by
    simp [usedCategories, Std.HashSet.mem_ofList]
  simp only [hasError_flatMap, Directory.mem_categoryList_iff, hasError_malformedColors_iff, hused]
  constructor
  · rintro ⟨category, ⟨id, hid⟩, ⟨issue, hissue, hcategory⟩, hbad⟩ h
    -- The directory may be asked for a category by its own id only if that is where it stands.
    obtain rfl : category.id = id := hbuilt.id_eq hid
    exact hbad (h issue hissue category (by rw [Issue.drawnCategory?, hcategory]; exact hid))
  · intro h
    push Not at h
    obtain ⟨issue, hissue, category, hcategory, hbad⟩ := h
    obtain ⟨id, hid, hfound⟩ := Option.bind_eq_some_iff.mp hcategory
    refine ⟨category, ⟨id, hfound⟩, ⟨issue, hissue, ?_⟩, hbad⟩
    rw [hbuilt.id_eq hfound]
    exact hid

lemma hasError_parentCycle_iff (issues : List Issue) (cycles : List (List Nat)) :
    HasError (cycles.map (parentCycle issues)) ↔ cycles ≠ [] := by
  cases cycles <;> simp [parentCycle]

lemma not_hasError_dependencyCycle (cycles : List (List String)) :
    ¬ HasError (cycles.map dependencyCycle) := by
  simp [hasError_map, dependencyCycle]

/-- The errors that do not depend on colours are those that stop the building of the forest. -/
lemma hasError_structure_iff (issues : List Issue) (policy : MissingPolicy) :
    (HasError (duplicates ∅ issues) ∨ HasError (identifiers ∅ issues) ∨
      parentCycles (parentTable issues) ≠ [] ∨
      HasError ((DependencyGraph.ofIssues issues).unresolved.map
        fun (item, dependency) => unresolved policy item dependency)) ↔
      ¬ Forest.Buildable issues policy := by
  rw [← hasError_structural_iff, structural, map_unresolved]
  simp [hasError_flatMap issues, hasError_parentCycle_iff, not_hasError_unknownParent]

/-- A check reports an error just when the plan cannot be drawn. -/
lemma hasErrors_iff_not_drawable (issues : List Issue) {directory : Directory}
    (hbuilt : directory.Built) (options : DrawOptions) :
    (check issues directory options.categoryField options.missingDependencies).hasErrors = true ↔
      ¬ Drawable issues directory options := by
  have hdrawable : ¬ Drawable issues directory options ↔
      ¬ Forest.Buildable issues options.missingDependencies ∨
        ¬ ∀ issue ∈ issues, ∀ category,
          issue.drawnCategory? directory options.categoryField = some category →
            category.WellColored := by
    rw [← not_and_or]
    exact not_congr ⟨fun h => ⟨h.buildable, h.wellColored⟩, fun h => ⟨h.1, h.2⟩⟩
  rw [hdrawable, ← hasError_structure_iff, ← hasError_colors_iff hbuilt, Report.hasErrors_iff,
    check]
  simp only [hasError_append, hasError_flatMap issues, hasError_parentCycle_iff,
    not_hasError_unknownParent, not_hasError_dependencyCycle, not_hasError_unknownAssignee,
    not_hasError_unknownCategory, and_false, exists_false, or_false, or_assoc, parentTable]

end Check

lemma exists_draw_error_iff {issues : List Issue} {directory : Directory} {options : DrawOptions} :
    (∃ error, draw issues directory options = .error error) ↔
      ¬ Drawable issues directory options := by
  rw [← exists_draw_iff]
  cases draw issues directory options <;> simp

/-- A check reports an error just when drawing the same plan in the same way fails. -/
theorem check_hasErrors_iff_draw_fails (issues : List Issue) {directory : Directory}
    (hbuilt : directory.Built) (options : DrawOptions) :
    (check issues directory options.categoryField options.missingDependencies).hasErrors = true ↔
      ∃ error, draw issues directory options = .error error := by
  rw [exists_draw_error_iff]
  exact Check.hasErrors_iff_not_drawable issues hbuilt options

theorem check_tangledIssues_hasErrors :
    Forest.tangledDirectory.Built ∧
      (check Forest.tangledIssues Forest.tangledDirectory none .drop).hasErrors = false ∧
      (check Forest.tangledIssues Forest.tangledDirectory none .reject).hasErrors = true := by
  have hbuilt : Forest.tangledDirectory.Built := Directory.built_ofLists _ _
  refine ⟨hbuilt, ?_, ?_⟩
  · rw [← Bool.not_eq_true, check_hasErrors_iff_draw_fails Forest.tangledIssues hbuilt
      { missingDependencies := .drop }]
    obtain ⟨document, hdocument⟩ := exists_draw_iff.mpr (drawable_tangledIssues "")
    simp [hdocument]
  · rw [check_hasErrors_iff_draw_fails Forest.tangledIssues hbuilt
      { missingDependencies := .reject }]
    cases hdraw : draw Forest.tangledIssues Forest.tangledDirectory
        { missingDependencies := .reject } with
    | error error => exact ⟨error, rfl⟩
    | ok document =>
      have hknown := (exists_draw_iff.mp ⟨document, hdraw⟩).buildable.known rfl
      exact absurd hknown (by decide)

end PlanChart
