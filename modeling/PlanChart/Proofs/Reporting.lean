import PlanChart.Proofs.Checking
import PlanChart.Proofs.Findings

/-!
# What drawing fails with is reported

Drawing gives up at the first fault that it meets, in the order of its passes. A check lists its
findings in the same order and goes on behind every fault, so the first error that it reports is the
fault that drawing fails with. Malformed colours are the exception: drawing meets them in the order
of the nodes, and a check lists them in the order of the categories.
-/

namespace PlanChart

/-! ### The first error -/

/-- The first error of a report. -/
def Report.firstError? (report : Report) : Option Diagnostic :=
  PlanChart.firstError? report.diagnostics

namespace Check

/-- The findings behind the structural ones that are not about colours either. -/
def advisory (issues : List Issue) (directory : Directory) (categoryField : Option String) :
    List Diagnostic :=
  (DependencyGraph.ofIssues issues).cycles.map dependencyCycle ++
  issues.flatMap fun issue =>
    unknownAssignee directory issue ++ unknownCategory directory categoryField issue

/-- The findings on colours. -/
def colors (issues : List Issue) (directory : Directory) (categoryField : Option String) :
    List Diagnostic :=
  directory.categoryList.flatMap (malformedColors (usedCategories categoryField issues))

lemma diagnostics_eq_append (issues : List Issue) (directory : Directory)
    (categoryField : Option String) (policy : MissingPolicy) :
    (check issues directory categoryField policy).diagnostics =
      structural issues policy ++
        (advisory issues directory categoryField ++ colors issues directory categoryField) := by
  simp [diagnostics_eq, lists, structural, advisory, colors]

lemma hasCodes_structural (issues : List Issue) (policy : MissingPolicy) :
    HasCodes ["DUPLICATE_ITEM", "IDENTIFIER_COLLISION", "RESERVED_IDENTIFIER", "UNKNOWN_PARENT",
      "PARENT_CYCLE", "UNRESOLVED_DEPENDENCY"] (structural issues policy) := by
  simp only [structural, hasCodes_append]
  exact ⟨(hasCodes_duplicates _ _).mono (by simp), (hasCodes_identifiers _ _).mono (by simp),
    (hasCodes_flatMap (hasCodes_unknownParent _)).mono (by simp),
    hasCodes_map fun _ => by simp [code_parentCycle],
    hasCodes_flatMap fun _ => hasCodes_map fun _ => by simp [code_unresolved]⟩

lemma not_hasError_advisory (issues : List Issue) (directory : Directory)
    (categoryField : Option String) : ¬ HasError (advisory issues directory categoryField) := by
  simp [advisory, hasError_flatMap, not_hasError_dependencyCycle, not_hasError_unknownAssignee,
    not_hasError_unknownCategory]

end Check

namespace Forest

/-- Building a forest does not look at colours. -/
lemma code_ne_of_build_eq_error {issues : List Issue} {directory : Directory}
    {categoryField : Option String} {policy : MissingPolicy} {error : PlanError}
    (h : build issues directory categoryField policy = .error error) :
    error.code ≠ "INVALID_COLOR" := by
  have hforetells := foretells_build issues directory categoryField policy
  rw [h] at hforetells
  obtain ⟨item, hfirst⟩ := hforetells
  have hcode := Check.hasCodes_structural issues policy _ (List.mem_of_find?_eq_some hfirst)
  intro heq
  simp [Diagnostic.ofError, heq] at hcode

end Forest

/-! ### Colours -/

namespace Document

/-- Writing the document fails with the fault of one of the nodes. -/
lemma exists_of_ofForest_eq_error {forest : Forest} (hsound : forest.Sound) {baseUrl : String}
    {error : PlanError} (h : ofForest forest baseUrl = .error error) :
    ∃ i < forest.size, ∃ role, (forest.node i).color role = .error error := by
  obtain ⟨grove, hgrove⟩ := hsound.exists_unfolds
  rw [← fault?_eq_some_iff, fault?_ofForest hsound hgrove] at h
  exact (mem_faults_iff hsound hgrove).mp (List.mem_of_head? h)

/-- A document starts with the first root, so it fails with that root's colour. -/
lemma ofForest_eq_error {forest : Forest} (hsound : forest.Sound) {first : Nat}
    (hfirst : forest.roots.toList.head? = some first) {error : PlanError}
    (hcolor : (forest.node first).color .foreground = .error error) (baseUrl : String) :
    ofForest forest baseUrl = .error error := by
  obtain ⟨grove, hgrove⟩ := hsound.exists_unfolds
  rw [← hgrove.roots_eq] at hfirst
  rw [← fault?_eq_some_iff, fault?_ofForest hsound hgrove]
  cases grove with
  | nil => cases hfirst
  | cons root below rest =>
    cases hfirst
    simp [faults_cons, Node.faults, hcolor, fault?]

end Document

namespace Check

lemma mem_malformedColor {used : Std.HashSet String} {category : Category} {role : ColorRole}
    {literal : String} (hused : category.id ∈ used) (hliteral : category.color? role = some literal)
    (hbad : ¬ ∃ color, Color.normalize literal = .ok color) :
    .ofError (.invalidColor category.id role literal) none ∈ malformedColor used category role := by
  unfold malformedColor
  cases hnormal : Color.normalize literal with
  | ok color => exact absurd ⟨color, hnormal⟩ hbad
  | error malformed => simp [hliteral, hnormal, hused]

/-- The malformed colour of a category in which an issue is drawn is an error, provided that the
directory has every category under its own id. -/
lemma mem_colors {issues : List Issue} {directory : Directory} (hbuilt : directory.Built)
    {categoryField : Option String} {issue : Issue} (hissue : issue ∈ issues) {category : Category}
    (hcategory : issue.drawnCategory? directory categoryField = some category) {role : ColorRole}
    {literal : String} (hliteral : category.color? role = some literal)
    (hbad : ¬ ∃ color, Color.normalize literal = .ok color) :
    .ofError (.invalidColor category.id role literal) none ∈
      colors issues directory categoryField := by
  obtain ⟨id, hid, hfound⟩ := Option.bind_eq_some_iff.mp hcategory
  have hused : category.id ∈ usedCategories categoryField issues := by
    rw [hbuilt.id_eq hfound, usedCategories, Std.HashSet.mem_ofList, List.contains_iff_mem]
    exact List.mem_filterMap.mpr ⟨issue, hissue, hid⟩
  refine List.mem_flatMap.mpr ⟨category, Directory.mem_categoryList_iff.mpr ⟨id, hfound⟩, ?_⟩
  rw [malformedColors, List.mem_append]
  have hmem := mem_malformedColor hused hliteral hbad
  cases role with
  | foreground => exact Or.inl hmem
  | background => exact Or.inr hmem

end Check

/-! ### The failure of drawing -/

/-- What a report says of the error that drawing fails with. A malformed colour is one of the errors
of the report, all of which are malformed colours; any other error is the first one. -/
def Report.Explains (report : Report) (error : PlanError) : Prop :=
  match error with
  | .invalidColor .. =>
    (∀ diagnostic ∈ report.diagnostics, diagnostic.severity = .error →
      diagnostic.code = "INVALID_COLOR") ∧
    ∃ diagnostic ∈ report.diagnostics, diagnostic.severity = .error ∧
      diagnostic.message = error.message
  | _ => ∃ diagnostic, report.firstError? = some diagnostic ∧ diagnostic.code = error.code ∧
      diagnostic.message = error.message

/-- When drawing fails, a check of the same plan reports the error that it fails with. -/
theorem check_explains_draw_error {issues : List Issue} {directory : Directory}
    (hbuilt : directory.Built) {options : DrawOptions} {error : PlanError}
    (h : draw issues directory options = .error error) :
    (check issues directory options.categoryField options.missingDependencies).Explains error := by
  have hforetells := Forest.foretells_build issues directory options.categoryField
    options.missingDependencies
  have hdiagnostics := Check.diagnostics_eq_append issues directory options.categoryField
    options.missingDependencies
  rcases bind_eq_error_iff.mp h with hbuild | ⟨forest, hbuild, hdocument⟩
  · rw [hbuild] at hforetells
    obtain ⟨item, hfirst⟩ := hforetells
    -- The report starts with what the passes find, so its first error is the one of the building.
    have hreport : (check issues directory options.categoryField
        options.missingDependencies).firstError? = some (.ofError error item) := by
      rw [Report.firstError?, hdiagnostics, firstError?_append, hfirst, Option.some_or]
    cases error with
    | invalidColor => exact absurd rfl (Forest.code_ne_of_build_eq_error hbuild)
    | _ => exact ⟨_, hreport, rfl, rfl⟩
  · rw [hbuild] at hforetells
    obtain ⟨hbuildable, rfl⟩ := Forest.build_eq_ok_iff.mp hbuild
    -- The forest stands, so the passes have found nothing and only a color can be malformed.
    obtain ⟨i, hi, role, hcolor⟩ :=
      Document.exists_of_ofForest_eq_error (hbuildable.sound _ _) hdocument
    obtain ⟨category, literal, hcategory, hliteral, hbad, rfl⟩ := Node.color_eq_error_iff.mp hcolor
    rw [← Color.exists_normalize_iff] at hbad
    rw [Forest.size_ofIssues] at hi
    rw [Forest.node_ofIssues _ _ _ hi] at hcategory
    have hmem := Check.mem_colors hbuilt (List.getElem_mem hi) hcategory hliteral hbad
    refine ⟨fun diagnostic hdiagnostic hseverity => ?_,
      .ofError (.invalidColor category.id role literal) none, ?_, rfl, rfl⟩
    · rw [hdiagnostics, List.mem_append, List.mem_append] at hdiagnostic
      rcases hdiagnostic with hdiagnostic | hdiagnostic | hdiagnostic
      · exact absurd ⟨diagnostic, hdiagnostic, hseverity⟩ hforetells
      · exact absurd ⟨diagnostic, hdiagnostic, hseverity⟩ (Check.not_hasError_advisory _ _ _)
      · exact List.mem_singleton.mp
          (hasCodes_flatMap (Check.hasCodes_malformedColors _) diagnostic hdiagnostic)
    · rw [hdiagnostics]
      exact List.mem_append_right _ (List.mem_append_right _ hmem)

/-! ### Two examples -/

/-- Where dropping unknown dependencies builds a forest, rejecting them fails with the first one. -/
lemma Forest.Buildable.build_reject {issues : List Issue} (h : Buildable issues .drop)
    (directory : Directory) (categoryField : Option String) :
    build issues directory categoryField .reject =
      (checkDependencies (Index.ofIds (issues.map Issue.id)) issues).map fun _ =>
        ofIssues issues directory categoryField := by
  obtain ⟨index, hindex, hidentifiers, hparents, -, hlink⟩ := build_eq_ok_iff_passes.mp
    (build_eq_ok_iff.mpr ⟨h, rfl⟩ : build issues directory categoryField .drop = _)
  obtain ⟨-, hlookup⟩ := lookup_of_indexIssues_eq_ok hindex
  rw [build_eq_passes, hindex, Document.ok_bind, hidentifiers, Document.ok_bind, hparents,
    Document.ok_bind, if_pos rfl, hlink, checkDependencies_congr hlookup]

lemma draw_tangledIssues_reject :
    draw Forest.tangledIssues Forest.tangledDirectory { missingDependencies := .reject } =
      .error (.unresolvedDependency "A-1" "GONE") := by
  have hpass : Forest.checkDependencies (Index.ofIds (Forest.tangledIssues.map Issue.id))
      Forest.tangledIssues = .error (.unresolvedDependency "A-1" "GONE") := by
    simp [Forest.checkDependencies, Forest.tangledIssues, Index.contains_ofIds]
  rw [draw, Forest.buildable_tangledIssues.build_reject, hpass]
  rfl

/-- A plan whose issues are drawn in malformed colours, in the opposite order of the categories. -/
def motleyIssues : List Issue :=
  [ { id := "A-1", category := some "ruby" }, { id := "A-2", category := some "amber" } ]

/-- The directory that the plan refers to. -/
def motleyDirectory : Directory :=
  .ofLists []
    [{ id := "ruby", colors := some ⟨some "#12", none⟩ },
      { id := "amber", colors := some ⟨none, some "red"⟩ }]

lemma buildable_motleyIssues : Forest.Buildable motleyIssues .reject where
  ids_nodup := by decide
  identifiers_nodup := by decide
  not_keyword := by decide
  no_cycle := by
    have htable : parentTable motleyIssues = #[none, none] := by
      rw [parentTable_eq]
      rfl
    rw [htable]
    decide +kernel
  known := by decide

lemma category?_motleyDirectory : motleyDirectory.category? "ruby" =
    some { id := "ruby", colors := some ⟨some "#12", none⟩ } := by
  rw [motleyDirectory, Directory.category?_ofLists]
  rfl

/-- The forest of the plan. -/
def motleyForest : Forest :=
  .ofIssues motleyIssues motleyDirectory none

lemma build_motleyIssues :
    Forest.build motleyIssues motleyDirectory none .reject = .ok motleyForest :=
  Forest.build_eq_ok_iff.mpr ⟨buildable_motleyIssues, rfl⟩

lemma head?_roots_motleyForest : motleyForest.roots.toList.head? = some 0 := by
  rw [motleyForest, (buildable_motleyIssues.sound motleyDirectory none).roots_eq]
  simp [Forest.up_ofIssues, parentIn_parentTable, motleyIssues, List.range_succ,
    Issue.parentId?, Issue.reference?]

lemma category_motleyForest : (motleyForest.node 0).category =
    some { id := "ruby", colors := some ⟨some "#12", none⟩ } := by
  rw [motleyForest, Forest.node_ofIssues _ _ _ (by decide)]
  exact category?_motleyDirectory

lemma draw_motleyIssues :
    draw motleyIssues motleyDirectory {} =
      .error (.invalidColor "ruby" .foreground "#12") := by
  have hcolor : (motleyForest.node 0).color .foreground =
      .error (.invalidColor "ruby" .foreground "#12") := by
    rw [Node.color, category_motleyForest]
    rfl
  rw [draw, build_motleyIssues]
  exact Document.ofForest_eq_error (Forest.sound_of_build build_motleyIssues)
    head?_roots_motleyForest hcolor ""

theorem check_explains_tangledIssues_and_motleyIssues :
    (check Forest.tangledIssues Forest.tangledDirectory none .reject).Explains
        (.unresolvedDependency "A-1" "GONE") ∧
      (check motleyIssues motleyDirectory none .reject).Explains
        (.invalidColor "ruby" .foreground "#12") :=
  ⟨check_explains_draw_error (Directory.built_ofLists _ _) draw_tangledIssues_reject,
    check_explains_draw_error (Directory.built_ofLists _ _) draw_motleyIssues⟩

end PlanChart
