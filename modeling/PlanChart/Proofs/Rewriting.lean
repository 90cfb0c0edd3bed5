import PlanChart.Document
import PlanChart.Proofs.Buildable
import PlanChart.Proofs.Foretelling

/-!
# Options as rewritings of the plan

Whether dependencies on unknown issues are dropped and where categories are looked up need not be
said to the drawing of a plan. One can as well take such dependencies out of the plan, and write
down for every issue which category it is looked up to have: what is drawn then, or why nothing can
be drawn, is the same.
-/

namespace PlanChart

/-- An issue with the dependencies on ids that issues have, and with the category that it is looked
up to have as its own. -/
def Issue.rewrite (issue : Issue) (issues : List Issue) (categoryField : Option String) : Issue :=
  { issue with
    dependencies := issue.dependencies.filter (· ∈ issues.map Issue.id)
    category := issue.categoryId? categoryField }

/-- The issues, each of them rewritten. -/
def rewriteIssues (issues : List Issue) (categoryField : Option String) : List Issue :=
  issues.map (·.rewrite issues categoryField)

namespace Issue

lemma reference?_reference? (text : Option String) :
    reference? (reference? text) = reference? text := by
  simp [reference?, Option.filter_filter]

/-- An id of a category is not empty. -/
lemma reference?_categoryId? (issue : Issue) (categoryField : Option String) :
    reference? (issue.categoryId? categoryField) = issue.categoryId? categoryField := by
  unfold categoryId?
  cases hown : reference? issue.category with
  | none => exact reference?_reference? _
  | some category =>
    dsimp only
    rw [← hown, reference?_reference?]

/-- A rewritten issue has the same category without a custom field. -/
lemma categoryId?_rewrite (issue : Issue) (issues : List Issue) (categoryField : Option String) :
    (issue.rewrite issues categoryField).categoryId? none = issue.categoryId? categoryField := by
  have hown : reference? (issue.rewrite issues categoryField).category =
      issue.categoryId? categoryField := reference?_categoryId? issue categoryField
  rw [categoryId?, hown]
  cases issue.categoryId? categoryField <;> rfl

end Issue

/-! ### Passes over rewritten issues -/

section

variable {f : Issue → Issue}

namespace Forest

lemma indexIssues_map (hid : ∀ issue, (f issue).id = issue.id) (index : Index) (position : Nat)
    (issues : List Issue) :
    indexIssues index position (issues.map f) = indexIssues index position issues := by
  induction issues generalizing index position with
  | nil => rfl
  | cons issue issues ih =>
    rw [List.map_cons, indexIssues, indexIssues, hid, ih]

lemma checkIdentifiers_map (hid : ∀ issue, (f issue).id = issue.id)
    (taken : Std.HashMap String String) (issues : List Issue) :
    checkIdentifiers taken (issues.map f) = checkIdentifiers taken issues := by
  induction issues generalizing taken with
  | nil => rfl
  | cons issue issues ih =>
    rw [List.map_cons, checkIdentifiers, checkIdentifiers, hid]
    simp only [ih]

lemma checkParents_map (hid : ∀ issue, (f issue).id = issue.id) (issues : List Issue)
    (parents : Array (Option Nat)) :
    checkParents (issues.map f) parents = checkParents issues parents := by
  have hids : (issues.map f).map Issue.id = issues.map Issue.id := by
    rw [List.map_map]
    exact List.map_congr_left fun issue _ => hid issue
  unfold checkParents cycleIds
  rw [hids]

end Forest

lemma parentLinks_map (hparent : ∀ issue, (f issue).parentId? = issue.parentId?) (index : Index)
    (issues : List Issue) : parentLinks index (issues.map f) = parentLinks index issues := by
  simp [parentLinks, hparent]

end

namespace Forest

section

variable {index : Index} {issues : List Issue}
  (hknown : ∀ id : String, index.contains id = decide (id ∈ issues.map Issue.id))

include hknown

lemma checkDependencies_rewriteIssues (categoryField : Option String) :
    checkDependencies index (rewriteIssues issues categoryField) = .ok () := by
  rw [checkDependencies_eq_ok_iff]
  intro issue hissue id hid
  obtain ⟨original, -, rfl⟩ := List.mem_map.mp hissue
  rw [hknown]
  exact (List.mem_filter.mp hid).2

/-- A rewritten issue has the same node. -/
lemma nodeOf_rewrite (directory : Directory) (categoryField : Option String) (issue : Issue)
    (parent : Option Nat) (children : Array Nat) :
    nodeOf directory none index (issue.rewrite issues categoryField) parent children =
      nodeOf directory categoryField index issue parent children := by
  have hdependencies : (issue.rewrite issues categoryField).dependencies.filterMap (index[·]?) =
      issue.dependencies.filterMap (index[·]?) := by
    rw [Issue.rewrite, List.filterMap_filter]
    refine List.filterMap_congr fun id _ => ?_
    by_cases hmem : id ∈ issues.map Issue.id
    · exact if_pos (decide_eq_true hmem)
    · have hnew : index.contains id = false := (hknown id).trans (decide_eq_false hmem)
      rw [Std.HashMap.getElem?_eq_none_of_contains_eq_false hnew, ite_self]
  simp only [nodeOf, Issue.categoryId?_rewrite, hdependencies]
  rfl

lemma link_rewriteIssues (directory : Directory) (categoryField : Option String)
    (parents : Array (Option Nat)) :
    link directory none index (rewriteIssues issues categoryField) parents =
      link directory categoryField index issues parents := by
  have hnodes : (rewriteIssues issues categoryField).toArray.mapIdx
        (fun position issue => nodeOf directory none index issue (parents.getD position none)
          ((childTable parents).getD position #[])) =
      issues.toArray.mapIdx fun position issue => nodeOf directory categoryField index issue
        (parents.getD position none) ((childTable parents).getD position #[]) := by
    refine Array.ext (by simp [rewriteIssues]) fun position _ _ => ?_
    simp [rewriteIssues, nodeOf_rewrite hknown]
  rw [link, hnodes]
  rfl

end

/-- The forest of the rewritten issues is built, or fails to be built, like that of the issues. -/
lemma build_rewriteIssues (issues : List Issue) (directory : Directory)
    (categoryField : Option String) :
    build (rewriteIssues issues categoryField) directory none .reject =
      build issues directory categoryField .drop := by
  have hid : ∀ issue : Issue, (issue.rewrite issues categoryField).id = issue.id := fun _ => rfl
  have hparent : ∀ issue : Issue,
      (issue.rewrite issues categoryField).parentId? = issue.parentId? := fun _ => rfl
  have hindexed : indexIssues ∅ 0 (rewriteIssues issues categoryField) = indexIssues ∅ 0 issues :=
    indexIssues_map hid ∅ 0 issues
  have hchecked : checkIdentifiers ∅ (rewriteIssues issues categoryField) =
      checkIdentifiers ∅ issues := checkIdentifiers_map hid ∅ issues
  have hparents : ∀ parents, checkParents (rewriteIssues issues categoryField) parents =
      checkParents issues parents := checkParents_map hid issues
  have hlinks : ∀ index, parentLinks index (rewriteIssues issues categoryField) =
      parentLinks index issues := fun index => parentLinks_map hparent index issues
  -- The passes before the last one look at ids and parents only, and these are left as they are.
  rw [build_eq_passes, build_eq_passes, hindexed, hchecked]
  simp only [hparents, hlinks]
  cases hindex : indexIssues ∅ 0 issues with
  | error error => rfl
  | ok index =>
    have hknown := contains_of_indexIssues_eq_ok hindex
    have hlink := link_rewriteIssues hknown directory categoryField
    have hcheck := checkDependencies_rewriteIssues hknown categoryField
    simp only [bind, Except.bind, hlink, hcheck, reduceCtorEq, if_true, if_false]

end Forest

/-- To drop dependencies on unknown issues and to look categories up in a custom field is the same
as to rewrite the plan before it is drawn. -/
theorem draw_rewriteIssues (issues : List Issue) (directory : Directory) (baseUrl : String)
    (categoryField : Option String) :
    draw issues directory { baseUrl, categoryField, missingDependencies := .drop } =
      draw (rewriteIssues issues categoryField) directory
        { baseUrl, categoryField := none, missingDependencies := .reject } := by
  unfold draw
  rw [Forest.build_rewriteIssues]

end PlanChart
