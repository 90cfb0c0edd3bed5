import PlanChart.Proofs.DependencyCycle
import PlanChart.Proofs.Findings
import PlanChart.Proofs.Linking

/-!
# What is left out of a forest

A forest leaves out what it cannot link: parents, assignees and categories that nothing is known
about, and dependencies on ids that no issue has. A report tells of all of it, issue by issue, and
of nothing else. It also tells whether the dependencies that are left run in a circle.
-/

namespace PlanChart

/-- A report has a warning with a code that is about an item. -/
def Report.Warns (report : Report) (code : String) (item : Option String) : Prop :=
  ∃ diagnostic ∈ report.diagnostics,
    diagnostic.severity = .warning ∧ diagnostic.code = code ∧ diagnostic.item = item

/-- The number of findings with a code that are about an issue, errors and warnings alike. -/
def Report.findings (report : Report) (code : String) (issue : Issue) : Nat :=
  report.diagnostics.countP fun diagnostic =>
    diagnostic.code = code ∧ diagnostic.item = some issue.id

/-- A report tells what is left out of the node of an issue. -/
structure Report.Accounts (report : Report) (issue : Issue) (categoryField : Option String)
    (node : Node) : Prop where
  parent_iff : report.Warns "UNKNOWN_PARENT" issue.id ↔
    issue.parentId?.isSome ∧ node.parent = none
  assignee_iff : report.Warns "UNKNOWN_ASSIGNEE" issue.id ↔
    (Issue.reference? issue.assignee).isSome ∧ node.assigneeName = none
  category_iff : report.Warns "UNKNOWN_CATEGORY" issue.id ↔
    (issue.categoryId? categoryField).isSome ∧ node.category = none
  dependencies_eq : report.findings "UNRESOLVED_DEPENDENCY" issue + node.dependencies.size =
    issue.dependencies.length

/-- A node depends on another one. -/
def Forest.DependsOn (forest : Forest) (position dependency : Nat) : Prop :=
  dependency ∈ (forest.node position).dependencies

lemma Report.exists_warns_iff (report : Report) (code : String) :
    (∃ item, report.Warns code item) ↔
      ∃ diagnostic ∈ withCode code report.diagnostics, diagnostic.severity = .warning := by
  simp [Warns, withCode, and_assoc, and_comm]

lemma Forest.DependsOn.lt_size {forest : Forest} {position dependency : Nat}
    (h : forest.DependsOn position dependency) : position < forest.size := by
  by_contra hge
  rw [DependsOn, node_of_size_le (Nat.le_of_not_lt hge)] at h
  exact Array.not_mem_empty dependency h

namespace Check

/-! ### Findings about one issue -/

section

variable {report : Report} {code : String} {issues : List Issue} {find : Issue → List Diagnostic}

/-- Among the findings on all issues those about an issue are the ones that it yields itself. -/
lemma filter_item_flatMap (hnodup : (issues.map Issue.id).Nodup)
    (hitem : ∀ issue, ∀ diagnostic ∈ find issue, diagnostic.item = some issue.id) {issue : Issue}
    (hissue : issue ∈ issues) :
    (issues.flatMap find).filter (·.item = some issue.id) = find issue := by
  have hkeys : (issues.map fun issue => some issue.id).Nodup := by
    have hsome := hnodup.map (Option.some_injective String)
    rwa [List.map_map] at hsome
  exact filter_flatMap_eq hkeys hitem hissue

/-- A report warns of an issue just when there is something to be found with it. -/
lemma warns_iff (hcode : withCode code report.diagnostics = issues.flatMap find)
    (hnodup : (issues.map Issue.id).Nodup)
    (hfind : ∀ issue, AreWarnings code issue (find issue)) {issue : Issue}
    (hissue : issue ∈ issues) : report.Warns code issue.id ↔ find issue ≠ [] := by
  have hitem : ∀ issue, ∀ diagnostic ∈ find issue, diagnostic.item = some issue.id :=
    fun issue diagnostic h => (hfind issue diagnostic h).2.2
  have hmem : ∀ diagnostic, diagnostic ∈ find issue ↔ diagnostic ∈ report.diagnostics ∧
      diagnostic.code = code ∧ diagnostic.item = some issue.id := by
    intro diagnostic
    rw [← filter_item_flatMap hnodup hitem hissue, ← hcode, withCode, List.mem_filter,
      List.mem_filter, and_assoc, decide_eq_true_eq, decide_eq_true_eq]
  constructor
  · rintro ⟨diagnostic, hdiagnostic, -, hcode, hitem⟩
    exact List.ne_nil_of_mem ((hmem diagnostic).mpr ⟨hdiagnostic, hcode, hitem⟩)
  · intro hne
    obtain ⟨diagnostic, hdiagnostic⟩ := List.exists_mem_of_ne_nil _ hne
    obtain ⟨hreport, hcode, hitem⟩ := (hmem diagnostic).mp hdiagnostic
    exact ⟨diagnostic, hreport, (hfind issue diagnostic hdiagnostic).1, hcode, hitem⟩

/-- The findings about an issue are as many as the issue yields itself. -/
lemma findings_eq_length (hcode : withCode code report.diagnostics = issues.flatMap find)
    (hnodup : (issues.map Issue.id).Nodup)
    (hitem : ∀ issue, ∀ diagnostic ∈ find issue, diagnostic.item = some issue.id) {issue : Issue}
    (hissue : issue ∈ issues) : report.findings code issue = (find issue).length := by
  rw [← filter_item_flatMap hnodup hitem hissue, ← hcode, withCode, List.filter_filter,
    ← List.countP_eq_length_filter]
  exact List.countP_congr fun diagnostic _ => by simp [and_comm]

end

/-! ### What an issue yields -/

lemma unknownParent_ne_nil_iff (ids : List String) (issue : Issue) :
    unknownParent (Index.ofIds ids) issue ≠ [] ↔
      issue.parentId?.isSome ∧ issue.parentId?.bind (ids.idxOf? ·) = none := by
  unfold unknownParent
  cases issue.parentId? with
  | none => simp
  | some parent => simp [Index.contains_ofIds]

lemma unknownAssignee_ne_nil_iff (directory : Directory) (issue : Issue) :
    unknownAssignee directory issue ≠ [] ↔
      (Issue.reference? issue.assignee).isSome ∧
        issue.assignee.bind directory.userName? = none := by
  unfold unknownAssignee
  cases issue.assignee with
  | none => simp [Issue.reference?]
  | some assignee =>
    cases hempty : assignee.isEmpty <;> simp [Issue.reference?, Option.filter, hempty]

lemma unknownCategory_ne_nil_iff (directory : Directory) (categoryField : Option String)
    (issue : Issue) :
    unknownCategory directory categoryField issue ≠ [] ↔
      (issue.categoryId? categoryField).isSome ∧
        (issue.categoryId? categoryField).bind directory.category? = none := by
  unfold unknownCategory
  cases issue.categoryId? categoryField <;> simp

lemma item_unresolved (policy : MissingPolicy) (item dependency : String) :
    (unresolved policy item dependency).item = some item := by
  cases policy <;> rfl

/-- As many findings on dependencies are about an issue as it has dependencies on unknown ids. -/
lemma findings_unresolved {issues : List Issue} (directory : Directory)
    (categoryField : Option String) (policy : MissingPolicy)
    (hnodup : (issues.map Issue.id).Nodup) {issue : Issue} (hissue : issue ∈ issues) :
    (check issues directory categoryField policy).findings "UNRESOLVED_DEPENDENCY" issue =
      issue.dependencies.countP (· ∉ issues.map Issue.id) := by
  have hitem : ∀ issue : Issue, ∀ diagnostic ∈
      (issue.dependencies.filter (· ∉ issues.map Issue.id)).map (unresolved policy issue.id),
      diagnostic.item = some issue.id := by
    intro issue diagnostic hdiagnostic
    obtain ⟨dependency, -, rfl⟩ := List.mem_map.mp hdiagnostic
    exact item_unresolved policy issue.id dependency
  rw [findings_eq_length (withCode_unresolved _ _ _ _) hnodup hitem hissue, List.length_map,
    List.countP_eq_length_filter]

end Check

/-! ### Forests -/

namespace Forest

section

variable (issues : List Issue) (directory : Directory) (categoryField : Option String)

/-- The links of the graph that is searched for cycles are the dependencies of the nodes. -/
lemma linkedTo_links_ofIssues :
    LinkedTo (DependencyGraph.ofIssues issues).links =
      (ofIssues issues directory categoryField).DependsOn := by
  funext position dependency
  by_cases hposition : position < issues.length
  · rw [DependsOn, dependencies_ofIssues issues directory categoryField hposition]
    simp [LinkedTo, DependencyGraph.ofIssues, DependencyGraph.links_ofList, hposition,
      Issue.toDependent, Function.comp_def]
  · have hsize : (DependencyGraph.ofIssues issues).links.size = issues.length := by
      simp [DependencyGraph.ofIssues, DependencyGraph.links_ofList]
    exact propext (iff_of_false (fun h => hposition (hsize ▸ h.lt_size))
      (fun h => hposition (by simpa using h.lt_size)))

/-- The report on issues that a forest is built from accounts for each of its nodes. -/
lemma Buildable.accounts {policy : MissingPolicy} (h : Buildable issues policy) {position : Nat}
    (hposition : position < issues.length) :
    (check issues directory categoryField policy).Accounts issues[position] categoryField
      ((ofIssues issues directory categoryField).node position) where
  parent_iff := by
    rw [Check.warns_iff (Check.withCode_unknownParent _ _ _ _) h.ids_nodup
      (Check.areWarnings_unknownParent _) (List.getElem_mem hposition),
      Check.unknownParent_ne_nil_iff, parent_ofIssues _ _ _ hposition]
  assignee_iff := by
    rw [Check.warns_iff (Check.withCode_unknownAssignee _ _ _ _) h.ids_nodup
      (Check.areWarnings_unknownAssignee _) (List.getElem_mem hposition),
      Check.unknownAssignee_ne_nil_iff, node_ofIssues _ _ _ hposition]
    rfl
  category_iff := by
    rw [Check.warns_iff (Check.withCode_unknownCategory _ _ _ _) h.ids_nodup
      (Check.areWarnings_unknownCategory _ _) (List.getElem_mem hposition),
      Check.unknownCategory_ne_nil_iff, node_ofIssues _ _ _ hposition]
    rfl
  dependencies_eq := by
    -- The issues that are looked up are the known ones, so the unknown ones make up the rest.
    have hfound : ∀ id, ((issues.map Issue.id).idxOf? id).isSome =
        decide (id ∈ issues.map Issue.id) :=
      fun id => Bool.eq_iff_iff.mpr (by rw [List.isSome_idxOf?, decide_eq_true_iff])
    rw [Check.findings_unresolved _ _ _ h.ids_nodup (List.getElem_mem hposition),
      dependencies_ofIssues _ _ _ hposition, List.size_toArray, List.length_filterMap_eq_countP,
      List.length_eq_countP_add_countP (fun id => id ∈ issues.map Issue.id), Nat.add_comm]
    simp only [hfound, decide_not, decide_eq_true_eq]

end

end Forest

/-! ### Reports -/

/-- A report warns of dependencies that run in a circle just when links of the graph do. -/
lemma Check.warns_dependencyCycle_iff (issues : List Issue) (directory : Directory)
    (categoryField : Option String) (policy : MissingPolicy) :
    (∃ item, (check issues directory categoryField policy).Warns "DEPENDENCY_CYCLE" item) ↔
      ∃ position, Relation.TransGen (LinkedTo (DependencyGraph.ofIssues issues).links) position
        position := by
  have hwarns : (∃ item, (check issues directory categoryField policy).Warns "DEPENDENCY_CYCLE"
      item) ↔ linkCycles (DependencyGraph.ofIssues issues).links ≠ [] := by
    rw [Report.exists_warns_iff, withCode_dependencyCycle]
    simp [DependencyGraph.cycles, dependencyCycle, List.eq_nil_iff_forall_not_mem]
  rw [hwarns, Ne, linkCycles_eq_nil_iff, not_forall_not]

/-- What is left out of a forest that is built is what the report on the issues tells of, and the
report warns of dependencies that run in a circle just when those in the forest do. -/
theorem check_accounts_for_omissions {issues : List Issue} {directory : Directory}
    {categoryField : Option String} {policy : MissingPolicy} {forest : Forest}
    (h : Forest.build issues directory categoryField policy = .ok forest) :
    (∀ position (hposition : position < issues.length),
      (check issues directory categoryField policy).Accounts issues[position] categoryField
        (forest.node position)) ∧
    ((∃ item, (check issues directory categoryField policy).Warns "DEPENDENCY_CYCLE" item) ↔
      ∃ position < forest.size, Relation.TransGen forest.DependsOn position position) := by
  obtain ⟨hbuildable, rfl⟩ := Forest.build_eq_ok_iff.mp h
  refine ⟨fun _ hposition => hbuildable.accounts issues directory categoryField hposition, ?_⟩
  rw [Check.warns_dependencyCycle_iff,
    Forest.linkedTo_links_ofIssues issues directory categoryField]
  constructor
  · -- A position with a link is one of the forest, so the bound comes with the cycle.
    rintro ⟨position, hcycle⟩
    obtain ⟨next, hnext, -⟩ := Relation.TransGen.head'_iff.mp hcycle
    exact ⟨position, hnext.lt_size, hcycle⟩
  · rintro ⟨position, -, hcycle⟩
    exact ⟨position, hcycle⟩

/-- Of the plan with a parent that is not there, a dependency that is not there and one of an issue
on itself, the report tells all three. -/
theorem check_tangledIssues_accounts :
    (check Forest.tangledIssues Forest.tangledDirectory none .drop).Warns "UNKNOWN_PARENT"
        (some "") ∧
      ¬ (check Forest.tangledIssues Forest.tangledDirectory none .drop).Warns "UNKNOWN_PARENT"
        (some "A-2") ∧
      (check Forest.tangledIssues Forest.tangledDirectory none .drop).findings
        "UNRESOLVED_DEPENDENCY" Forest.tangledIssues[1] = 1 ∧
      ∃ item, (check Forest.tangledIssues Forest.tangledDirectory none .drop).Warns
        "DEPENDENCY_CYCLE" item := by
  obtain ⟨hnodes, hcycle⟩ := check_accounts_for_omissions Forest.build_tangledIssues
  have hparent : ∀ position, (Forest.tangledForest.node position).parent =
      parentIn (parentTable Forest.tangledIssues) position :=
    Forest.up_ofIssues Forest.tangledIssues Forest.tangledDirectory none
  have hdependencies : (Forest.tangledForest.node 1).dependencies = #[2, 0, 1] := by
    rw [Forest.tangledForest, Forest.dependencies_ofIssues _ _ _ (by decide)]
    decide
  refine ⟨(hnodes 3 (by decide)).parent_iff.mpr ⟨by decide, ?_⟩, fun hwarns => ?_, ?_,
    hcycle.mpr ⟨1, ?_, .single ?_⟩⟩
  · rw [hparent, parentIn_parentTable]
    decide
  · have hnone := ((hnodes 0 (by decide)).parent_iff.mp hwarns).2
    rw [hparent, parentIn_parentTable] at hnone
    revert hnone
    decide
  · have hcount := (hnodes 1 (by decide)).dependencies_eq
    rw [hdependencies] at hcount
    exact Nat.add_right_cancel (m := 3) hcount
  · rw [Forest.tangledForest, Forest.size_ofIssues]
    decide
  · rw [Forest.DependsOn, hdependencies]
    simp

end PlanChart
