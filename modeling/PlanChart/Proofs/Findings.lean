import PlanChart.Proofs.Foretelling

/-!
# Findings by their codes

A check goes over the plan several times, and each time it looks for something else. What it finds
can be told from the code: each list of findings has codes of its own, so that the findings with a
code are the ones of a single list.
-/

namespace PlanChart

/-- The codes of findings are among the given ones. -/
def HasCodes (codes : List String) (diagnostics : List Diagnostic) : Prop :=
  ∀ diagnostic ∈ diagnostics, diagnostic.code ∈ codes

/-- The findings that have a code. -/
def withCode (code : String) (diagnostics : List Diagnostic) : List Diagnostic :=
  diagnostics.filter (·.code = code)

section

variable {codes : List String}

@[simp] lemma hasCodes_nil : HasCodes codes [] := by
  simp [HasCodes]

@[simp] lemma hasCodes_cons (diagnostic : Diagnostic) (diagnostics : List Diagnostic) :
    HasCodes codes (diagnostic :: diagnostics) ↔
      diagnostic.code ∈ codes ∧ HasCodes codes diagnostics := by
  simp [HasCodes]

lemma HasCodes.mono {others : List String} {diagnostics : List Diagnostic}
    (h : HasCodes codes diagnostics) (hsubset : codes ⊆ others) : HasCodes others diagnostics :=
  fun diagnostic hdiagnostic => hsubset (h diagnostic hdiagnostic)

lemma hasCodes_append (diagnostics others : List Diagnostic) :
    HasCodes codes (diagnostics ++ others) ↔
      HasCodes codes diagnostics ∧ HasCodes codes others := by
  simp [HasCodes, or_imp, forall_and]

lemma hasCodes_flatMap {α : Type} {l : List α} {f : α → List Diagnostic}
    (h : ∀ a, HasCodes codes (f a)) : HasCodes codes (l.flatMap f) := by
  intro diagnostic hdiagnostic
  obtain ⟨a, -, hmem⟩ := List.mem_flatMap.mp hdiagnostic
  exact h a diagnostic hmem

lemma hasCodes_map {α : Type} {l : List α} {f : α → Diagnostic} (h : ∀ a, (f a).code ∈ codes) :
    HasCodes codes (l.map f) := by
  intro diagnostic hdiagnostic
  obtain ⟨a, -, rfl⟩ := List.mem_map.mp hdiagnostic
  exact h a

lemma AreWarnings.hasCodes {code : String} {issue : Issue} {diagnostics : List Diagnostic}
    (h : AreWarnings code issue diagnostics) : HasCodes [code] diagnostics :=
  fun diagnostic hdiagnostic => List.mem_singleton.mpr (h diagnostic hdiagnostic).2.1

@[simp] lemma withCode_append (code : String) (diagnostics others : List Diagnostic) :
    withCode code (diagnostics ++ others) = withCode code diagnostics ++ withCode code others :=
  List.filter_append _ _

lemma withCode_flatMap {α : Type} (code : String) (l : List α) (f : α → List Diagnostic) :
    withCode code (l.flatMap f) = l.flatMap fun a => withCode code (f a) :=
  List.filter_flatMap

lemma HasCodes.withCode_eq_nil {diagnostics : List Diagnostic} (h : HasCodes codes diagnostics)
    {code : String} (hcode : code ∉ codes) : withCode code diagnostics = [] := by
  refine List.filter_eq_nil_iff.mpr fun diagnostic hdiagnostic heq => hcode ?_
  exact of_decide_eq_true heq ▸ h diagnostic hdiagnostic

lemma HasCodes.withCode_eq_self {code : String} {diagnostics : List Diagnostic}
    (h : HasCodes [code] diagnostics) : withCode code diagnostics = diagnostics :=
  List.filter_eq_self.mpr fun diagnostic hdiagnostic =>
    decide_eq_true (List.mem_singleton.mp (h diagnostic hdiagnostic))

/-- Among lists of findings only those that may have a code matter to the findings with the code. -/
lemma withCode_lists {lists : List (List String × List Diagnostic)}
    (h : ∀ list ∈ lists, HasCodes list.1 list.2) (code : String) :
    withCode code (lists.flatMap Prod.snd) =
      (lists.filter (code ∈ ·.1)).flatMap fun list => withCode code list.2 := by
  induction lists with
  | nil => rfl
  | cons list lists ih =>
    obtain ⟨hlist, hlists⟩ := List.forall_mem_cons.mp h
    rw [List.flatMap_cons, withCode_append, ih hlists, List.filter_cons]
    split
    · rfl
    · rename_i hcode
      rw [hlist.withCode_eq_nil (by simpa using hcode), List.nil_append]

end

/-! ### The codes of each list -/

namespace Check

lemma hasCodes_duplicates (seen : Std.HashSet String) (issues : List Issue) :
    HasCodes ["DUPLICATE_ITEM"] (duplicates seen issues) := by
  induction issues generalizing seen with
  | nil => exact hasCodes_nil
  | cons issue issues ih =>
    rw [duplicates]
    split
    · exact (hasCodes_cons _ _).mpr ⟨List.mem_singleton_self _, ih _⟩
    · exact ih _

lemma hasCodes_identifiers (first : Std.HashMap String String) (issues : List Issue) :
    HasCodes ["IDENTIFIER_COLLISION", "RESERVED_IDENTIFIER"] (identifiers first issues) := by
  induction issues generalizing first with
  | nil => exact hasCodes_nil
  | cons issue issues ih =>
    rw [identifiers]
    dsimp only
    split
    · split
      · exact ih _
      · exact (hasCodes_cons _ _).mpr ⟨List.mem_cons_self, ih _⟩
    · split
      · exact (hasCodes_cons _ _).mpr ⟨List.mem_cons_of_mem _ List.mem_cons_self, ih _⟩
      · exact ih _

lemma hasCodes_unknownParent (index : Index) (issue : Issue) :
    HasCodes ["UNKNOWN_PARENT"] (unknownParent index issue) :=
  (areWarnings_unknownParent index issue).hasCodes

lemma code_parentCycle (issues : List Issue) (cycle : List Nat) :
    (parentCycle issues cycle).code = "PARENT_CYCLE" := rfl

lemma code_unresolved (policy : MissingPolicy) (item dependency : String) :
    (unresolved policy item dependency).code = "UNRESOLVED_DEPENDENCY" := by
  cases policy <;> rfl

lemma code_dependencyCycle (cycle : List String) :
    (dependencyCycle cycle).code = "DEPENDENCY_CYCLE" := rfl

lemma hasCodes_unknownAssignee (directory : Directory) (issue : Issue) :
    HasCodes ["UNKNOWN_ASSIGNEE"] (unknownAssignee directory issue) :=
  (areWarnings_unknownAssignee directory issue).hasCodes

lemma hasCodes_unknownCategory (directory : Directory) (categoryField : Option String)
    (issue : Issue) :
    HasCodes ["UNKNOWN_CATEGORY"] (unknownCategory directory categoryField issue) :=
  (areWarnings_unknownCategory directory categoryField issue).hasCodes

lemma hasCodes_malformedColor (used : Std.HashSet String) (category : Category)
    (role : ColorRole) : HasCodes ["INVALID_COLOR"] (malformedColor used category role) := by
  unfold malformedColor
  split
  · exact hasCodes_nil
  · split
    · exact hasCodes_nil
    · dsimp only
      split <;> simp [Diagnostic.ofError, Diagnostic.ofHarmless, PlanError.code]

lemma hasCodes_malformedColors (used : Std.HashSet String) (category : Category) :
    HasCodes ["INVALID_COLOR"] (malformedColors used category) :=
  (hasCodes_append _ _).mpr
    ⟨hasCodes_malformedColor used category .foreground,
      hasCodes_malformedColor used category .background⟩

/-! ### The findings of a check -/

/-- The lists that a check consists of, one after the other, each with the codes it may have. -/
def lists (issues : List Issue) (directory : Directory) (categoryField : Option String)
    (policy : MissingPolicy) : List (List String × List Diagnostic) :=
  [ (["DUPLICATE_ITEM"], duplicates ∅ issues),
    (["IDENTIFIER_COLLISION", "RESERVED_IDENTIFIER"], identifiers ∅ issues),
    (["UNKNOWN_PARENT"], issues.flatMap (unknownParent (Index.ofIds (issues.map Issue.id)))),
    (["PARENT_CYCLE"], (parentCycles (parentTable issues)).map (parentCycle issues)),
    (["UNRESOLVED_DEPENDENCY"], missing policy issues),
    (["DEPENDENCY_CYCLE"], (DependencyGraph.ofIssues issues).cycles.map dependencyCycle),
    (["UNKNOWN_ASSIGNEE", "UNKNOWN_CATEGORY"], issues.flatMap fun issue =>
      unknownAssignee directory issue ++ unknownCategory directory categoryField issue),
    (["INVALID_COLOR"], directory.categoryList.flatMap
      (malformedColors (usedCategories categoryField issues))) ]

section

variable (issues : List Issue) (directory : Directory) (categoryField : Option String)
  (policy : MissingPolicy)

lemma diagnostics_eq : (check issues directory categoryField policy).diagnostics =
    (lists issues directory categoryField policy).flatMap Prod.snd := by
  simp only [check, map_unresolved, lists, missing, List.flatMap_cons, List.flatMap_nil,
    List.append_nil, List.append_assoc]
  rfl

lemma hasCodes_lists :
    ∀ list ∈ lists issues directory categoryField policy, HasCodes list.1 list.2 := by
  simp only [lists, List.forall_mem_cons]
  refine ⟨hasCodes_duplicates _ _, hasCodes_identifiers _ _,
    hasCodes_flatMap (hasCodes_unknownParent _), hasCodes_map fun _ => ?_,
    hasCodes_flatMap fun _ => hasCodes_map fun _ => ?_, hasCodes_map fun _ => ?_,
    hasCodes_flatMap fun issue => (hasCodes_append _ _).mpr ⟨?_, ?_⟩,
    hasCodes_flatMap (hasCodes_malformedColors _), by simp⟩
  · simp [code_parentCycle]
  · simp [code_unresolved]
  · simp [code_dependencyCycle]
  · exact (hasCodes_unknownAssignee directory issue).mono (by simp)
  · exact (hasCodes_unknownCategory directory categoryField issue).mono (by simp)

lemma withCode_check (code : String) :
    withCode code (check issues directory categoryField policy).diagnostics =
      ((lists issues directory categoryField policy).filter (code ∈ ·.1)).flatMap
        fun list => withCode code list.2 := by
  rw [diagnostics_eq, withCode_lists (hasCodes_lists issues directory categoryField policy)]

/-- The warnings on parents, issue by issue. -/
lemma withCode_unknownParent :
    withCode "UNKNOWN_PARENT" (check issues directory categoryField policy).diagnostics =
      issues.flatMap (unknownParent (Index.ofIds (issues.map Issue.id))) := by
  rw [withCode_check]
  simp [lists, (hasCodes_flatMap (hasCodes_unknownParent _)).withCode_eq_self]

/-- The findings on dependencies, issue by issue. -/
lemma withCode_unresolved :
    withCode "UNRESOLVED_DEPENDENCY" (check issues directory categoryField policy).diagnostics =
      missing policy issues := by
  have hcodes : HasCodes ["UNRESOLVED_DEPENDENCY"] (missing policy issues) :=
    hasCodes_flatMap fun _ => hasCodes_map fun _ => by simp [code_unresolved]
  rw [withCode_check]
  simp [lists, hcodes.withCode_eq_self]

/-- The warnings on dependencies that run in a circle. -/
lemma withCode_dependencyCycle :
    withCode "DEPENDENCY_CYCLE" (check issues directory categoryField policy).diagnostics =
      (DependencyGraph.ofIssues issues).cycles.map dependencyCycle := by
  have hcodes : HasCodes ["DEPENDENCY_CYCLE"]
      ((DependencyGraph.ofIssues issues).cycles.map dependencyCycle) :=
    hasCodes_map fun _ => by simp [code_dependencyCycle]
  rw [withCode_check]
  simp [lists, hcodes.withCode_eq_self]

/-- The warnings on assignees, issue by issue. -/
lemma withCode_unknownAssignee :
    withCode "UNKNOWN_ASSIGNEE" (check issues directory categoryField policy).diagnostics =
      issues.flatMap (unknownAssignee directory) := by
  have hassignee := fun issue => (hasCodes_unknownAssignee directory issue).withCode_eq_self
  have hcategory := fun issue =>
    (hasCodes_unknownCategory directory categoryField issue).withCode_eq_nil
      (show "UNKNOWN_ASSIGNEE" ∉ ["UNKNOWN_CATEGORY"] by decide)
  rw [withCode_check]
  simp [lists, withCode_flatMap, hassignee, hcategory]

/-- The warnings on categories, issue by issue. -/
lemma withCode_unknownCategory :
    withCode "UNKNOWN_CATEGORY" (check issues directory categoryField policy).diagnostics =
      issues.flatMap (unknownCategory directory categoryField) := by
  have hassignee := fun issue => (hasCodes_unknownAssignee directory issue).withCode_eq_nil
    (show "UNKNOWN_CATEGORY" ∉ ["UNKNOWN_ASSIGNEE"] by decide)
  have hcategory := fun issue =>
    (hasCodes_unknownCategory directory categoryField issue).withCode_eq_self
  rw [withCode_check]
  simp [lists, withCode_flatMap, hassignee, hcategory]

end

end Check

end PlanChart
