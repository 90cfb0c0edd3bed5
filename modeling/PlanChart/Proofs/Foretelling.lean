import PlanChart.Check
import PlanChart.Proofs.Buildable

/-!
# Findings foretell how building ends

A check and the building of a forest go over the issues with tables of their own. The findings of a
check stand in the order of the passes that a forest is built in, and each list of them tells how
one pass ends. So all of them tell how the building ends: the first error among them is the fault
that it stops at, and without an error it does not stop.
-/

namespace PlanChart

/-- The dependencies on ids that no issue has, issue by issue. -/
lemma DependencyGraph.unresolved_ofIssues (issues : List Issue) :
    (ofIssues issues).unresolved = issues.flatMap fun issue =>
      (issue.dependencies.filter (· ∉ issues.map Issue.id)).map (issue.id, ·) := by
  have hids : (issues.map Issue.toDependent).map Dependent.id = issues.map Issue.id := by
    simp [Issue.toDependent, Function.comp_def]
  simp only [ofIssues, ofList, unresolved, hids, Index.contains_ofIds, List.flatMap_map,
    Issue.toDependent, decide_not]

/-! ### Findings that are errors -/

/-- Whether there is an error among findings. -/
def HasError (diagnostics : List Diagnostic) : Prop :=
  ∃ diagnostic ∈ diagnostics, diagnostic.severity = .error

lemma Report.hasErrors_iff (report : Report) :
    report.hasErrors = true ↔ HasError report.diagnostics := by
  simp [hasErrors, errors, List.countP_pos_iff, HasError]

@[simp] lemma hasError_nil : ¬ HasError [] := by
  simp [HasError]

@[simp] lemma hasError_cons (diagnostic : Diagnostic) (diagnostics : List Diagnostic) :
    HasError (diagnostic :: diagnostics) ↔
      diagnostic.severity = .error ∨ HasError diagnostics := by
  simp [HasError]

@[simp] lemma hasError_append (diagnostics others : List Diagnostic) :
    HasError (diagnostics ++ others) ↔ HasError diagnostics ∨ HasError others := by
  simp [HasError, or_and_right, exists_or]

lemma hasError_flatMap {α : Type} (l : List α) (f : α → List Diagnostic) :
    HasError (l.flatMap f) ↔ ∃ a ∈ l, HasError (f a) := by
  simp only [HasError, List.mem_flatMap]
  constructor
  · rintro ⟨diagnostic, ⟨a, ha, hmem⟩, herror⟩
    exact ⟨a, ha, diagnostic, hmem, herror⟩
  · rintro ⟨a, ha, diagnostic, hmem, herror⟩
    exact ⟨diagnostic, ⟨a, ha, hmem⟩, herror⟩

lemma hasError_map {α : Type} (l : List α) (f : α → Diagnostic) :
    HasError (l.map f) ↔ ∃ a ∈ l, (f a).severity = .error := by
  simp [HasError]

@[simp] lemma severity_ofError (error : PlanError) (item : Option String) :
    (Diagnostic.ofError error item).severity = .error := rfl

/-- Findings that are warnings with a code and about an issue. -/
def AreWarnings (code : String) (issue : Issue) (diagnostics : List Diagnostic) : Prop :=
  ∀ diagnostic ∈ diagnostics, diagnostic.severity = .warning ∧ diagnostic.code = code ∧
    diagnostic.item = some issue.id

lemma AreWarnings.not_hasError {code : String} {issue : Issue} {diagnostics : List Diagnostic}
    (h : AreWarnings code issue diagnostics) : ¬ HasError diagnostics := by
  rintro ⟨diagnostic, hdiagnostic, herror⟩
  rw [(h diagnostic hdiagnostic).1] at herror
  cases herror

/-! ### The first error -/

/-- The first error among findings. -/
def firstError? (diagnostics : List Diagnostic) : Option Diagnostic :=
  diagnostics.find? (·.severity = .error)

lemma firstError?_append (diagnostics others : List Diagnostic) :
    firstError? (diagnostics ++ others) =
      (firstError? diagnostics).or (firstError? others) := List.find?_append

lemma firstError?_eq_none_iff {diagnostics : List Diagnostic} :
    firstError? diagnostics = none ↔ ¬ HasError diagnostics := by
  simp [firstError?, HasError]

lemma firstError?_ofError_cons (error : PlanError) (item : Option String)
    (diagnostics : List Diagnostic) :
    firstError? (.ofError error item :: diagnostics) = some (.ofError error item) :=
  List.find?_cons_of_pos rfl

/-- The findings on a list of things tell how a pass over it ends: with a fault that is their first
error, or without one when there is no error among them. -/
def Foretells {α : Type} (diagnostics : List Diagnostic) : Except PlanError α → Prop
  | .ok _ => ¬ HasError diagnostics
  | .error error => ∃ item, firstError? diagnostics = some (.ofError error item)

namespace Foretells

variable {α β : Type} {diagnostics others : List Diagnostic}

lemma of_ofError (error : PlanError) (item : Option String) (diagnostics : List Diagnostic) :
    Foretells (α := α) (.ofError error item :: diagnostics) (.error error) :=
  ⟨item, firstError?_ofError_cons error item diagnostics⟩

/-- Findings without an error do not hide those behind them. -/
lemma append_left {result : Except PlanError α} (hharmless : ¬ HasError others)
    (h : Foretells diagnostics result) : Foretells (others ++ diagnostics) result := by
  cases result with
  | ok a =>
    rw [Foretells, hasError_append]
    exact not_or.mpr ⟨hharmless, h⟩
  | error error =>
    obtain ⟨item, hfirst⟩ := h
    refine ⟨item, ?_⟩
    rw [firstError?_append, firstError?_eq_none_iff.mpr hharmless, Option.none_or, hfirst]

/-- The findings of two passes, one after the other, tell how the two passes together end. -/
lemma bind {result : Except PlanError α} {next : α → Except PlanError β}
    (h : Foretells diagnostics result)
    (hnext : ∀ a, result = .ok a → Foretells others (next a)) :
    Foretells (diagnostics ++ others) (result >>= next) := by
  cases result with
  | ok a => exact (hnext a rfl).append_left h
  | error error =>
    obtain ⟨item, hfirst⟩ := h
    refine ⟨item, ?_⟩
    rw [firstError?_append, hfirst, Option.some_or]

lemma map {result : Except PlanError α} (h : Foretells diagnostics result) (f : α → β) :
    Foretells diagnostics (result.map f) := by
  cases result <;> exact h

end Foretells

namespace Check

/-! ### Findings that are warnings -/

lemma areWarnings_unknownParent (index : Index) (issue : Issue) :
    AreWarnings "UNKNOWN_PARENT" issue (unknownParent index issue) := by
  unfold unknownParent
  split
  · simp [AreWarnings]
  · split <;> simp [AreWarnings]

lemma areWarnings_unknownAssignee (directory : Directory) (issue : Issue) :
    AreWarnings "UNKNOWN_ASSIGNEE" issue (unknownAssignee directory issue) := by
  unfold unknownAssignee
  split
  · simp [AreWarnings]
  · split <;> simp [AreWarnings]

lemma areWarnings_unknownCategory (directory : Directory) (categoryField : Option String)
    (issue : Issue) :
    AreWarnings "UNKNOWN_CATEGORY" issue (unknownCategory directory categoryField issue) := by
  unfold unknownCategory
  split
  · simp [AreWarnings]
  · split <;> simp [AreWarnings]

lemma not_hasError_unknownParent (index : Index) (issue : Issue) :
    ¬ HasError (unknownParent index issue) :=
  (areWarnings_unknownParent index issue).not_hasError

lemma not_hasError_unknownAssignee (directory : Directory) (issue : Issue) :
    ¬ HasError (unknownAssignee directory issue) :=
  (areWarnings_unknownAssignee directory issue).not_hasError

lemma not_hasError_unknownCategory (directory : Directory) (categoryField : Option String)
    (issue : Issue) : ¬ HasError (unknownCategory directory categoryField issue) :=
  (areWarnings_unknownCategory directory categoryField issue).not_hasError

/-! ### Findings on dependencies -/

lemma severity_unresolved (policy : MissingPolicy) (item dependency : String) :
    (unresolved policy item dependency).severity = .error ↔ policy = .reject := by
  cases policy <;> simp [unresolved, Diagnostic.ofHarmless]

/-- The findings on dependencies on ids that no issue has, issue by issue. -/
def missing (policy : MissingPolicy) (issues : List Issue) : List Diagnostic :=
  issues.flatMap fun issue =>
    (issue.dependencies.filter (· ∉ issues.map Issue.id)).map (unresolved policy issue.id)

lemma map_unresolved (policy : MissingPolicy) (issues : List Issue) :
    ((DependencyGraph.ofIssues issues).unresolved.map
        fun (item, dependency) => unresolved policy item dependency) = missing policy issues := by
  simp only [DependencyGraph.unresolved_ofIssues, List.map_flatMap, List.map_map, missing,
    Function.comp_def]

/-! ### Findings and passes -/

/-- The first repeated id is where the first pass stops. -/
lemma foretells_duplicates (seen : Std.HashSet String) (index : Index) (position : Nat)
    (issues : List Issue) (h : ∀ id : String, seen.contains id = index.contains id) :
    Foretells (duplicates seen issues) (Forest.indexIssues index position issues) := by
  induction issues generalizing seen index position with
  | nil => simp [duplicates, Forest.indexIssues, Foretells]
  | cons issue issues ih =>
    rw [duplicates, Forest.indexIssues, h]
    split
    · exact .of_ofError _ _ _
    · refine ih _ _ _ fun id => ?_
      rw [Std.HashSet.contains_insert, Std.HashMap.contains_insert, h]

/-- Where no id is used twice, the first finding on identifiers is where the second pass stops. -/
lemma foretells_identifiers (first : Std.HashMap String String) (issues : List Issue)
    (hnodup : (issues.map Issue.id).Nodup)
    (hfirst : ∀ identifier id : String, first[identifier]? = some id → id ∉ issues.map Issue.id) :
    Foretells (identifiers first issues) (Forest.checkIdentifiers first issues) := by
  induction issues generalizing first with
  | nil => simp [identifiers, Forest.checkIdentifiers, Foretells]
  | cons issue issues ih =>
    obtain ⟨hissue, hnodup⟩ := List.nodup_cons.mp hnodup
    rw [identifiers, Forest.checkIdentifiers]
    cases hlookup : first[Identifier.ofText issue.id]? with
    | some id =>
      -- No id is used twice, so what has taken the identifier is a different id.
      have hne : id ≠ issue.id := fun heq => hfirst _ id hlookup (by simp [heq])
      simp only [hne, if_false]
      exact .of_ofError _ _ _
    | none =>
      dsimp only
      split
      · exact .of_ofError _ _ _
      · refine ih _ hnodup fun identifier id hid => ?_
        rw [Std.HashMap.getElem?_insert] at hid
        split at hid
        · cases hid
          exact hissue
        · exact fun hmem => hfirst identifier id hid (List.mem_cons_of_mem issue.id hmem)

/-- The first cycle of parents is where the third pass stops. -/
lemma foretells_parentCycles (issues : List Issue) (parents : Array (Option Nat)) :
    Foretells ((parentCycles parents).map (parentCycle issues))
      (Forest.checkParents issues parents) := by
  unfold Forest.checkParents
  cases parentCycles parents with
  | nil => exact hasError_nil
  | cons cycle cycles => exact .of_ofError _ _ _

/-- The first dependency on an unknown id is where the last pass stops. -/
lemma foretells_unresolved {index : Index} {ids : List String}
    (hindex : ∀ id : String, index.contains id = decide (id ∈ ids)) (issues : List Issue) :
    Foretells (issues.flatMap fun issue =>
        (issue.dependencies.filter (· ∉ ids)).map (unresolved .reject issue.id))
      (Forest.checkDependencies index issues) := by
  have hmissing : (fun id : String => !index.contains id) = fun id => decide (id ∉ ids) := by
    funext id
    rw [hindex, decide_not]
  induction issues with
  | nil => exact hasError_nil
  | cons issue issues ih =>
    have hhead := List.head?_filter (p := fun id => decide (id ∉ ids)) (l := issue.dependencies)
    rw [Forest.checkDependencies, List.flatMap_cons, hmissing, ← hhead]
    cases issue.dependencies.filter (· ∉ ids) with
    | nil => exact ih
    | cons id others => exact .of_ofError _ _ _

/-- Dependencies on unknown ids are harmless if they are dropped. -/
lemma not_hasError_missing_drop (issues : List Issue) : ¬ HasError (missing .drop issues) := by
  simp [missing, hasError_flatMap, hasError_map, severity_unresolved]

/-- The findings on what a forest is built from. -/
def structural (issues : List Issue) (policy : MissingPolicy) : List Diagnostic :=
  duplicates ∅ issues ++
  (identifiers ∅ issues ++
  (issues.flatMap (unknownParent (Index.ofIds (issues.map Issue.id))) ++
  ((parentCycles (parentTable issues)).map (parentCycle issues) ++
  missing policy issues)))

end Check

namespace Forest

/-- The passes in which a forest is built, one after the other. -/
lemma build_eq_passes (issues : List Issue) (directory : Directory)
    (categoryField : Option String) (policy : MissingPolicy) :
    build issues directory categoryField policy =
      indexIssues ∅ 0 issues >>= fun index =>
        checkIdentifiers ∅ issues >>= fun _ =>
          checkParents issues (parentLinks index issues) >>= fun _ =>
            (if policy = .reject then checkDependencies index issues else .ok ()).map fun _ =>
              link directory categoryField index issues (parentLinks index issues) := by
  cases policy <;> rfl

/-- The structural findings tell how the building of a forest ends. -/
lemma foretells_build (issues : List Issue) (directory : Directory)
    (categoryField : Option String) (policy : MissingPolicy) :
    Foretells (Check.structural issues policy)
      (build issues directory categoryField policy) := by
  rw [build_eq_passes]
  refine (Check.foretells_duplicates ∅ ∅ 0 issues fun id => by simp).bind fun index hindex => ?_
  obtain ⟨hnodup, hlookup⟩ := lookup_of_indexIssues_eq_ok hindex
  have hlinks : parentLinks index issues = parentTable issues := parentLinks_congr hlookup issues
  have hknown := contains_of_indexIssues_eq_ok hindex
  refine (Check.foretells_identifiers ∅ issues hnodup (by simp)).bind fun _ _ => ?_
  have hparents : ¬ HasError
      (issues.flatMap (Check.unknownParent (Index.ofIds (issues.map Issue.id)))) := by
    simp [hasError_flatMap, Check.not_hasError_unknownParent]
  rw [hlinks]
  refine .append_left hparents ((Check.foretells_parentCycles issues _).bind fun _ _ => .map ?_ _)
  cases policy with
  | reject => exact Check.foretells_unresolved hknown issues
  | drop => exact Check.not_hasError_missing_drop issues

end Forest

/-- There is an error among the structural findings just when no forest can be built. -/
lemma Check.hasError_structural_iff (issues : List Issue) (policy : MissingPolicy) :
    HasError (structural issues policy) ↔ ¬ Forest.Buildable issues policy := by
  have hforetells := Forest.foretells_build issues .empty none policy
  constructor
  · intro herror hbuildable
    rw [Forest.build_eq_ok_iff.mpr ⟨hbuildable, rfl⟩] at hforetells
    exact hforetells herror
  · intro hfails
    by_contra herror
    cases hbuild : Forest.build issues .empty none policy with
    | ok forest => exact hfails (Forest.build_eq_ok_iff.mp hbuild).1
    | error error =>
      rw [hbuild] at hforetells
      obtain ⟨item, hfirst⟩ := hforetells
      rw [firstError?_eq_none_iff.mpr herror] at hfirst
      cases hfirst

end PlanChart
