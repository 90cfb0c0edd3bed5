import PlanChart.Proofs.Findings

/-!
# What the policy changes

A check goes over a plan in the same way under both policies. It is only that a dependency on an id
that no issue has is an error where such dependencies are rejected, and a warning where they are
dropped. So the findings under one policy give those under the other, each at its own place.
-/

namespace PlanChart

/-- Every finding is an error or a warning. -/
lemma Report.errors_add_warnings (report : Report) :
    report.errors + report.warnings = report.diagnostics.length := by
  rw [errors, warnings, List.length_eq_countP_add_countP (·.severity = .error)]
  congr 1
  apply List.countP_congr
  intro diagnostic _
  cases diagnostic.severity <;> simp

namespace Diagnostic

variable {diagnostic : Diagnostic}

/-- A finding is the error that a dependency is on an id that no issue has. -/
def IsMissing (diagnostic : Diagnostic) : Prop :=
  diagnostic.severity = .error ∧ diagnostic.code = "UNRESOLVED_DEPENDENCY"

instance : DecidablePred IsMissing := fun diagnostic =>
  inferInstanceAs (Decidable (diagnostic.severity = .error ∧ _))

/-- What becomes of a finding where missing dependencies are no longer rejected but dropped. -/
def relax (diagnostic : Diagnostic) : Diagnostic :=
  if diagnostic.IsMissing then
    { diagnostic with
      severity := .warning
      message := diagnostic.message ++ "; the edge is dropped" }
  else diagnostic

lemma relax_of_code_ne (h : diagnostic.code ≠ "UNRESOLVED_DEPENDENCY") :
    diagnostic.relax = diagnostic :=
  if_neg fun hmissing => h hmissing.2

lemma severity_relax_eq_error_iff : diagnostic.relax.severity = .error ↔
    diagnostic.severity = .error ∧ ¬ diagnostic.IsMissing := by
  by_cases h : diagnostic.IsMissing <;> simp [relax, h]

/-- The errors are those that are left, and those that have become warnings. -/
lemma countP_error_map_relax (diagnostics : List Diagnostic) :
    (diagnostics.map relax).countP (·.severity = .error) + diagnostics.countP (IsMissing ·) =
      diagnostics.countP (·.severity = .error) := by
  induction diagnostics with
  | nil => rfl
  | cons diagnostic diagnostics ih =>
    simp only [List.map_cons, List.countP_cons, severity_relax_eq_error_iff, decide_eq_true_eq,
      ← ih]
    by_cases h : diagnostic.IsMissing
    · simp only [h.1, h, not_true_eq_false, and_false, if_true, if_false]
      omega
    · simp only [h, not_false_eq_true, and_true, if_false]
      omega

end Diagnostic

lemma HasCodes.map_relax {codes : List String} {diagnostics : List Diagnostic}
    (h : HasCodes codes diagnostics) (hcodes : "UNRESOLVED_DEPENDENCY" ∉ codes) :
    diagnostics.map Diagnostic.relax = diagnostics := by
  rw [List.map_congr_left, List.map_id]
  intro diagnostic hdiagnostic
  apply Diagnostic.relax_of_code_ne
  intro heq
  exact hcodes (heq ▸ h diagnostic hdiagnostic)

namespace Check

lemma isMissing_unresolved (item dependency : String) :
    (unresolved .reject item dependency).IsMissing :=
  ⟨rfl, rfl⟩

lemma relax_unresolved (item dependency : String) :
    (unresolved .reject item dependency).relax = unresolved .drop item dependency :=
  if_pos (isMissing_unresolved item dependency)

lemma isMissing_of_mem_missing {issues : List Issue} {diagnostic : Diagnostic}
    (h : diagnostic ∈ missing .reject issues) : diagnostic.IsMissing := by
  obtain ⟨issue, -, hmem⟩ := List.mem_flatMap.mp h
  obtain ⟨id, -, rfl⟩ := List.mem_map.mp hmem
  exact isMissing_unresolved issue.id id

lemma map_relax_missing (issues : List Issue) :
    (missing .reject issues).map Diagnostic.relax = missing .drop issues := by
  simp [missing, List.map_flatMap, relax_unresolved, Function.comp_def]

lemma length_missing (policy : MissingPolicy) (issues : List Issue) :
    (missing policy issues).length =
      (issues.flatMap Issue.dependencies).countP (· ∉ issues.map Issue.id) := by
  simp [missing, List.length_flatMap, List.countP_eq_length_filter, List.filter_flatMap]

section

variable (issues : List Issue) (directory : Directory) (categoryField : Option String)

/-- Dropping missing dependencies relaxes each finding at its place. -/
lemma diagnostics_drop : (check issues directory categoryField .drop).diagnostics =
    (check issues directory categoryField .reject).diagnostics.map Diagnostic.relax := by
  have hcodes := hasCodes_lists issues directory categoryField .reject
  simp only [lists, List.forall_mem_cons] at hcodes
  obtain ⟨hduplicates, hidentifiers, hparents, hcycles, -, hdependencies, hadvice, hcolors, -⟩ :=
    hcodes
  simp only [diagnostics_eq, lists, List.flatMap_cons, List.flatMap_nil, List.map_append,
    List.map_nil, hduplicates.map_relax (by decide), hidentifiers.map_relax (by decide),
    hparents.map_relax (by decide), hcycles.map_relax (by decide), map_relax_missing,
    hdependencies.map_relax (by decide), hadvice.map_relax (by decide),
    hcolors.map_relax (by decide)]

/-- There is one error for each entry that names no issue. -/
lemma countP_isMissing_reject :
    (check issues directory categoryField .reject).diagnostics.countP (·.IsMissing) =
      (issues.flatMap Issue.dependencies).countP (· ∉ issues.map Issue.id) := by
  have hunresolved := withCode_unresolved issues directory categoryField .reject
  rw [← length_missing .reject, ← hunresolved, withCode, ← List.countP_eq_length_filter]
  apply List.countP_congr
  intro diagnostic hdiagnostic
  simp only [decide_eq_true_eq]
  constructor
  · exact And.right
  · intro hcode
    have hmem : diagnostic ∈ missing .reject issues := by
      rw [← hunresolved]
      exact List.mem_filter.mpr ⟨hdiagnostic, decide_eq_true hcode⟩
    exact isMissing_of_mem_missing hmem

end

end Check

/-- The policy decides how grave missing dependencies are, and nothing else: each finding stays at
its place, and what is counted as an error under one policy is counted as a warning under the
other. -/
theorem check_drop_relaxes_reject (issues : List Issue) (directory : Directory)
    (categoryField : Option String) :
    let strict := check issues directory categoryField .reject
    let relaxed := check issues directory categoryField .drop
    let missing := (issues.flatMap Issue.dependencies).countP (· ∉ issues.map Issue.id)
    relaxed.diagnostics = strict.diagnostics.map Diagnostic.relax ∧
      strict.diagnostics.countP (·.IsMissing) = missing ∧
      strict.errors = relaxed.errors + missing ∧
      relaxed.warnings = strict.warnings + missing ∧
      relaxed.issues = strict.issues := by
  intro strict relaxed missing
  have hdiagnostics : relaxed.diagnostics = strict.diagnostics.map Diagnostic.relax :=
    Check.diagnostics_drop issues directory categoryField
  have hmissing : strict.diagnostics.countP (·.IsMissing) = missing :=
    Check.countP_isMissing_reject issues directory categoryField
  have herrors : strict.errors = relaxed.errors + missing := by
    rw [Report.errors, Report.errors, hdiagnostics, ← hmissing, Diagnostic.countP_error_map_relax]
  refine ⟨hdiagnostics, hmissing, herrors, ?_, rfl⟩
  -- What is no error is a warning, so the errors and the number of findings fix the warnings.
  have hlength : relaxed.diagnostics.length = strict.diagnostics.length := by
    rw [hdiagnostics, List.length_map]
  rw [← Report.errors_add_warnings, ← Report.errors_add_warnings] at hlength
  omega

end PlanChart
