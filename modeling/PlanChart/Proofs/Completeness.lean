import PlanChart.Proofs.Checking
import PlanChart.Proofs.Findings
import PlanChart.Proofs.Naming
import PlanChart.Proofs.ParentOrbit

/-!
# A report misses nothing

Drawing stops at the first fault, so of several faults it shows one. A check reports every fault
once for each place where it occurs, whatever else is wrong with the plan. What it reports can be
told from the plan alone: for each kind of fault there is a list of the places.

The tables that a check keeps while it goes over the issues hold what the issues before have put
there, so the inductions here go over the issues that are left, given those before.
-/

namespace PlanChart

/-! ### The places of faults -/

/-- The issue at a position has the id of an earlier issue. -/
def RepeatsId (issues : List Issue) (position : Nat) : Prop :=
  ∃ i < position, (issueAt issues i).id = (issueAt issues position).id

instance (issues : List Issue) : DecidablePred (RepeatsId issues) := fun position =>
  inferInstanceAs (Decidable (∃ i < position, (issueAt issues i).id = (issueAt issues position).id))

/-- The positions of the issues whose id an earlier issue has. -/
def repeatedPositions (issues : List Issue) : List Nat :=
  (List.range issues.length).filter (RepeatsId issues ·)

/-- The first issue with the same identifier, if that has another id. -/
def Issue.rival? (issue : Issue) (issues : List Issue) : Option Issue :=
  (issues.find? (·.identifier = issue.identifier)).filter (·.id ≠ issue.id)

/-- The ids that are keywords, each of them once. -/
def keywordIds (issues : List Issue) : List String :=
  (issues.map Issue.id).eraseDups.filter Identifier.isKeyword

/-- The position of the first issue that has the id of an issue's parent. -/
def parentPosition? (issues : List Issue) (position : Nat) : Option Nat :=
  issues[position]?.bind fun issue => issue.parentId?.bind ((issues.map Issue.id).idxOf? ·)

/-- The dependencies on ids that no issue has, each with its issue. -/
def unknownDependencies (issues : List Issue) : List (Issue × String) :=
  issues.flatMap fun issue =>
    (issue.dependencies.filter (· ∉ issues.map Issue.id)).map fun id => (issue, id)

/-- The colour literal that a category sets for a role, if it is malformed. -/
def Category.malformedColor? (category : Category) (role : ColorRole) : Option String :=
  (category.color? role).filter fun literal => !(Color.normalize literal).isOk

/-- The malformed colours that the categories of a directory set, each with its category and role.
-/
def Directory.malformedColors (directory : Directory) : List (Category × ColorRole × String) :=
  directory.categoryList.flatMap fun category =>
    [ColorRole.foreground, ColorRole.background].flatMap fun role =>
      (category.malformedColor? role).toList.map fun literal => (category, role, literal)

/-! ### Complete reports -/

/-- The codes of the findings that tell only of what drawing leaves out or shows otherwise than one
would expect. -/
def adviceCodes : List String :=
  ["UNKNOWN_PARENT", "UNKNOWN_ASSIGNEE", "UNKNOWN_CATEGORY", "DEPENDENCY_CYCLE"]

/-- The codes of the findings on faults. -/
def faultCodes : List String :=
  ["DUPLICATE_ITEM", "IDENTIFIER_COLLISION", "RESERVED_IDENTIFIER", "PARENT_CYCLE",
    "UNRESOLVED_DEPENDENCY", "INVALID_COLOR"]

/-- A report on a plan has one finding for each place of a fault, and besides nothing but warnings
of what is left out. -/
structure Report.Complete (report : Report) (issues : List Issue) (directory : Directory)
    (categoryField : Option String) (policy : MissingPolicy) : Prop where
  issues_eq : report.issues = issues.length
  errors_eq : report.errors = (report.diagnostics.filter (·.severity = .error)).length
  warnings_eq : report.warnings = (report.diagnostics.filter (·.severity = .warning)).length
  duplicates_eq : withCode "DUPLICATE_ITEM" report.diagnostics =
    (repeatedPositions issues).map fun i =>
      .ofError (.duplicateItem (issueAt issues i).id) (issueAt issues i).id
  collisions_eq : withCode "IDENTIFIER_COLLISION" report.diagnostics =
    issues.flatMap fun issue => (issue.rival? issues).toList.map fun first =>
      .ofError (.identifierCollision first.id issue.id issue.identifier) issue.id
  keywords_eq : withCode "RESERVED_IDENTIFIER" report.diagnostics =
    (keywordIds issues).map fun id => .ofError (.reservedIdentifier id id) id
  parentCycles_eq : ∃ cycles : List (List Nat),
    (∀ orbit, orbit ∈ cycles.map Cycle.ofList ↔ IsOrbit (parentPosition? issues) orbit) ∧
    (cycles.map Cycle.ofList).Nodup ∧
    withCode "PARENT_CYCLE" report.diagnostics = cycles.map fun cycle =>
      .ofError (.parentCycle (Forest.cycleIds issues cycle)) (Forest.cycleIds issues cycle).head?
  unknownDependencies_eq : withCode "UNRESOLVED_DEPENDENCY" report.diagnostics =
    (unknownDependencies issues).map fun (issue, id) =>
      match policy with
      | .reject => .ofError (.unresolvedDependency issue.id id) issue.id
      | .drop => .ofHarmless (.unresolvedDependency issue.id id) "; the edge is dropped" issue.id
  malformedColors_eq : withCode "INVALID_COLOR" report.diagnostics =
    directory.malformedColors.map fun (category, role, literal) =>
      if ∃ issue ∈ issues, issue.drawnCategory? directory categoryField = some category then
        .ofError (.invalidColor category.id role literal) none
      else .ofHarmless (.invalidColor category.id role literal) " (no issue uses it)" none
  advice : ∀ diagnostic ∈ report.diagnostics,
    diagnostic.code ∈ faultCodes ∨
    diagnostic.code ∈ adviceCodes ∧ diagnostic.severity = .warning

/-! ### Repeated ids -/

lemma issueAt_append_cons (before issues : List Issue) (issue : Issue) :
    issueAt (before ++ issue :: issues) before.length = issue := by
  simp [issueAt]

lemma repeatsId_iff (before issues : List Issue) (issue : Issue) :
    RepeatsId (before ++ issue :: issues) before.length ↔ issue.id ∈ before.map Issue.id := by
  have hold : ∀ i < before.length, issueAt (before ++ issue :: issues) i = issueAt before i :=
    fun i hi => by simp [issueAt, List.getElem?_append_left hi]
  rw [RepeatsId, issueAt_append_cons, List.mem_map]
  constructor
  · rintro ⟨i, hi, heq⟩
    rw [hold i hi, issueAt_eq hi] at heq
    exact ⟨before[i], List.getElem_mem hi, heq⟩
  · rintro ⟨other, hother, heq⟩
    obtain ⟨i, hi, rfl⟩ := List.getElem_of_mem hother
    exact ⟨i, hi, by rw [hold i hi, issueAt_eq hi, heq]⟩

namespace Check

lemma duplicates_eq_from {seen : Std.HashSet String} {before : List Issue}
    (hseen : ∀ id, id ∈ seen ↔ id ∈ before.map Issue.id) (issues : List Issue) :
    duplicates seen issues =
      ((List.range' before.length issues.length).filter (RepeatsId (before ++ issues) ·)).map
        fun i => .ofError (.duplicateItem (issueAt (before ++ issues) i).id)
          (issueAt (before ++ issues) i).id := by
  induction issues generalizing seen before with
  | nil => rfl
  | cons issue issues ih =>
    have hnext : before ++ issue :: issues = (before ++ [issue]) ++ issues := by simp
    have hlength : before.length + 1 = (before ++ [issue]).length := by simp
    have hids : ∀ id, id ∈ (before ++ [issue]).map Issue.id ↔ id ∈ seen ∨ id = issue.id := by
      simp [hseen]
    rw [duplicates, List.length_cons, List.range'_succ, List.filter_cons]
    simp only [Std.HashSet.contains_iff_mem, decide_eq_true_eq, repeatsId_iff, ← hseen]
    -- A repeated id is known already, so the set stays as it is; a new one is added to it.
    by_cases hmem : issue.id ∈ seen
    · have hseen' : ∀ id, id ∈ seen ↔ id ∈ (before ++ [issue]).map Issue.id := by
        intro id
        rw [hids, or_iff_left_of_imp (fun heq => heq ▸ hmem)]
      rw [if_pos hmem, if_pos hmem, List.map_cons, issueAt_append_cons, ih hseen', hlength, hnext]
    · have hseen' : ∀ id, id ∈ seen.insert issue.id ↔ id ∈ (before ++ [issue]).map Issue.id := by
        intro id
        rw [hids, Std.HashSet.mem_insert, beq_iff_eq, or_comm, eq_comm]
      rw [if_neg hmem, if_neg hmem, ih hseen', hlength, hnext]

/-- A check reports the issues whose id an earlier issue has. -/
lemma duplicates_eq (issues : List Issue) :
    duplicates ∅ issues = (repeatedPositions issues).map fun i =>
      .ofError (.duplicateItem (issueAt issues i).id) (issueAt issues i).id := by
  have hseen : ∀ id, id ∈ (∅ : Std.HashSet String) ↔ id ∈ ([] : List Issue).map Issue.id := by
    simp
  rw [duplicates_eq_from hseen]
  simp [repeatedPositions, List.range_eq_range']

/-! ### Identifiers -/

/-- What a check finds with the identifier of an issue, given the first of the issues before it that
have the same identifier. -/
def identifier (earlier : Option Issue) (issue : Issue) : List Diagnostic :=
  match earlier with
  | some first =>
    if first.id = issue.id then []
    else [.ofError (.identifierCollision first.id issue.id issue.identifier) issue.id]
  | none =>
    if Identifier.isKeyword issue.identifier then
      [.ofError (.reservedIdentifier issue.id issue.identifier) issue.id]
    else []

/-- A table holds, for every identifier, the id of the first issue that has it. -/
def HoldsFirst (table : Std.HashMap String String) (issues : List Issue) : Prop :=
  ∀ identifier : String,
    table[identifier]? = (issues.find? (·.identifier = identifier)).map Issue.id

lemma holdsFirst_nil : HoldsFirst ∅ [] := by
  simp [HoldsFirst]

lemma identifiers_cons {first : Std.HashMap String String} {before : List Issue}
    (h : HoldsFirst first before) (issue : Issue) (issues : List Issue) :
    ∃ next, HoldsFirst next (before ++ [issue]) ∧
      identifiers first (issue :: issues) =
        identifier (before.find? (·.identifier = issue.identifier)) issue ++
          identifiers next issues := by
  have hissue := h issue.identifier
  rw [identifiers]
  dsimp only
  rw [show Identifier.ofText issue.id = issue.identifier from rfl, hissue]
  -- The table gets a new entry only for an identifier that no earlier issue has.
  cases hearlier : before.find? (·.identifier = issue.identifier) with
  | some earlier =>
    refine ⟨first, fun identifier => ?_, ?_⟩
    · rw [h, List.find?_append]
      by_cases heq : issue.identifier = identifier
      · rw [← heq, hearlier, Option.some_or]
      · simp [heq]
    · simp only [Option.map_some, identifier]
      split <;> rfl
  | none =>
    refine ⟨first.insert issue.identifier issue.id, fun identifier => ?_, ?_⟩
    · rw [Std.HashMap.getElem?_insert, h, List.find?_append]
      by_cases heq : issue.identifier = identifier
      · simp [← heq, hearlier]
      · simp [heq]
    · simp only [Option.map_none, identifier]
      split <;> rfl

lemma withCode_collision_identifier (before issues : List Issue) (issue : Issue) :
    withCode "IDENTIFIER_COLLISION"
        (identifier (before.find? (·.identifier = issue.identifier)) issue) =
      (issue.rival? (before ++ issue :: issues)).toList.map fun first =>
        .ofError (.identifierCollision first.id issue.id issue.identifier) issue.id := by
  rw [Issue.rival?, List.find?_append]
  cases before.find? (·.identifier = issue.identifier) with
  | some first =>
    by_cases heq : first.id = issue.id
    · simp [identifier, withCode, heq]
    · simp [identifier, withCode, heq, Diagnostic.ofError, PlanError.code, Option.filter]
  | none =>
    rw [identifier, Option.none_or, List.find?_cons_of_pos (by simp)]
    split <;> simp [withCode, Diagnostic.ofError, PlanError.code]

lemma withCode_collision_identifiers {first : Std.HashMap String String} {before : List Issue}
    (h : HoldsFirst first before) (issues : List Issue) :
    withCode "IDENTIFIER_COLLISION" (identifiers first issues) =
      issues.flatMap fun issue => (issue.rival? (before ++ issues)).toList.map fun first =>
        .ofError (.identifierCollision first.id issue.id issue.identifier) issue.id := by
  induction issues generalizing first before with
  | nil => rfl
  | cons issue issues ih =>
    obtain ⟨next, hnext, heq⟩ := identifiers_cons h issue issues
    rw [heq, withCode_append, withCode_collision_identifier before issues, ih hnext,
      List.flatMap_cons, List.append_cons before issue issues]

/-- An issue whose id is a keyword shares its identifier with issues of the same id only. -/
lemma identifier_eq_iff_of_isKeyword {issue : Issue} (h : Identifier.isKeyword issue.id = true)
    (other : Issue) : other.identifier = issue.identifier ↔ other.id = issue.id := by
  have hissue : issue.identifier = issue.id := Identifier.ofText_of_isKeyword h
  constructor
  · intro heq
    rw [hissue] at heq
    have hother : other.identifier = other.id :=
      Identifier.ofText_eq_of_isKeyword (show Identifier.isKeyword other.identifier = true from
        heq ▸ h)
    rw [← hother, heq]
  · exact fun heq => congrArg Identifier.ofText heq

lemma withCode_reserved_identifier (before : List Issue) (issue : Issue) :
    withCode "RESERVED_IDENTIFIER"
        (identifier (before.find? (·.identifier = issue.identifier)) issue) =
      if issue.id ∉ before.map Issue.id ∧ Identifier.isKeyword issue.id then
        [.ofError (.reservedIdentifier issue.id issue.id) issue.id]
      else [] := by
  by_cases hkeyword : Identifier.isKeyword issue.id = true
  · have hissue : issue.identifier = issue.id := Identifier.ofText_of_isKeyword hkeyword
    -- An id that is a keyword has no other identifier, so equal identifiers mean equal ids.
    simp only [identifier_eq_iff_of_isKeyword hkeyword]
    cases hfirst : before.find? (·.id = issue.id) with
    | none =>
      have hnew : issue.id ∉ before.map Issue.id := by simpa using hfirst
      rw [if_pos ⟨hnew, hkeyword⟩, identifier, hissue, if_pos hkeyword]
      rfl
    | some first =>
      have hid : first.id = issue.id := by simpa using List.find?_some hfirst
      have hmem : issue.id ∈ before.map Issue.id :=
        hid ▸ List.mem_map_of_mem (List.mem_of_find?_eq_some hfirst)
      rw [if_neg (fun h => h.1 hmem), identifier, if_pos hid]
      rfl
  · rw [if_neg (fun h => hkeyword h.2), identifier.eq_def]
    split
    · split <;> simp [withCode, Diagnostic.ofError, PlanError.code]
    · split
      · rename_i h
        exact absurd (Identifier.ofText_eq_of_isKeyword h ▸ h) hkeyword
      · rfl

/-- Going on past an id, the distinct ids that are new are the same, but for this one. -/
lemma eraseDups_removeAll_cons (id : String) (ids before : List String) :
    ((id :: ids).removeAll before).eraseDups =
      (if id ∉ before then [id] else []) ++ (ids.removeAll (before ++ [id])).eraseDups := by
  have hrest : ids.removeAll (before ++ [id]) = (ids.removeAll before).filter (!· == id) := by
    simp only [List.removeAll, List.filter_filter]
    exact List.filter_congr fun other _ => by simp [Bool.and_comm, Bool.beq_eq_decide_eq]
  rw [List.cons_removeAll, hrest]
  by_cases hmem : id ∈ before
  · have hself : (ids.removeAll before).filter (!· == id) = ids.removeAll before := by
      refine List.filter_eq_self.mpr fun other hother => ?_
      have hnew : other ∉ before := by simpa [List.removeAll] using (List.mem_filter.mp hother).2
      simpa using fun heq : other = id => hnew (heq ▸ hmem)
    simp [hmem, hself]
  · simp [hmem, List.eraseDups_cons]

lemma withCode_reserved_identifiers {first : Std.HashMap String String} {before : List Issue}
    (h : HoldsFirst first before) (issues : List Issue) :
    withCode "RESERVED_IDENTIFIER" (identifiers first issues) =
      (((issues.map Issue.id).removeAll (before.map Issue.id)).eraseDups.filter
        Identifier.isKeyword).map fun id => .ofError (.reservedIdentifier id id) id := by
  induction issues generalizing first before with
  | nil => rfl
  | cons issue issues ih =>
    obtain ⟨next, hnext, heq⟩ := identifiers_cons h issue issues
    rw [heq, withCode_append, withCode_reserved_identifier, ih hnext, List.map_cons,
      eraseDups_removeAll_cons, List.filter_append, List.map_append, List.map_append,
      List.map_singleton]
    congr 1
    by_cases hmem : issue.id ∈ before.map Issue.id
    · rw [if_neg (fun h => h.1 hmem), if_neg (not_not_intro hmem)]
      rfl
    · rw [if_pos hmem]
      cases hkeyword : Identifier.isKeyword issue.id <;> simp [hmem, hkeyword]

/-! ### Colours -/

lemma malformedColor_eq (used : Std.HashSet String) (category : Category) (role : ColorRole) :
    malformedColor used category role =
      (category.malformedColor? role).toList.map fun literal =>
        if category.id ∈ used then .ofError (.invalidColor category.id role literal) none
        else .ofHarmless (.invalidColor category.id role literal) " (no issue uses it)" none := by
  unfold malformedColor Category.malformedColor?
  cases category.color? role with
  | none => rfl
  | some literal =>
    cases hnormal : Color.normalize literal with
    | ok color => simp [hnormal, Option.filter, Except.isOk, Except.toBool]
    | error error =>
      by_cases hused : category.id ∈ used <;>
        simp [hnormal, Option.filter, hused, Except.isOk, Except.toBool]

/-- A category is used just when an issue is drawn in it, provided that the directory has every
category under its own id. -/
lemma mem_usedCategories_iff {directory : Directory} (hbuilt : directory.Built)
    (categoryField : Option String) (issues : List Issue) {category : Category}
    (hcategory : category ∈ directory.categoryList) :
    category.id ∈ usedCategories categoryField issues ↔
      ∃ issue ∈ issues, issue.drawnCategory? directory categoryField = some category := by
  obtain ⟨id, hid⟩ := Directory.mem_categoryList_iff.mp hcategory
  obtain rfl : category.id = id := hbuilt.id_eq hid
  have hused : category.id ∈ usedCategories categoryField issues ↔
      ∃ issue ∈ issues, issue.categoryId? categoryField = some category.id := by
    simp [usedCategories, Std.HashSet.mem_ofList]
  rw [hused]
  refine exists_congr fun issue => and_congr_right fun _ => ?_
  rw [Issue.drawnCategory?, Option.bind_eq_some_iff]
  constructor
  · exact fun h => ⟨category.id, h, hid⟩
  · rintro ⟨other, hother, hfound⟩
    rw [hother, hbuilt.id_eq hfound]

lemma malformedColors_eq {directory : Directory} (hbuilt : directory.Built)
    (categoryField : Option String) (issues : List Issue) :
    directory.categoryList.flatMap (malformedColors (usedCategories categoryField issues)) =
      directory.malformedColors.map fun (category, role, literal) =>
        if ∃ issue ∈ issues, issue.drawnCategory? directory categoryField = some category then
          .ofError (.invalidColor category.id role literal) none
        else .ofHarmless (.invalidColor category.id role literal) " (no issue uses it)" none := by
  rw [Directory.malformedColors, List.map_flatMap]
  refine List.flatMap_congr fun category hcategory => ?_
  simp only [malformedColors, malformedColor_eq, mem_usedCategories_iff hbuilt categoryField issues
    hcategory, List.flatMap_cons, List.flatMap_nil, List.append_nil, List.map_append, List.map_map,
    Function.comp_def]

/-! ### All findings -/

section

variable (issues : List Issue) (directory : Directory) (categoryField : Option String)
  (policy : MissingPolicy)

lemma withCode_duplicates :
    withCode "DUPLICATE_ITEM" (check issues directory categoryField policy).diagnostics =
      duplicates ∅ issues := by
  rw [withCode_check]
  simp [lists, (hasCodes_duplicates _ _).withCode_eq_self]

lemma withCode_collision :
    withCode "IDENTIFIER_COLLISION" (check issues directory categoryField policy).diagnostics =
      withCode "IDENTIFIER_COLLISION" (identifiers ∅ issues) := by
  rw [withCode_check]
  simp [lists]

lemma withCode_reserved :
    withCode "RESERVED_IDENTIFIER" (check issues directory categoryField policy).diagnostics =
      withCode "RESERVED_IDENTIFIER" (identifiers ∅ issues) := by
  rw [withCode_check]
  simp [lists]

lemma withCode_parentCycle :
    withCode "PARENT_CYCLE" (check issues directory categoryField policy).diagnostics =
      (parentCycles (parentTable issues)).map (parentCycle issues) := by
  have hcodes : HasCodes ["PARENT_CYCLE"]
      ((parentCycles (parentTable issues)).map (parentCycle issues)) :=
    hasCodes_map fun _ => by simp [code_parentCycle]
  rw [withCode_check]
  simp [lists, hcodes.withCode_eq_self]

lemma withCode_malformedColors :
    withCode "INVALID_COLOR" (check issues directory categoryField policy).diagnostics =
      directory.categoryList.flatMap (malformedColors (usedCategories categoryField issues)) := by
  rw [withCode_check]
  simp [lists, (hasCodes_flatMap (hasCodes_malformedColors _)).withCode_eq_self]

lemma missing_eq :
    missing policy issues = (unknownDependencies issues).map fun (issue, id) =>
      unresolved policy issue.id id := by
  simp [missing, unknownDependencies, List.map_flatMap, Function.comp_def]

/-- Apart from the faults that a report lists in full, it holds warnings of what is left out. -/
lemma advice_of_mem {diagnostic : Diagnostic}
    (h : diagnostic ∈ (check issues directory categoryField policy).diagnostics) :
    diagnostic.code ∈ faultCodes ∨
      diagnostic.code ∈ adviceCodes ∧ diagnostic.severity = .warning := by
  have hlists : ∀ list ∈ lists issues directory categoryField policy,
      list.1 ⊆ faultCodes ∨ list.1 ⊆ adviceCodes ∧ ¬ HasError list.2 := by
    simp only [lists, List.forall_mem_cons, hasError_flatMap issues, hasError_append,
      not_hasError_unknownParent, not_hasError_dependencyCycle, not_hasError_unknownAssignee,
      not_hasError_unknownCategory, or_self, and_false, exists_false]
    simp [faultCodes, adviceCodes]
  rw [diagnostics_eq] at h
  obtain ⟨list, hlist, hmem⟩ := List.mem_flatMap.mp h
  have hcode := hasCodes_lists issues directory categoryField policy list hlist diagnostic hmem
  refine (hlists list hlist).imp (· hcode) fun ⟨hadvice, hharmless⟩ => ⟨hadvice hcode, ?_⟩
  cases hseverity : diagnostic.severity with
  | error => exact absurd ⟨diagnostic, hmem, hseverity⟩ hharmless
  | warning => rfl

end

end Check

/-- A check reports every fault of a plan, once for each place where it occurs. -/
theorem check_complete (issues : List Issue) {directory : Directory} (hbuilt : directory.Built)
    (categoryField : Option String) (policy : MissingPolicy) :
    (check issues directory categoryField policy).Complete issues directory categoryField
      policy where
  issues_eq := rfl
  errors_eq := List.countP_eq_length_filter
  warnings_eq := List.countP_eq_length_filter
  duplicates_eq := by rw [Check.withCode_duplicates, Check.duplicates_eq]
  collisions_eq := by
    rw [Check.withCode_collision, Check.withCode_collision_identifiers Check.holdsFirst_nil]
    rfl
  keywords_eq := by
    rw [Check.withCode_reserved, Check.withCode_reserved_identifiers Check.holdsFirst_nil,
      List.map_nil, List.removeAll_nil]
    rfl
  parentCycles_eq := by
    refine ⟨parentCycles (parentTable issues), fun orbit => ?_, nodup_parentCycles _,
      Check.withCode_parentCycle _ _ _ _⟩
    -- The orbits are those of the table, which tells the same parents as the issues.
    have hup : parentIn (parentTable issues) = parentPosition? issues :=
      funext (parentIn_parentTable issues)
    rw [mem_parentCycles_iff, hup]
  unknownDependencies_eq := by
    rw [Check.withCode_unresolved, Check.missing_eq]
    rfl
  malformedColors_eq := by
    rw [Check.withCode_malformedColors, Check.malformedColors_eq hbuilt]
  advice diagnostic := Check.advice_of_mem issues directory categoryField policy

/-- A plan in which one id is used twice, three ids have one identifier, a keyword occurs in two
letter cases, and an issue has its parent on a cycle. -/
def crowdedIssues : List Issue :=
  [ { id := "A-1", parent := some "A-3", dependencies := ["GONE", "A_1", "GONE"] },
    { id := "A_1" },
    { id := "A-1", parent := some "GONE" },
    { id := "A.1", dependencies := ["GONE"] },
    { id := "A-3", parent := some "A-1" },
    { id := "Node", parent := some "A-3" },
    { id := "NODE" },
    { id := "Node" } ]

theorem check_crowdedIssues_complete :
    Directory.empty.Built ∧
      (withCode "DUPLICATE_ITEM" (check crowdedIssues .empty none .drop).diagnostics).map
        (·.item) = [some "A-1", some "Node"] ∧
      (withCode "IDENTIFIER_COLLISION" (check crowdedIssues .empty none .drop).diagnostics).map
        (·.item) = [some "A_1", some "A.1"] ∧
      (withCode "RESERVED_IDENTIFIER" (check crowdedIssues .empty none .drop).diagnostics).map
        (·.item) = [some "Node", some "NODE"] ∧
      (withCode "UNRESOLVED_DEPENDENCY" (check crowdedIssues .empty none .drop).diagnostics).map
        (fun diagnostic => (diagnostic.severity, diagnostic.item)) =
          [(.warning, some "A-1"), (.warning, some "A-1"), (.warning, some "A.1")] ∧
      withCode "PARENT_CYCLE" (check crowdedIssues .empty none .drop).diagnostics ≠ [] := by
  have h := check_complete crowdedIssues .empty none .drop
  refine ⟨.empty, ?_, ?_, ?_, ?_, ?_⟩
  · rw [h.duplicates_eq]
    decide +kernel
  · rw [h.collisions_eq]
    decide +kernel
  · rw [h.keywords_eq]
    decide +kernel
  · rw [h.unknownDependencies_eq]
    decide +kernel
  · obtain ⟨cycles, hcycles, -, heq⟩ := h.parentCycles_eq
    have hparents : parentPosition? crowdedIssues 0 = some 4 ∧
        parentPosition? crowdedIssues 4 = some 0 := by decide +kernel
    have horbit : IsOrbit (parentPosition? crowdedIssues) (Cycle.ofList [0, 4]) :=
      ⟨by simp, by simp, by simpa using hparents⟩
    obtain ⟨cycle, hcycle, -⟩ := List.mem_map.mp ((hcycles _).mpr horbit)
    rw [heq]
    exact List.ne_nil_of_mem (List.mem_map_of_mem hcycle)

end PlanChart


