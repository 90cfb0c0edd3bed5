import PlanChart.Proofs.CycleListing

/-!
# Why a forest is not built

The forest of a plan is built unless the plan has a fault. What counts as a fault can be said of the
issues alone: that an id is used twice, that two ids have one identifier, that an identifier is a
keyword, that an issue is above itself, and, unless such dependencies are dropped, that an issue
depends on an id that no issue has. The error that stops the building names a fault of its kind.
-/

namespace PlanChart

/-- An entry stands in a list before one that has been put behind it. -/
lemma pair_sublist_append_cons {α : Type} {a b : α} {front : List α} (h : a ∈ front)
    (back : List α) : [a, b].Sublist (front ++ b :: back) :=
  (List.singleton_sublist.mpr h).append (List.singleton_sublist.mpr List.mem_cons_self)

namespace Forest

/-! ### Plans without a fault -/

/-- An issue names another issue of the plan, or itself, as its parent. -/
def HasParent (issues : List Issue) (issue parent : Issue) : Prop :=
  issue ∈ issues ∧ parent ∈ issues ∧ issue.parentId? = some parent.id

/-- A plan without a fault. -/
structure Consistent (issues : List Issue) (policy : MissingPolicy) : Prop where
  ids_nodup : (issues.map Issue.id).Nodup
  identifier_inj : ∀ issue ∈ issues, ∀ other ∈ issues,
    Identifier.ofText issue.id = Identifier.ofText other.id → issue.id = other.id
  not_keyword : ∀ issue ∈ issues, Identifier.isKeyword (Identifier.ofText issue.id) = false
  not_above_itself : ∀ issue, ¬ Relation.TransGen (HasParent issues) issue issue
  dependencies_known : policy = .drop ∨
    ∀ issue ∈ issues, ∀ id ∈ issue.dependencies, ∃ other ∈ issues, other.id = id

section

variable {issues : List Issue}

lemma parentIn_idxOf_of_hasParent (hnodup : (issues.map Issue.id).Nodup) {issue parent : Issue}
    (h : HasParent issues issue parent) :
    parentIn (parentTable issues) ((issues.map Issue.id).idxOf issue.id) =
      some ((issues.map Issue.id).idxOf parent.id) := by
  obtain ⟨hissue, hparent, hid⟩ := h
  apply (parentIn_parentTable_eq_some_iff hnodup).mpr
  refine ⟨idxOf_id_lt hissue, idxOf_id_lt hparent, ?_⟩
  rw [← issueAt_eq, ← issueAt_eq, issueAt_idxOf_id hnodup hissue, issueAt_idxOf_id hnodup hparent]
  exact hid

lemma hasParent_of_parentIn (hnodup : (issues.map Issue.id).Nodup) {i p : Nat}
    (h : parentIn (parentTable issues) i = some p) :
    HasParent issues (issueAt issues i) (issueAt issues p) := by
  obtain ⟨hi, hp, hid⟩ := (parentIn_parentTable_eq_some_iff hnodup).mp h
  refine ⟨issueAt_mem hi, issueAt_mem hp, ?_⟩
  rw [issueAt_eq hi, issueAt_eq hp]
  exact hid

/-- Where ids are used once, the search finds no cycle just when no issue is above itself. -/
lemma parentCycles_parentTable_eq_nil_iff (hnodup : (issues.map Issue.id).Nodup) :
    parentCycles (parentTable issues) = [] ↔
      ∀ issue, ¬ Relation.TransGen (HasParent issues) issue issue := by
  constructor
  · intro hnil issue habove
    -- Without repeated ids the links between issues and those between positions are the same.
    have hback : Relation.TransGen (fun i p => parentIn (parentTable issues) i = some p)
        ((issues.map Issue.id).idxOf issue.id) ((issues.map Issue.id).idxOf issue.id) := by
      apply habove.lift fun issue => (issues.map Issue.id).idxOf issue.id
      intro child parent hparent
      exact parentIn_idxOf_of_hasParent hnodup hparent
    have hmem := (mem_flatten_parentCycles_iff _ _).mpr (transGen_iff_exists_ascend.mp hback)
    rw [hnil] at hmem
    cases hmem
  · intro habove
    by_contra hne
    obtain ⟨cycle, hcycle⟩ := List.exists_mem_of_ne_nil _ hne
    have horbit := (parentCycles_finds _).orbit cycle hcycle
    obtain ⟨i, hi⟩ := horbit.exists_mem
    have hback := transGen_iff_exists_ascend.mpr (exists_isOrbit_iff.mp ⟨_, horbit, hi⟩)
    apply habove (issueAt issues i)
    apply hback.lift (issueAt issues)
    intro child parent hparent
    exact hasParent_of_parentIn hnodup hparent

/-- Where ids are used once, identifiers are not shared just when different ids have different
identifiers. -/
lemma identifiers_nodup_iff (hnodup : (issues.map Issue.id).Nodup) :
    (issues.map Issue.identifier).Nodup ↔
      ∀ issue ∈ issues, ∀ other ∈ issues,
        Identifier.ofText issue.id = Identifier.ofText other.id → issue.id = other.id := by
  have hids : issues.map Issue.identifier = (issues.map Issue.id).map Identifier.ofText := by
    rw [List.map_map]
    rfl
  rw [hids, List.nodup_map_iff_inj_on hnodup]
  simp only [List.forall_mem_map]

lemma buildable_iff_consistent {policy : MissingPolicy} :
    Buildable issues policy ↔ Consistent issues policy := by
  constructor
  · intro h
    exact {
      ids_nodup := h.ids_nodup
      identifier_inj := (identifiers_nodup_iff h.ids_nodup).mp h.identifiers_nodup
      not_keyword := h.not_keyword
      not_above_itself := (parentCycles_parentTable_eq_nil_iff h.ids_nodup).mp h.no_cycle
      dependencies_known := by
        -- Only a plan that rejects unknown dependencies says anything about them.
        cases policy with
        | drop => exact Or.inl rfl
        | reject =>
          right
          intro issue hissue id hid
          exact List.mem_map.mp (h.known rfl issue hissue id hid) }
  · intro h
    exact {
      ids_nodup := h.ids_nodup
      identifiers_nodup := (identifiers_nodup_iff h.ids_nodup).mpr h.identifier_inj
      not_keyword := h.not_keyword
      no_cycle := (parentCycles_parentTable_eq_nil_iff h.ids_nodup).mpr h.not_above_itself
      known := by
        intro hpolicy issue hissue id hid
        rcases h.dependencies_known with hdrop | hknown
        · rw [hpolicy] at hdrop
          cases hdrop
        · exact List.mem_map.mpr (hknown issue hissue id hid) }

end

end Forest

/-! ### Faults -/

/-- The issues have the fault that an error names. An issue is given by its id, and it is the first
one that has this id. -/
def PlanError.IsFaultOf (issues : List Issue) : PlanError → Prop
  | invalidColor .. => False
  | duplicateItem id => [id, id].Sublist (issues.map Issue.id)
  | identifierCollision first second identifier =>
    first ≠ second ∧ [first, second].Sublist (issues.map Issue.id) ∧
      Identifier.ofText first = identifier ∧ Identifier.ofText second = identifier
  | reservedIdentifier id identifier =>
    id ∈ issues.map Issue.id ∧ Identifier.ofText id = identifier ∧
      Identifier.isKeyword identifier = true
  | parentCycle cycle =>
    2 ≤ cycle.length ∧ cycle.head? = cycle.getLast? ∧ cycle.dropLast.Nodup ∧
      cycle.IsChain fun child parent =>
        ∃ issue, issues.find? (·.id = child) = some issue ∧ issue.parentId? = some parent
  | unresolvedDependency item dependency =>
    (∃ issue, issues.find? (·.id = item) = some issue ∧ dependency ∈ issue.dependencies) ∧
      dependency ∉ issues.map Issue.id

namespace Forest

variable {issues : List Issue} {error : PlanError}

/-- The first pass stops at an id that it has met before. -/
lemma isFaultOf_of_indexIssues_eq_error (before : List Issue) {index : Index} {position : Nat}
    (hindex : ∀ id ∈ index, id ∈ before.map Issue.id)
    (h : indexIssues index position issues = .error error) :
    error.IsFaultOf (before ++ issues) := by
  induction issues generalizing before index position with
  | nil => cases h
  | cons issue issues ih =>
    rw [indexIssues] at h
    split at h
    · rename_i hcontains
      cases h
      have hmem := hindex issue.id (Std.HashMap.mem_iff_contains.mpr hcontains)
      rw [PlanError.IsFaultOf, List.map_append, List.map_cons]
      exact pair_sublist_append_cons hmem _
    · rw [List.append_cons]
      apply ih (before ++ [issue]) _ h
      intro id hid
      rw [List.map_append, List.mem_append]
      rcases Std.HashMap.mem_insert.mp hid with heq | hid
      · right
        simp [(beq_iff_eq.mp heq).symm]
      · exact Or.inl (hindex id hid)

/-- The second pass stops at an identifier that a different id has taken before, or at a keyword. -/
lemma isFaultOf_of_checkIdentifiers_eq_error (before : List Issue)
    {taken : Std.HashMap String String}
    (hnodup : ((before ++ issues).map Issue.id).Nodup)
    (htaken : ∀ identifier id : String, taken[identifier]? = some id →
      id ∈ before.map Issue.id ∧ Identifier.ofText id = identifier)
    (h : checkIdentifiers taken issues = .error error) : error.IsFaultOf (before ++ issues) := by
  induction issues generalizing before taken with
  | nil => cases h
  | cons issue issues ih =>
    rw [checkIdentifiers_cons] at h
    split at h
    · rename_i first hfirst
      cases h
      obtain ⟨hmem, hidentifier⟩ := htaken _ _ hfirst
      rw [List.map_append, List.map_cons] at hnodup
      -- The ids differ because the first pass has let both of them through.
      rw [PlanError.IsFaultOf, List.map_append, List.map_cons]
      refine ⟨?_, pair_sublist_append_cons hmem _, hidentifier, rfl⟩
      rintro rfl
      exact List.disjoint_of_nodup_append hnodup hmem List.mem_cons_self
    · split at h
      · rename_i hkeyword
        cases h
        refine ⟨?_, rfl, hkeyword⟩
        simp
      · rw [List.append_cons] at hnodup ⊢
        apply ih (before ++ [issue]) hnodup _ h
        intro identifier id hid
        -- An identifier is taken by this issue or by one before it.
        rw [Std.HashMap.getElem?_insert] at hid
        split at hid
        · rename_i heq
          cases hid
          exact ⟨by simp, beq_iff_eq.mp heq⟩
        · obtain ⟨hmem, hidentifier⟩ := htaken identifier id hid
          refine ⟨?_, hidentifier⟩
          rw [List.map_append, List.mem_append]
          exact Or.inl hmem

/-- The third pass stops at a cycle of issues, each of which names the next one as its parent. -/
lemma isFaultOf_of_checkParents_eq_error (hnodup : (issues.map Issue.id).Nodup)
    (h : checkParents issues (parentTable issues) = .error error) : error.IsFaultOf issues := by
  unfold checkParents at h
  split at h
  · cases h
  · rename_i cycle cycles hcycles
    cases h
    have hmem : cycle ∈ parentCycles (parentTable issues) := by simp [hcycles]
    have horbit := (parentCycles_finds _).orbit cycle hmem
    -- Different positions have different ids, so the ids of a cycle without repeats do not repeat.
    have hids : (cycle.map fun i => (issueAt issues i).id).Nodup := by
      apply List.Nodup.map_on _ (Cycle.nodup_coe_iff.mp horbit.nodup)
      intro i hi j hj heq
      rw [← idxOf_id_issueAt hnodup (lt_length_of_mem_parentCycles hmem hi), heq,
        idxOf_id_issueAt hnodup (lt_length_of_mem_parentCycles hmem hj)]
    have hchain := horbit.isChain_append_head
    rw [PlanError.IsFaultOf, cycleIds_eq_map, List.isChain_map]
    cases cycle with
    | nil => exact absurd rfl horbit.ne_nil
    | cons i path =>
      rw [List.head?_cons, Option.toList_some, List.map_append, List.map_singleton,
        List.getLast?_concat, List.dropLast_concat]
      refine ⟨by simp, rfl, hids, hchain.imp ?_⟩
      intro j p hp
      obtain ⟨hissue, -, hparent⟩ := hasParent_of_parentIn hnodup hp
      exact ⟨_, (find?_id_eq_some_iff hnodup).mpr ⟨hissue, rfl⟩, hparent⟩

/-- The last pass stops at a dependency on an id that the index does not know. -/
lemma exists_of_checkDependencies_eq_error {index : Index}
    (h : checkDependencies index issues = .error error) :
    ∃ issue ∈ issues, ∃ id ∈ issue.dependencies,
      index.contains id = false ∧ error = .unresolvedDependency issue.id id := by
  induction issues with
  | nil => cases h
  | cons issue issues ih =>
    rw [checkDependencies] at h
    split at h
    · rename_i id hid
      cases h
      refine ⟨issue, List.mem_cons_self, id, List.mem_of_find?_eq_some hid, ?_, rfl⟩
      simpa using List.find?_some hid
    · obtain ⟨other, hother, hid⟩ := ih h
      exact ⟨other, List.mem_cons_of_mem _ hother, hid⟩

lemma isFaultOf_of_build_eq_error {directory : Directory} {categoryField : Option String}
    {policy : MissingPolicy} (h : build issues directory categoryField policy = .error error) :
    error.IsFaultOf issues := by
  -- A pass is reached only if those before it let the plan through, which is what it relies on.
  rw [build_eq_passes] at h
  rcases bind_eq_error_iff.mp h with h | ⟨index, hindex, h⟩
  · exact isFaultOf_of_indexIssues_eq_error [] (by simp) h
  obtain ⟨hnodup, hlookup⟩ := lookup_of_indexIssues_eq_ok hindex
  rcases bind_eq_error_iff.mp h with h | ⟨-, -, h⟩
  · exact isFaultOf_of_checkIdentifiers_eq_error [] hnodup (by simp) h
  rw [parentLinks_congr hlookup] at h
  rcases bind_eq_error_iff.mp h with h | ⟨-, -, h⟩
  · exact isFaultOf_of_checkParents_eq_error hnodup h
  cases policy with
  | drop => cases h
  | reject =>
    rw [if_pos rfl] at h
    cases hdependencies : checkDependencies index issues with
    | ok => rw [hdependencies] at h; cases h
    | error fault =>
      rw [hdependencies] at h
      cases h
      obtain ⟨issue, hissue, id, hid, hunknown, rfl⟩ :=
        exists_of_checkDependencies_eq_error hdependencies
      rw [contains_of_indexIssues_eq_ok hindex] at hunknown
      refine ⟨⟨issue, (find?_id_eq_some_iff hnodup).mpr ⟨hissue, rfl⟩, hid⟩, ?_⟩
      exact of_decide_eq_false hunknown

/-- A forest is built just from the plans without a fault. Where none is built, the plan has the
fault that the error names. -/
theorem build_spec (issues : List Issue) (directory : Directory) (categoryField : Option String)
    (policy : MissingPolicy) :
    ((∃ forest, build issues directory categoryField policy = .ok forest) ↔
        Consistent issues policy) ∧
      ∀ error, build issues directory categoryField policy = .error error →
        error.IsFaultOf issues := by
  constructor
  · rw [← buildable_iff_consistent]
    constructor
    · rintro ⟨forest, hforest⟩
      exact (build_eq_ok_iff.mp hforest).1
    · intro h
      exact ⟨_, build_eq_ok_iff.mpr ⟨h, rfl⟩⟩
  · intro error h
    exact isFaultOf_of_build_eq_error h

end Forest

end PlanChart
