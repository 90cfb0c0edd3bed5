import PlanChart.Forest.Build
import PlanChart.Proofs.ParentCycle

/-!
# When a forest can be built

Building a forest goes through five passes, each of which keeps a table of its own. Here every pass
is described by a condition on the issues alone. A forest is built just when all the conditions
hold, and then it is the one that links the issues by the first positions of their ids.
-/

namespace PlanChart

/-- A computation of two steps has a result just when both steps have one. -/
lemma bind_eq_ok_iff {ε α β : Type} {x : Except ε α} {f : α → Except ε β} {b : β} :
    x >>= f = .ok b ↔ ∃ a, x = .ok a ∧ f a = .ok b := by
  cases x <;> simp [bind, Except.bind]

/-- A computation of two steps fails just when one of the steps does. -/
lemma bind_eq_error_iff {ε α β : Type} {x : Except ε α} {f : α → Except ε β} {error : ε} :
    x >>= f = .error error ↔ x = .error error ∨ ∃ a, x = .ok a ∧ f a = .error error := by
  cases x <;> simp [bind, Except.bind]

/-- Where what every entry of a list yields has the entry's own key, a key chooses what a single
entry yields. -/
lemma filter_flatMap_eq {α β γ : Type} [DecidableEq γ] {key : α → γ} {keyOf : β → γ}
    {yield : α → List β} {l : List α} (hnodup : (l.map key).Nodup)
    (hkey : ∀ a, ∀ b ∈ yield a, keyOf b = key a) {a : α} (ha : a ∈ l) :
    (l.flatMap yield).filter (fun b => keyOf b = key a) = yield a := by
  have hothers : ∀ rest : List α, key a ∉ rest.map key →
      (rest.flatMap yield).filter (fun b => keyOf b = key a) = [] := by
    intro rest hrest
    refine List.filter_eq_nil_iff.mpr fun b hb heq => hrest ?_
    obtain ⟨other, hother, hb⟩ := List.mem_flatMap.mp hb
    rw [← of_decide_eq_true heq, hkey other b hb]
    exact List.mem_map_of_mem hother
  have hself : (yield a).filter (fun b => keyOf b = key a) = yield a :=
    List.filter_eq_self.mpr fun b hb => decide_eq_true (hkey a b hb)
  obtain ⟨front, back, rfl⟩ := List.append_of_mem ha
  rw [List.map_append, List.map_cons] at hnodup
  have hfront : key a ∉ front.map key := fun h =>
    List.disjoint_of_nodup_append hnodup h List.mem_cons_self
  have hback : key a ∉ back.map key := (List.nodup_cons.mp hnodup.of_append_right).1
  rw [List.flatMap_append, List.flatMap_cons, List.filter_append, List.filter_append,
    hothers front hfront, hothers back hback, hself, List.nil_append, List.append_nil]

/-- The identifier that the document uses for an issue. -/
def Issue.identifier (issue : Issue) : String :=
  Identifier.ofText issue.id

/-! ### Positions of ids -/

namespace Index

lemma getElem?_addFrom (index : Index) (position : Nat) (ids : List String) (id : String) :
    (addFrom index position ids)[id]? =
      index[id]?.or ((ids.idxOf? id).map (· + position)) := by
  induction ids generalizing index position with
  | nil => simp [addFrom]
  | cons first ids ih =>
    rw [addFrom, ih, Std.HashMap.getElem?_insertIfNew, List.idxOf?_cons]
    -- The first id counts here only if the index does not hold it already.
    by_cases heq : first = id
    · subst heq
      cases hfirst : index[first]? with
      | none =>
        have hmem : first ∉ index := by
          rw [Std.HashMap.mem_iff_isSome_getElem?, hfirst]
          simp
        simp [hmem]
      | some p =>
        have hmem : first ∈ index := by
          rw [Std.HashMap.mem_iff_isSome_getElem?, hfirst]
          rfl
        simp [hmem]
    · -- Positions behind the first id are counted from one further on.
      have hadd : (fun p : Nat => p + (position + 1)) =
          (fun p => p + position) ∘ fun p => p + 1 := by
        funext p
        simp only [Function.comp_apply]
        omega
      simp [heq, hadd]

/-- An index holds the first position of every id. -/
@[simp] lemma getElem?_ofIds (ids : List String) (id : String) :
    (ofIds ids)[id]? = ids.idxOf? id := by
  simp [ofIds, getElem?_addFrom]

lemma contains_ofIds (ids : List String) (id : String) :
    (ofIds ids).contains id = decide (id ∈ ids) := by
  rw [Std.HashMap.contains_eq_isSome_getElem?, getElem?_ofIds]
  by_cases h : id ∈ ids
  · simp [h, List.isSome_idxOf?]
  · simp [List.idxOf?_eq_none_iff.mpr h, h]

lemma getElem?_ofIds_lt {ids : List String} {id : String} {position : Nat}
    (h : (ofIds ids)[id]? = some position) : position < ids.length := by
  rw [getElem?_ofIds] at h
  exact (List.idxOf?_eq_some_iff.mp h).1

end Index

/-- The issue at a position of a list. -/
def issueAt (issues : List Issue) (position : Nat) : Issue :=
  issues.getD position default

lemma issueAt_eq {issues : List Issue} {position : Nat} (h : position < issues.length) :
    issueAt issues position = issues[position] := by
  simp [issueAt, h]

lemma map_issueAt_range (issues : List Issue) :
    (List.range issues.length).map (issueAt issues) = issues := by
  apply List.ext_getElem
  · simp
  · intro i _ hi
    simp [issueAt_eq hi]

lemma idxOf?_eq_some_idxOf {ids : List String} {id : String} (h : id ∈ ids) :
    ids.idxOf? id = some (ids.idxOf id) := by
  rw [List.idxOf_eq_getD_idxOf?]
  cases hindex : ids.idxOf? id with
  | none => exact absurd h (List.idxOf?_eq_none_iff.mp hindex)
  | some position => rfl

lemma issueAt_mem {issues : List Issue} {position : Nat} (h : position < issues.length) :
    issueAt issues position ∈ issues := by
  rw [issueAt_eq h]
  exact List.getElem_mem h

lemma idxOf_id_issueAt {issues : List Issue} (hnodup : (issues.map Issue.id).Nodup) {position : Nat}
    (h : position < issues.length) :
    (issues.map Issue.id).idxOf (issueAt issues position).id = position := by
  have hindex := hnodup.idxOf_getElem position (by simpa using h)
  rwa [List.getElem_map, ← issueAt_eq h] at hindex

lemma idxOf_id_lt {issues : List Issue} {issue : Issue} (h : issue ∈ issues) :
    (issues.map Issue.id).idxOf issue.id < issues.length := by
  simpa using List.idxOf_lt_length_of_mem (List.mem_map_of_mem (f := Issue.id) h)

lemma issueAt_idxOf_id {issues : List Issue} (hnodup : (issues.map Issue.id).Nodup) {issue : Issue}
    (h : issue ∈ issues) : issueAt issues ((issues.map Issue.id).idxOf issue.id) = issue := by
  obtain ⟨position, hposition, rfl⟩ := List.getElem_of_mem h
  rw [← issueAt_eq hposition, idxOf_id_issueAt hnodup hposition]

/-- Where ids are used once, the position of an id is that of the issue that has it. -/
lemma idxOf?_id_eq_some_iff {issues : List Issue} (hnodup : (issues.map Issue.id).Nodup)
    {id : String} {position : Nat} :
    (issues.map Issue.id).idxOf? id = some position ↔
      ∃ h : position < issues.length, issues[position].id = id := by
  rw [List.idxOf?_eq_some_iff]
  constructor
  · rintro ⟨hlt, heq, -⟩
    exact ⟨by simpa using hlt, by simpa using heq⟩
  · rintro ⟨hlt, rfl⟩
    refine ⟨by simpa using hlt, by simp, ?_⟩
    intro j hj heq
    have hindex := (List.Nodup.getElem_inj_iff hnodup).mp
      (heq.trans (List.getElem_map Issue.id (h := by simpa using hlt)).symm)
    omega

/-- To look for a key is to look at its first position among the keys. -/
lemma find?_key_eq {α β : Type} [DecidableEq β] (key : α → β) (l : List α) (b : β) :
    l.find? (key · = b) = ((l.map key).idxOf? b).bind (l[·]?) := by
  rw [List.find?_eq_bind_findIdx?_getElem?, List.idxOf?, List.findIdx?_map]
  rfl

lemma find?_id_eq (issues : List Issue) (id : String) :
    issues.find? (·.id = id) = ((issues.map Issue.id).idxOf? id).map (issueAt issues) := by
  rw [find?_key_eq]
  cases hindex : (issues.map Issue.id).idxOf? id with
  | none => rfl
  | some position =>
    obtain ⟨hlt, -⟩ := List.idxOf?_eq_some_iff.mp hindex
    rw [List.length_map] at hlt
    rw [Option.bind_some, Option.map_some, issueAt_eq hlt, List.getElem?_eq_getElem hlt]

/-- Where ids are used once, an issue is found by its id. -/
lemma find?_id_eq_some_iff {issues : List Issue} (hnodup : (issues.map Issue.id).Nodup)
    {id : String} {issue : Issue} :
    issues.find? (·.id = id) = some issue ↔ issue ∈ issues ∧ issue.id = id := by
  constructor
  · intro h
    exact ⟨List.mem_of_find?_eq_some h, by simpa using List.find?_some h⟩
  · rintro ⟨hmem, rfl⟩
    have hid : issue.id ∈ issues.map Issue.id := List.mem_map_of_mem hmem
    rw [find?_id_eq, idxOf?_eq_some_idxOf hid, Option.map_some, issueAt_idxOf_id hnodup hmem]

namespace Forest

/-- The first pass goes through just when no id is used twice. -/
lemma indexIssues_eq_ok (index : Index) (position : Nat) (issues : List Issue)
    (hnodup : (issues.map Issue.id).Nodup) (hnew : ∀ issue ∈ issues, issue.id ∉ index) :
    ∃ index' : Index, indexIssues index position issues = .ok index' ∧
      ∀ id : String, index'[id]? = (Index.addFrom index position (issues.map Issue.id))[id]? := by
  induction issues generalizing index position with
  | nil => exact ⟨index, rfl, fun _ => rfl⟩
  | cons issue issues ih =>
    obtain ⟨hfirst, hrest⟩ := List.nodup_cons.mp hnodup
    have hissue : issue.id ∉ index := hnew issue List.mem_cons_self
    -- The induction needs that the ids to come are not those in the index, with the new one added.
    have hnew' : ∀ other ∈ issues, other.id ∉ index.insert issue.id position := by
      intro other hother hmem
      rcases Std.HashMap.mem_insert.mp hmem with heq | hmem
      · exact hfirst (beq_iff_eq.mp heq ▸ List.mem_map_of_mem hother)
      · exact hnew other (List.mem_cons_of_mem _ hother) hmem
    obtain ⟨index', hok, hindex⟩ := ih (index.insert issue.id position) (position + 1) hrest hnew'
    refine ⟨index', by simp [indexIssues, hissue, hok], fun id => ?_⟩
    rw [hindex, Index.getElem?_addFrom, List.map_cons, Index.addFrom, Index.getElem?_addFrom,
      Std.HashMap.getElem?_insert, Std.HashMap.getElem?_insertIfNew]
    simp [hissue]

lemma nodup_of_indexIssues_eq_ok {index index' : Index} {position : Nat} {issues : List Issue}
    (h : indexIssues index position issues = .ok index') :
    (issues.map Issue.id).Nodup ∧ ∀ issue ∈ issues, issue.id ∉ index := by
  induction issues generalizing index position with
  | nil => simp
  | cons issue issues ih =>
    rw [indexIssues] at h
    split at h
    · cases h
    · rename_i hcontains
      obtain ⟨hnodup, hnew⟩ := ih h
      have hissue : issue.id ∉ index := by rwa [Std.HashMap.mem_iff_contains]
      refine ⟨List.nodup_cons.mpr ⟨fun hmem => ?_, hnodup⟩, fun other hother => ?_⟩
      · obtain ⟨other, hother, heq⟩ := List.mem_map.mp hmem
        exact hnew other hother (by simp [heq])
      · rcases List.mem_cons.mp hother with rfl | hother
        · exact hissue
        · exact fun hmem => hnew other hother (Std.HashMap.mem_insert.mpr (Or.inr hmem))

/-- The table that the first pass yields holds the positions of the ids, which are distinct. -/
lemma lookup_of_indexIssues_eq_ok {index : Index} {issues : List Issue}
    (h : indexIssues ∅ 0 issues = .ok index) :
    (issues.map Issue.id).Nodup ∧
      ∀ id : String, index[id]? = (Index.ofIds (issues.map Issue.id))[id]? := by
  obtain ⟨hnodup, -⟩ := nodup_of_indexIssues_eq_ok h
  obtain ⟨index', hindex', hlookup⟩ := indexIssues_eq_ok ∅ 0 issues hnodup (by simp)
  obtain rfl : index' = index := by
    rw [h] at hindex'
    cases hindex'
    rfl
  exact ⟨hnodup, hlookup⟩

/-- The table that the first pass yields holds no other ids. -/
lemma contains_of_indexIssues_eq_ok {index : Index} {issues : List Issue}
    (h : indexIssues ∅ 0 issues = .ok index) (id : String) :
    index.contains id = decide (id ∈ issues.map Issue.id) := by
  obtain ⟨-, hlookup⟩ := lookup_of_indexIssues_eq_ok h
  rw [← Index.contains_ofIds, Std.HashMap.contains_eq_isSome_getElem?, hlookup,
    ← Std.HashMap.contains_eq_isSome_getElem?]

lemma checkIdentifiers_cons (taken : Std.HashMap String String) (issue : Issue)
    (issues : List Issue) :
    checkIdentifiers taken (issue :: issues) =
      match taken[issue.identifier]? with
      | some first => .error (.identifierCollision first issue.id issue.identifier)
      | none =>
        if Identifier.isKeyword issue.identifier then
          .error (.reservedIdentifier issue.id issue.identifier)
        else checkIdentifiers (taken.insert issue.identifier issue.id) issues := rfl

/-- The second pass goes through just when identifiers are neither shared nor reserved. -/
lemma checkIdentifiers_eq_ok_iff {taken : Std.HashMap String String} {issues : List Issue} :
    checkIdentifiers taken issues = .ok () ↔
      (issues.map Issue.identifier).Nodup ∧
        ∀ issue ∈ issues, issue.identifier ∉ taken ∧
          Identifier.isKeyword issue.identifier = false := by
  induction issues generalizing taken with
  | nil => simp [checkIdentifiers]
  | cons issue issues ih =>
    rw [checkIdentifiers_cons]
    -- A pass stops at an identifier that is taken, before it looks whether it is a keyword.
    cases htaken : taken[issue.identifier]? with
    | some first =>
      have hmem : issue.identifier ∈ taken := by
        rw [Std.HashMap.mem_iff_isSome_getElem?, htaken]
        rfl
      simp [hmem]
    | none =>
      have hnew : issue.identifier ∉ taken := by
        rw [Std.HashMap.mem_iff_isSome_getElem?, htaken]
        simp
      cases hkeyword : Identifier.isKeyword issue.identifier with
      | true => simp [hkeyword]
      | false =>
        simp only [Bool.false_eq_true, if_false, ih, List.map_cons, List.nodup_cons,
          List.forall_mem_cons, Std.HashMap.mem_insert, beq_iff_eq, not_or]
        constructor
        · rintro ⟨hnodup, hall⟩
          refine ⟨⟨fun hmem => ?_, hnodup⟩, ⟨hnew, hkeyword⟩, fun other hother => ?_⟩
          · obtain ⟨other, hother, heq⟩ := List.mem_map.mp hmem
            exact (hall other hother).1.1 heq.symm
          · exact ⟨(hall other hother).1.2, (hall other hother).2⟩
        · rintro ⟨⟨hfirst, hnodup⟩, -, hall⟩
          refine ⟨hnodup, fun other hother => ?_⟩
          refine ⟨⟨fun heq => ?_, (hall other hother).1⟩, (hall other hother).2⟩
          exact hfirst (heq ▸ List.mem_map_of_mem hother)

/-- The pass over the parents goes through just when the search finds no cycle. -/
lemma checkParents_eq_ok_iff {issues : List Issue} {parents : Array (Option Nat)} :
    checkParents issues parents = .ok () ↔ parentCycles parents = [] := by
  unfold checkParents
  cases parentCycles parents <;> simp

/-- The pass over the dependencies goes through just when the index knows them all. -/
lemma checkDependencies_eq_ok_iff {index : Index} {issues : List Issue} :
    checkDependencies index issues = .ok () ↔
      ∀ issue ∈ issues, ∀ id ∈ issue.dependencies, index.contains id = true := by
  induction issues with
  | nil => simp [checkDependencies]
  | cons issue issues ih =>
    rw [checkDependencies, List.forall_mem_cons]
    -- The pass stops at the first unknown id, so there is none if it does not stop.
    cases hfind : issue.dependencies.find? fun id => !index.contains id with
    | some id =>
      have hmissing := List.find?_some hfind
      have hmem := List.mem_of_find?_eq_some hfind
      simp only [reduceCtorEq, false_iff, not_and]
      intro hknown
      rw [hknown id hmem] at hmissing
      cases hmissing
    | none =>
      have hknown : ∀ id ∈ issue.dependencies, index.contains id = true := by
        intro id hid
        simpa using List.find?_eq_none.mp hfind id hid
      dsimp only
      rw [ih]
      exact ⟨fun h => ⟨hknown, h⟩, And.right⟩

end Forest

/-! ### The table of parents -/

lemma parentLinks_congr {index index' : Index} (h : ∀ id : String, index[id]? = index'[id]?)
    (issues : List Issue) : parentLinks index issues = parentLinks index' issues := by
  simp only [parentLinks, h]

/-- For each issue the position of its parent, if an issue has the id. -/
def parentTable (issues : List Issue) : Array (Option Nat) :=
  parentLinks (Index.ofIds (issues.map Issue.id)) issues

@[simp] lemma size_parentTable (issues : List Issue) :
    (parentTable issues).size = issues.length := by
  simp [parentTable, parentLinks]

lemma parentTable_eq (issues : List Issue) :
    parentTable issues = (issues.map fun issue =>
      issue.parentId?.bind ((issues.map Issue.id).idxOf? ·)).toArray := by
  simp [parentTable, parentLinks]

lemma parentIn_parentTable (issues : List Issue) (i : Nat) :
    parentIn (parentTable issues) i =
      issues[i]?.bind fun issue => issue.parentId?.bind ((issues.map Issue.id).idxOf? ·) := by
  simp only [parentIn, parentTable, parentLinks, List.getElem?_toArray, List.getElem?_map,
    Index.getElem?_ofIds]
  cases issues[i]? <;> rfl

lemma parentIn_parentTable_lt {issues : List Issue} {i p : Nat}
    (h : parentIn (parentTable issues) i = some p) : p < issues.length := by
  rw [parentIn_parentTable] at h
  obtain ⟨issue, -, h⟩ := Option.bind_eq_some_iff.mp h
  obtain ⟨id, -, h⟩ := Option.bind_eq_some_iff.mp h
  obtain ⟨hlt, -⟩ := List.idxOf?_eq_some_iff.mp h
  rwa [List.length_map] at hlt

/-- Where ids are used once, the table has the parents that the issues name. -/
lemma parentIn_parentTable_eq_some_iff {issues : List Issue}
    (hnodup : (issues.map Issue.id).Nodup) {i p : Nat} :
    parentIn (parentTable issues) i = some p ↔
      ∃ (hi : i < issues.length) (hp : p < issues.length),
        issues[i].parentId? = some issues[p].id := by
  rw [parentIn_parentTable]
  by_cases hi : i < issues.length
  · rw [List.getElem?_eq_getElem hi, Option.bind_some, Option.bind_eq_some_iff]
    simp only [idxOf?_id_eq_some_iff hnodup]
    constructor
    · rintro ⟨id, hid, hp, heq⟩
      exact ⟨hi, hp, by rw [hid, heq]⟩
    · rintro ⟨_, hp, hid⟩
      exact ⟨_, hid, hp, rfl⟩
  · rw [List.getElem?_eq_none (Nat.le_of_not_lt hi)]
    simp [hi]

/-! ### The forest -/

namespace Forest

/-- What a list of issues must satisfy for its forest to be built. -/
structure Buildable (issues : List Issue) (policy : MissingPolicy) : Prop where
  ids_nodup : (issues.map Issue.id).Nodup
  identifiers_nodup : (issues.map Issue.identifier).Nodup
  not_keyword : ∀ issue ∈ issues, Identifier.isKeyword issue.identifier = false
  no_cycle : parentCycles (parentTable issues) = []
  known : policy = .reject →
    ∀ issue ∈ issues, ∀ id ∈ issue.dependencies, id ∈ issues.map Issue.id

lemma Buildable.idxOf?_eq_some_iff {issues : List Issue} {policy : MissingPolicy}
    (h : Buildable issues policy) {id : String} {position : Nat}
    (hposition : position < issues.length) :
    (issues.map Issue.id).idxOf? id = some position ↔ id = issues[position].id := by
  rw [idxOf?_id_eq_some_iff h.ids_nodup, eq_comm]
  simp [hposition]

/-- The forest that links issues by the first positions of their ids. -/
def ofIssues (issues : List Issue) (directory : Directory) (categoryField : Option String) :
    Forest :=
  link directory categoryField (Index.ofIds (issues.map Issue.id)) issues (parentTable issues)

lemma checkDependencies_congr {index index' : Index}
    (h : ∀ id : String, index[id]? = index'[id]?) (issues : List Issue) :
    checkDependencies index issues = checkDependencies index' issues := by
  induction issues with
  | nil => rfl
  | cons issue issues ih =>
    simp only [checkDependencies, Std.HashMap.contains_eq_isSome_getElem?, h, ih]

lemma link_congr {index index' : Index} (h : ∀ id : String, index[id]? = index'[id]?)
    (directory : Directory) (categoryField : Option String) (issues : List Issue)
    (parents : Array (Option Nat)) :
    link directory categoryField index issues parents =
      link directory categoryField index' issues parents := by
  simp only [link, nodeOf, h]

lemma build_eq_ok_iff_passes {issues : List Issue} {directory : Directory}
    {categoryField : Option String} {policy : MissingPolicy} {forest : Forest} :
    build issues directory categoryField policy = .ok forest ↔
      ∃ index, indexIssues ∅ 0 issues = .ok index ∧
        checkIdentifiers ∅ issues = .ok () ∧
        checkParents issues (parentLinks index issues) = .ok () ∧
        (policy = .reject → checkDependencies index issues = .ok ()) ∧
        link directory categoryField index issues (parentLinks index issues) = forest := by
  cases policy with
  | drop => simp [build, bind_eq_ok_iff, Unique.exists_iff, pure, Except.pure]
  | reject => simp [build, bind_eq_ok_iff, Unique.exists_iff, pure, Except.pure]

/-- A forest is built just when the issues satisfy the conditions of all passes. -/
theorem build_eq_ok_iff {issues : List Issue} {directory : Directory}
    {categoryField : Option String} {policy : MissingPolicy} {forest : Forest} :
    build issues directory categoryField policy = .ok forest ↔
      Buildable issues policy ∧ forest = ofIssues issues directory categoryField := by
  rw [build_eq_ok_iff_passes]
  constructor
  · rintro ⟨index, hindex, hidentifiers, hparents, hdependencies, rfl⟩
    -- After the first pass the table can be replaced by one that depends on the ids alone.
    obtain ⟨hnodup, hlookup⟩ := lookup_of_indexIssues_eq_ok hindex
    have hlinks : parentLinks index issues = parentTable issues := parentLinks_congr hlookup issues
    rw [hlinks] at hparents ⊢
    obtain ⟨hidentifiers, hkeyword⟩ := checkIdentifiers_eq_ok_iff.mp hidentifiers
    refine ⟨?_, link_congr hlookup _ _ _ _⟩
    exact {
      ids_nodup := hnodup
      identifiers_nodup := hidentifiers
      not_keyword := fun issue hissue => (hkeyword issue hissue).2
      no_cycle := checkParents_eq_ok_iff.mp hparents
      known := by
        intro hpolicy issue hissue id hid
        have hknown := checkDependencies_eq_ok_iff.mp (hdependencies hpolicy) issue hissue id hid
        rw [Std.HashMap.contains_eq_isSome_getElem?, hlookup,
          ← Std.HashMap.contains_eq_isSome_getElem?] at hknown
        simpa using (Index.contains_ofIds _ _).symm.trans hknown }
  · rintro ⟨h, rfl⟩
    obtain ⟨index, hindex, hlookup⟩ := indexIssues_eq_ok ∅ 0 issues h.ids_nodup (by simp)
    have hlinks : parentLinks index issues = parentTable issues := parentLinks_congr hlookup issues
    refine ⟨index, hindex, ?_, ?_, ?_, ?_⟩
    · exact checkIdentifiers_eq_ok_iff.mpr
        ⟨h.identifiers_nodup, fun issue hissue => ⟨by simp, h.not_keyword issue hissue⟩⟩
    · rw [hlinks]
      exact checkParents_eq_ok_iff.mpr h.no_cycle
    · intro hpolicy
      refine checkDependencies_eq_ok_iff.mpr fun issue hissue id hid => ?_
      rw [Std.HashMap.contains_eq_isSome_getElem?, hlookup,
        ← Std.HashMap.contains_eq_isSome_getElem?]
      exact (Index.contains_ofIds _ _).trans (decide_eq_true (h.known hpolicy issue hissue id hid))
    · rw [hlinks]
      exact link_congr hlookup _ _ _ _

/-! ### An example -/

/-- A plan in which children come before their parents and dependencies lead out of the plan, to a
group and from a group into itself. Its texts hold what the language of the document uses. -/
def tangledIssues : List Issue :=
  [ { id := "A-2", summary := "Use <T> & \"U\"", parent := some "A-1", category := some "bug" },
    { id := "A-1", summary := "cause: effect", resolved := true, assignee := some "o",
      dependencies := ["7\\", "GONE", "A-2", "A-1"] },
    { id := "7\\", parent := some "A-2", assignee := some "o" },
    { id := "", summary := "issue/: ", parent := some "ELSEWHERE", dependencies := ["A-1"] } ]

/-- The directory that the plan refers to. -/
def tangledDirectory : Directory :=
  .ofLists [⟨"o", "O'Neil"⟩] [{ id := "bug", colors := some ⟨some "#1a2", none⟩ }]

/-- The forest of the plan. -/
def tangledForest : Forest :=
  ofIssues tangledIssues tangledDirectory none

lemma buildable_tangledIssues : Buildable tangledIssues .drop where
  ids_nodup := by decide
  identifiers_nodup := by decide
  not_keyword := by decide
  no_cycle := by
    have htable : parentTable tangledIssues = #[some 1, none, some 0, none] := by
      rw [parentTable_eq]
      rfl
    rw [htable]
    decide +kernel
  known h := by cases h

lemma build_tangledIssues : build tangledIssues tangledDirectory none .drop = .ok tangledForest :=
  build_eq_ok_iff.mpr ⟨buildable_tangledIssues, rfl⟩

end Forest

end PlanChart
