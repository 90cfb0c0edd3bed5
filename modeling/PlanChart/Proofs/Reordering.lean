import PlanChart.Proofs.Drawable
import PlanChart.Proofs.Renumbering

/-!
# Issues in another order

Whether a plan can be drawn does not depend on the order of its issues. The document depends on it
only as far as it is the order of the issues under one parent, or of those at the top: issues that
are mixed with other ones in another way stand at other positions, but all links follow them.
-/

namespace PlanChart

/-- The id of the parent under which an issue is drawn, if the plan has it. -/
def Issue.drawnParent? (issue : Issue) (issues : List Issue) : Option String :=
  issue.parentId?.filter (· ∈ issues.map Issue.id)

/-- Issues under one parent, and also those without a parent, keep their order. -/
def KeepsSiblingOrder (issues issues' : List Issue) : Prop :=
  ∀ first second : Issue, first.drawnParent? issues = second.drawnParent? issues →
    [first, second].Sublist issues → [first, second].Sublist issues'

/-- The positions of the issues under a parent, or of those at the top. -/
def positionsUnder (issues : List Issue) (parent : Option String) : List Nat :=
  (issues.filter (·.drawnParent? issues = parent)).map fun issue =>
    (issues.map Issue.id).idxOf issue.id

/-- The position at which the issue from a position of one list stands in another one. -/
def newPosition (issues issues' : List Issue) (position : Nat) : Nat :=
  (issues'.map Issue.id).idxOf (issueAt issues position).id

/-! ### Positions -/

/-- The positions of some of the issues are the positions of their ids. -/
lemma filter_range_eq {issues : List Issue} (hnodup : (issues.map Issue.id).Nodup)
    {p : Nat → Bool} {q : Issue → Bool}
    (h : ∀ position < issues.length, p position = q (issueAt issues position)) :
    (List.range issues.length).filter p =
      (issues.filter q).map fun issue => (issues.map Issue.id).idxOf issue.id := by
  have hfilter : (List.range issues.length).filter p =
      (List.range issues.length).filter (q ∘ issueAt issues) :=
    List.filter_congr fun position hposition => h position (List.mem_range.mp hposition)
  have hissues : issues.filter q =
      ((List.range issues.length).filter (q ∘ issueAt issues)).map (issueAt issues) := by
    rw [← List.filter_map, map_issueAt_range]
  have hsame : ∀ position ∈ (List.range issues.length).filter (q ∘ issueAt issues),
      (issues.map Issue.id).idxOf (issueAt issues position).id = position := by
    intro position hposition
    exact idxOf_id_issueAt hnodup (List.mem_range.mp (List.mem_filter.mp hposition).1)
  rw [hfilter, hissues, List.map_map]
  exact ((List.map_congr_left hsame).trans (List.map_id _)).symm

section

variable {issues issues' : List Issue}

lemma mem_ids_iff (hperm : issues.Perm issues') (id : String) :
    id ∈ issues'.map Issue.id ↔ id ∈ issues.map Issue.id :=
  (hperm.map Issue.id).mem_iff.symm

lemma nodup_ids (hperm : issues.Perm issues') (hnodup : (issues.map Issue.id).Nodup) :
    (issues'.map Issue.id).Nodup :=
  (hperm.map Issue.id).nodup_iff.mp hnodup

lemma newPosition_lt (hperm : issues.Perm issues') {position : Nat}
    (h : position < issues.length) : newPosition issues issues' position < issues.length := by
  rw [hperm.length_eq]
  exact idxOf_id_lt (hperm.mem_iff.mp (issueAt_mem h))

/-- At the new position of an issue stands that issue. -/
lemma issueAt_newPosition (hperm : issues.Perm issues') (hnodup : (issues.map Issue.id).Nodup)
    {position : Nat} (h : position < issues.length) :
    issueAt issues' (newPosition issues issues' position) = issueAt issues position :=
  issueAt_idxOf_id (nodup_ids hperm hnodup) (hperm.mem_iff.mp (issueAt_mem h))

lemma newPosition_idxOf_id (hnodup : (issues.map Issue.id).Nodup) {issue : Issue}
    (h : issue ∈ issues) :
    newPosition issues issues' ((issues.map Issue.id).idxOf issue.id) =
      (issues'.map Issue.id).idxOf issue.id := by
  rw [newPosition, issueAt_idxOf_id hnodup h]

/-- Going to a new position and back leads to where it started. -/
lemma newPosition_newPosition (hperm : issues.Perm issues')
    (hnodup : (issues.map Issue.id).Nodup) {position : Nat} (h : position < issues.length) :
    newPosition issues' issues (newPosition issues issues' position) = position := by
  rw [newPosition, issueAt_newPosition hperm hnodup h, idxOf_id_issueAt hnodup h]

/-- An id is found at the new position of where it was found. -/
lemma idxOf?_id_eq_map (hperm : issues.Perm issues') (hnodup : (issues.map Issue.id).Nodup)
    (id : String) :
    (issues'.map Issue.id).idxOf? id =
      ((issues.map Issue.id).idxOf? id).map (newPosition issues issues') := by
  by_cases hid : id ∈ issues.map Issue.id
  · obtain ⟨issue, hissue, rfl⟩ := List.mem_map.mp hid
    rw [idxOf?_eq_some_idxOf hid, idxOf?_eq_some_idxOf ((mem_ids_iff hperm _).mpr hid),
      Option.map_some, newPosition_idxOf_id hnodup hissue]
  · rw [List.idxOf?_eq_none_iff.mpr hid,
      List.idxOf?_eq_none_iff.mpr (mt (mem_ids_iff hperm id).mp hid), Option.map_none]

/-! ### Parents -/

lemma parentIn_newPosition (hperm : issues.Perm issues') (hnodup : (issues.map Issue.id).Nodup)
    {position : Nat} (h : position < issues.length) :
    parentIn (parentTable issues') (newPosition issues issues' position) =
      (parentIn (parentTable issues) position).map (newPosition issues issues') := by
  have hlt : newPosition issues issues' position < issues'.length :=
    hperm.length_eq ▸ newPosition_lt hperm h
  rw [parentIn_parentTable, parentIn_parentTable, List.getElem?_eq_getElem h,
    List.getElem?_eq_getElem hlt, ← issueAt_eq h, ← issueAt_eq hlt,
    issueAt_newPosition hperm hnodup h, Option.bind_some, Option.bind_some, Option.map_bind]
  exact congrArg _ (funext fun id => idxOf?_id_eq_map hperm hnodup id)

/-- Where the way up ends in one order, it does in every order. -/
lemma grounded_parentTable (hperm : issues.Perm issues') (hnodup : (issues.map Issue.id).Nodup)
    (hground : ∀ i, Grounded (parentIn (parentTable issues)) i) (j : Nat) :
    Grounded (parentIn (parentTable issues')) j := by
  have hmoved : ∀ i, Grounded (parentIn (parentTable issues)) i → i < issues.length →
      Grounded (parentIn (parentTable issues')) (newPosition issues issues' i) := by
    intro i hi hlt
    induction hi with
    | top htop =>
      exact .top (by rw [parentIn_newPosition hperm hnodup hlt, htop, Option.map_none])
    | step hup _ ih =>
      refine .step ?_ (ih (parentIn_parentTable_lt hup))
      rw [parentIn_newPosition hperm hnodup hlt, hup, Option.map_some]
  by_cases hj : j < issues'.length
  · rw [← newPosition_newPosition hperm.symm (nodup_ids hperm hnodup) hj]
    exact hmoved _ (hground _) (hperm.length_eq ▸ newPosition_lt hperm.symm hj)
  · apply Grounded.top
    rw [parentIn_parentTable, List.getElem?_eq_none (Nat.le_of_not_lt hj), Option.bind_none]

/-! ### Siblings -/

lemma drawnParent?_congr (hperm : issues.Perm issues') (issue : Issue) :
    issue.drawnParent? issues' = issue.drawnParent? issues := by
  simp only [Issue.drawnParent?, mem_ids_iff hperm]

/-- Issues that are chosen by their parent are the same ones in both orders. -/
lemma KeepsSiblingOrder.filter_eq (hkeeps : KeepsSiblingOrder issues issues')
    (hperm : issues.Perm issues') (hnodup : (issues.map Issue.id).Nodup) (parent : Option String) :
    issues'.filter (·.drawnParent? issues' = parent) =
      issues.filter (·.drawnParent? issues = parent) := by
  have hnodup' := nodup_ids hperm hnodup
  -- The position of its id tells how far back an issue stands.
  have hsorted : issues'.Pairwise fun first second =>
      (issues'.map Issue.id).idxOf first.id < (issues'.map Issue.id).idxOf second.id := by
    rw [List.pairwise_iff_getElem]
    intro i j hi hj hij
    rwa [← issueAt_eq hi, ← issueAt_eq hj, idxOf_id_issueAt hnodup' hi, idxOf_id_issueAt hnodup' hj]
  simp only [drawnParent?_congr hperm]
  refine List.Perm.eq_of_pairwise (fun first second _ _ hlt hgt => absurd hlt hgt.not_gt)
    (hsorted.filter _) ?_ (hperm.symm.filter _)
  refine List.pairwise_iff_forall_sublist.mpr fun {first second} hsublist => ?_
  have hparent : ∀ issue ∈ [first, second], issue.drawnParent? issues = parent :=
    fun issue hissue => of_decide_eq_true (List.mem_filter.mp (hsublist.subset hissue)).2
  have hsame : first.drawnParent? issues = second.drawnParent? issues := by
    rw [hparent first (by simp), hparent second (by simp)]
  exact List.pairwise_iff_forall_sublist.mp hsorted
    (hkeeps first second hsame (hsublist.trans List.filter_sublist))

/-- The siblings stand at their new positions, in the same order. -/
lemma KeepsSiblingOrder.positionsUnder_eq (hkeeps : KeepsSiblingOrder issues issues')
    (hperm : issues.Perm issues') (hnodup : (issues.map Issue.id).Nodup) (parent : Option String) :
    positionsUnder issues' parent =
      (positionsUnder issues parent).map (newPosition issues issues') := by
  rw [positionsUnder, hkeeps.filter_eq hperm hnodup, positionsUnder, List.map_map]
  refine List.map_congr_left fun issue hissue => ?_
  exact (newPosition_idxOf_id hnodup (List.mem_filter.mp hissue).1).symm

end

/-! ### Forests -/

namespace Forest

section

variable {issues issues' : List Issue} {policy : MissingPolicy}

lemma Buildable.perm (h : Buildable issues policy) (hperm : issues.Perm issues') :
    Buildable issues' policy where
  ids_nodup := nodup_ids hperm h.ids_nodup
  identifiers_nodup := (hperm.map Issue.identifier).nodup_iff.mp h.identifiers_nodup
  not_keyword issue hissue := h.not_keyword issue (hperm.mem_iff.mpr hissue)
  no_cycle := parentCycles_eq_nil_iff.mpr
    (grounded_parentTable hperm h.ids_nodup (parentCycles_eq_nil_iff.mp h.no_cycle))
  known hpolicy issue hissue id hid :=
    (mem_ids_iff hperm id).mpr (h.known hpolicy issue (hperm.mem_iff.mpr hissue) id hid)

/-- The links up go to the issues that are named as parents. -/
lemma up_eq_map_drawnParent? (directory : Directory) (categoryField : Option String)
    {position : Nat} (hposition : position < issues.length) :
    (ofIssues issues directory categoryField).up position =
      ((issueAt issues position).drawnParent? issues).map ((issues.map Issue.id).idxOf ·) := by
  rw [up_ofIssues, parentIn_parentTable, List.getElem?_eq_getElem hposition, Option.bind_some,
    issueAt_eq hposition, Issue.drawnParent?]
  cases hparent : issues[position].parentId? with
  | none => rfl
  | some id =>
    by_cases hid : id ∈ issues.map Issue.id
    · simp [idxOf?_eq_some_idxOf hid, Option.filter, hid]
    · simp [List.idxOf?_eq_none_iff.mpr hid, Option.filter, hid]

/-- The roots are the positions of the issues without a parent. -/
lemma Buildable.roots_eq (h : Buildable issues policy) (directory : Directory)
    (categoryField : Option String) :
    (ofIssues issues directory categoryField).roots.toList = positionsUnder issues none := by
  rw [(h.sound directory categoryField).roots_eq, size_ofIssues]
  refine filter_range_eq h.ids_nodup fun i hi => ?_
  rw [up_eq_map_drawnParent? directory categoryField hi]
  cases (issueAt issues i).drawnParent? issues <;> rfl

/-- The children of a node are the positions of the issues that have its issue as their parent. -/
lemma Buildable.down_eq (h : Buildable issues policy) (directory : Directory)
    (categoryField : Option String) {position : Nat} (hposition : position < issues.length) :
    (ofIssues issues directory categoryField).down position =
      positionsUnder issues (some (issueAt issues position).id) := by
  rw [(h.sound directory categoryField).down_eq, size_ofIssues]
  refine filter_range_eq h.ids_nodup fun i hi => ?_
  rw [up_eq_map_drawnParent? directory categoryField hi, decide_eq_decide, Option.map_eq_some_iff]
  constructor
  · rintro ⟨id, hid, hindex⟩
    have hmem : id ∈ issues.map Issue.id := by
      simpa using (Option.filter_eq_some_iff.mp hid).2
    obtain ⟨parent, hparent, rfl⟩ := List.mem_map.mp hmem
    rw [← hindex, issueAt_idxOf_id h.ids_nodup hparent, hid]
  · intro hid
    exact ⟨_, hid, idxOf_id_issueAt h.ids_nodup hposition⟩

lemma renumber_nodeOf {index index' : Index} {σ : Nat → Nat}
    (h : ∀ id : String, index'[id]? = index[id]?.map σ) (directory : Directory)
    (categoryField : Option String) (issue : Issue) (parent : Option Nat) (children : Array Nat) :
    (nodeOf directory categoryField index issue parent children).renumber σ =
      nodeOf directory categoryField index' issue (parent.map σ) (children.map σ) := by
  simp [nodeOf, Node.renumber, h, List.map_filterMap]

/-- The forest of issues in another order is the same one with its nodes renumbered. -/
lemma Buildable.renumbers (h : Buildable issues policy) (hperm : issues.Perm issues')
    (hkeeps : KeepsSiblingOrder issues issues') (directory : Directory)
    (categoryField : Option String) :
    Renumbers (newPosition issues issues') (ofIssues issues directory categoryField)
      (ofIssues issues' directory categoryField) := by
  have h' := h.perm hperm
  have hnodup := h.ids_nodup
  have hdown : ∀ i < issues.length,
      (ofIssues issues' directory categoryField).down (newPosition issues issues' i) =
        ((ofIssues issues directory categoryField).down i).map (newPosition issues issues') := by
    intro i hi
    have hlt : newPosition issues issues' i < issues'.length :=
      hperm.length_eq ▸ newPosition_lt hperm hi
    rw [h'.down_eq directory categoryField hlt, h.down_eq directory categoryField hi,
      issueAt_newPosition hperm hnodup hi, hkeeps.positionsUnder_eq hperm hnodup]
  exact {
    size_eq := by rw [size_ofIssues, size_ofIssues, hperm.length_eq]
    node_eq := by
      intro i hi
      rw [size_ofIssues] at hi
      have hlt : newPosition issues issues' i < issues'.length :=
        hperm.length_eq ▸ newPosition_lt hperm hi
      have hissue : issues'[newPosition issues issues' i] = issues[i] := by
        rw [← issueAt_eq hlt, ← issueAt_eq hi, issueAt_newPosition hperm hnodup hi]
      -- An id is found where its issue has gone, because no other issue has the same id.
      have hindex : ∀ id : String, (Index.ofIds (issues'.map Issue.id))[id]? =
          (Index.ofIds (issues.map Issue.id))[id]?.map (newPosition issues issues') := by
        simpa using idxOf?_id_eq_map hperm hnodup
      have hchildren := Array.toList_inj.mp ((hdown i hi).trans Array.toList_map.symm)
      rw [node_ofIssues _ _ _ hlt, node_ofIssues _ _ _ hi] at hchildren ⊢
      rw [renumber_nodeOf hindex, hissue, parentIn_newPosition hperm hnodup hi]
      exact congrArg (nodeOf _ _ _ _ _) hchildren
    roots_eq := by
      rw [h'.roots_eq directory categoryField, h.roots_eq directory categoryField,
        hkeeps.positionsUnder_eq hperm hnodup] }

end

end Forest

/-! ### Documents -/

lemma Drawable.perm {issues issues' : List Issue} {directory : Directory} {options : DrawOptions}
    (h : Drawable issues directory options) (hperm : issues.Perm issues') :
    Drawable issues' directory options where
  buildable := h.buildable.perm hperm
  wellColored issue hissue := h.wellColored issue (hperm.mem_iff.mpr hissue)

/-- A plan that can be drawn can be drawn with its issues in any other order. The document is the
same one if the order of the issues under each parent, and of those at the top, is. -/
theorem draw_of_perm {issues issues' : List Issue} {directory : Directory} {options : DrawOptions}
    {document : String} (hperm : issues.Perm issues')
    (h : draw issues directory options = .ok document) :
    ∃ document', draw issues' directory options = .ok document' ∧
      (KeepsSiblingOrder issues issues' → document' = document) := by
  have hdrawable := exists_draw_iff.mp ⟨document, h⟩
  obtain ⟨document', h'⟩ := exists_draw_iff.mpr (hdrawable.perm hperm)
  refine ⟨document', h', fun hkeeps => ?_⟩
  obtain ⟨hbuildable, hdocument⟩ := draw_eq_ok_iff.mp h
  obtain ⟨hbuildable', hdocument'⟩ := draw_eq_ok_iff.mp h'
  have hsame := Document.ofForest_renumber
    (hbuildable.renumbers hperm hkeeps directory options.categoryField)
    (hbuildable.sound _ _) (hbuildable'.sound _ _) options.baseUrl
  rw [hdocument, hdocument'] at hsame
  exact Except.ok.inj hsame

/-- The issues of the plan mixed anew. The issue at the bottom now comes before both issues above
it, and those at the top keep their order. -/
def Forest.shuffledIssues : List Issue :=
  [2, 1, 3, 0].map (issueAt tangledIssues)

/-- Mixing the issues of different parents leaves the document as it is. -/
theorem draw_shuffledIssues :
    Forest.shuffledIssues.map Issue.id = ["7\\", "A-1", "", "A-2"] ∧
      ∃ document,
        draw Forest.tangledIssues Forest.tangledDirectory { missingDependencies := .drop } =
            .ok document ∧
          draw Forest.shuffledIssues Forest.tangledDirectory { missingDependencies := .drop } =
            .ok document := by
  have hpositions : [2, 1, 3, 0].Perm (List.range Forest.tangledIssues.length) := by decide
  have hperm : Forest.tangledIssues.Perm Forest.shuffledIssues := by
    have hmapped := (hpositions.map (issueAt Forest.tangledIssues)).symm
    rwa [map_issueAt_range] at hmapped
  have hpairs : (List.range Forest.tangledIssues.length).Pairwise fun i j =>
      (issueAt Forest.tangledIssues i).drawnParent? Forest.tangledIssues =
          (issueAt Forest.tangledIssues j).drawnParent? Forest.tangledIssues →
        [i, j].Sublist [2, 1, 3, 0] := by
    decide +kernel
  have hkeeps : KeepsSiblingOrder Forest.tangledIssues Forest.shuffledIssues := by
    intro first second hsame hsublist
    have hmapped := List.pairwise_map (f := issueAt Forest.tangledIssues) (R := fun first second =>
      first.drawnParent? Forest.tangledIssues = second.drawnParent? Forest.tangledIssues →
        [first, second].Sublist Forest.shuffledIssues) |>.mpr
          (hpairs.imp fun hkept heq => (hkept heq).map (issueAt Forest.tangledIssues))
    rw [map_issueAt_range] at hmapped
    exact List.pairwise_iff_forall_sublist.mp hmapped hsublist hsame
  obtain ⟨document, hdocument⟩ := exists_draw_iff.mpr (drawable_tangledIssues "")
  obtain ⟨document', hdocument', hsame⟩ := draw_of_perm hperm hdocument
  exact ⟨by decide, document, hdocument, hsame hkeeps ▸ hdocument'⟩

end PlanChart
