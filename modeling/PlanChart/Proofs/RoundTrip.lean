import PlanChart.Proofs.Dot.Recovery

/-!
# Documents read back

Reading the document of a plan yields the plan: the forest of its issues, what is drawn of each of
them, and the dependencies between them in their order.
-/

namespace PlanChart

open Dot

/-- The colour literal that an issue is drawn in. -/
def Issue.colorLiteral (issue : Issue) (directory : Directory) (categoryField : Option String)
    (role : ColorRole) : String :=
  ((issue.drawnCategory? directory categoryField).bind (·.color? role)).getD role.defaultColor

/-- What an entry tells of an issue that is one of the given issues of a plan. -/
structure Dot.Entry.Tells (entry : Entry) (issue : Issue) (issues : List Issue)
    (directory : Directory) (options : DrawOptions) : Prop where
  isCluster_iff : entry.isCluster = true ↔ ∃ child ∈ issues, child.parentId? = some issue.id
  identifier_eq : entry.identifier = issue.identifier
  externalId_eq : entry.externalId = issue.id
  link_eq : entry.link = options.baseUrl ++ "issue/" ++ issue.id
  resolved_eq : entry.resolved = issue.resolved
  summary_eq : entry.summary = issue.summary
  assignee_eq : entry.assignee = issue.assignee.bind directory.userName?
  fill_eq : Color.normalize (issue.colorLiteral directory options.categoryField .background) =
    .ok entry.fill
  font_eq : Color.normalize (issue.colorLiteral directory options.categoryField .foreground) =
    .ok entry.font
  outline_eq : Color.normalize (issue.colorLiteral directory options.categoryField .foreground) =
    .ok entry.outline
  dependencies_eq : entry.dependencies =
    (issue.dependencies.filter (· ∈ issues.map Issue.id)).map Identifier.ofText

namespace Document

/-! ### The dependencies of a node -/

lemma mapM_dependency? {forest : Forest} {grove : Grove Nat} (hsound : forest.Sound)
    (hgrove : forest.Unfolds grove) (baseUrl : String) {pairs : List (Nat × Nat)}
    (hpairs : ∀ pair ∈ pairs, pair.1 < forest.size ∧ pair.2 < forest.size) :
    (pairs.map fun pair => joint forest pair.1 pair.2).mapM
        (Edge.dependency? (grove.map (entry forest baseUrl))) =
      some (pairs.map fun pair => ((forest.node pair.1).id, (forest.node pair.2).id)) := by
  induction pairs with
  | nil => rfl
  | cons pair pairs ih =>
    obtain ⟨⟨hdependency, hdependent⟩, hrest⟩ := List.forall_mem_cons.mp hpairs
    have hpair := dependency?_joint hsound hgrove hdependency hdependent baseUrl
    simp [List.mapM_cons, hpair, ih hrest]

/-- All that is told of a node. -/
def fullEntry (forest : Forest) (baseUrl : String) (position : Nat) : Entry :=
  { entry forest baseUrl position with
    dependencies := (forest.node position).dependencies.toList.map fun dependency =>
      (forest.node dependency).id }

/-- The identifiers of the nodes, by position. -/
def identifiers (forest : Forest) : List String :=
  (List.range forest.size).map fun position => (forest.node position).id

/-- The pairs of identifiers that are read give every node its dependencies. -/
lemma withDependencies_entry {forest : Forest} {grove : Grove Nat} (hsound : forest.Sound)
    (hgrove : forest.Unfolds grove) (hnodup : (identifiers forest).Nodup) (baseUrl : String)
    {position : Nat} (hposition : position ∈ grove.preorder) :
    (entry forest baseUrl position).withDependencies
        ((dependencyPairs forest grove).map fun pair =>
          ((forest.node pair.1).id, (forest.node pair.2).id)) =
      fullEntry forest baseUrl position := by
  have hids : (grove.preorder.map fun i => (forest.node i).id).Nodup :=
    ((hsound.preorder_perm hgrove).map _).nodup_iff.mpr hnodup
  have hfilter : ((dependencyPairs forest grove).map fun pair =>
      ((forest.node pair.1).id, (forest.node pair.2).id)).filter
        (fun pair => pair.2 = (forest.node position).id) =
      (forest.node position).dependencies.toList.map fun dependency =>
        ((forest.node dependency).id, (forest.node position).id) := by
    rw [dependencyPairs, List.map_flatMap]
    simp only [List.map_map]
    exact filter_flatMap_eq hids (by simp) hposition
  rw [Entry.withDependencies, fullEntry]
  simp [entry, hfilter, beq_eq_decide, Function.comp_def]

/-- Reading the document of a forest yields the grove of its nodes. -/
lemma readGrove?_ofForest {forest : Forest} {grove : Grove Nat} (hsound : forest.Sound)
    (hgrove : forest.Unfolds grove) (hlegible : ∀ i < forest.size, (forest.node i).Legible)
    (hnodup : (identifiers forest).Nodup) {baseUrl document : String}
    (h : ofForest forest baseUrl = .ok document) :
    readGrove? document = some (grove.map (fullEntry forest baseUrl)) := by
  have houtline := outline?_ofForest hsound hgrove hlegible h
  have hentries : (grove.map (block forest baseUrl)).mapOption Block.tells? =
      some (grove.map (entry forest baseUrl)) := by
    rw [Grove.mapOption_map]
    exact Grove.mapOption_eq_map fun i hi =>
      tells?_block (hlegible i ((hsound.mem_preorder_iff hgrove).mp hi)) baseUrl
  have hidentifiers : ((grove.map (entry forest baseUrl)).preorder.map Entry.identifier).Nodup := by
    rw [Grove.preorder_map, List.map_map]
    exact ((hsound.preorder_perm hgrove).map _).nodup_iff.mpr hnodup
  rw [readGrove?, houtline]
  simp only [Option.bind_eq_bind, Option.bind_some, hentries, hidentifiers, guard_true,
    mapM_dependency? hsound hgrove baseUrl (lt_of_mem_dependencyPairs hsound hgrove),
    Grove.map_map]
  exact congrArg some (Grove.map_congr fun i hi =>
    withDependencies_entry hsound hgrove hnodup baseUrl hi)

end Document

/-! ### The forest of a list of issues -/

namespace Forest

variable {issues : List Issue} {policy : MissingPolicy}

lemma Buildable.legible (h : Buildable issues policy) (directory : Directory)
    (categoryField : Option String) {position : Nat} (hposition : position < issues.length) :
    ((ofIssues issues directory categoryField).node position).Legible := by
  rw [node_ofIssues _ _ _ hposition]
  exact {
    id_eq := rfl
    not_keyword := h.not_keyword issues[position] (List.getElem_mem hposition)
    label_eq := ⟨issues[position].summary, rfl⟩ }

lemma identifiers_ofIssues (issues : List Issue) (directory : Directory)
    (categoryField : Option String) :
    Document.identifiers (ofIssues issues directory categoryField) =
      issues.map Issue.identifier := by
  apply List.ext_getElem
  · simp [Document.identifiers]
  · intro i hi _
    have hlt : i < issues.length := by simpa [Document.identifiers] using hi
    simp [Document.identifiers, node_ofIssues _ _ _ hlt, nodeOf, Issue.identifier]

/-- A node is a group just when its issue is the parent of one. -/
lemma Buildable.isGroup_iff (h : Buildable issues policy) (directory : Directory)
    (categoryField : Option String) {position : Nat} (hposition : position < issues.length) :
    ((ofIssues issues directory categoryField).node position).isGroup = true ↔
      ∃ child ∈ issues, child.parentId? = some issues[position].id := by
  have hsound := h.sound directory categoryField
  rw [Forest.isGroup_iff, Ne, List.eq_nil_iff_forall_not_mem]
  simp only [hsound.mem_down_iff, size_ofIssues, up_ofIssues, parentIn_parentTable]
  push Not
  constructor
  · rintro ⟨i, hi, hup⟩
    rw [List.getElem?_eq_getElem hi, Option.bind_some] at hup
    obtain ⟨id, hid, hindex⟩ := Option.bind_eq_some_iff.mp hup
    rw [(h.idxOf?_eq_some_iff hposition).mp hindex] at hid
    exact ⟨issues[i], List.getElem_mem hi, hid⟩
  · rintro ⟨child, hchild, hparent⟩
    obtain ⟨i, hi, rfl⟩ := List.getElem_of_mem hchild
    refine ⟨i, hi, ?_⟩
    rw [List.getElem?_eq_getElem hi, Option.bind_some, hparent, Option.bind_some]
    exact (h.idxOf?_eq_some_iff hposition).mpr rfl

/-- The dependencies of a node are those of its issue that the plan has, in their order. -/
lemma Buildable.map_id_dependencies (h : Buildable issues policy) (directory : Directory)
    (categoryField : Option String) (ids : List String) :
    (ids.filterMap ((Index.ofIds (issues.map Issue.id))[·]?)).map
        (fun position => ((ofIssues issues directory categoryField).node position).id) =
      (ids.filter (· ∈ issues.map Issue.id)).map Identifier.ofText := by
  induction ids with
  | nil => rfl
  | cons id ids ih =>
    cases hindex : (issues.map Issue.id).idxOf? id with
    | none =>
      have hmissing : id ∉ issues.map Issue.id := List.idxOf?_eq_none_iff.mp hindex
      rw [List.filterMap_cons, List.filter_cons, Index.getElem?_ofIds, hindex,
        if_neg (by simpa using hmissing)]
      exact ih
    | some position =>
      have hposition : position < issues.length := by
        simpa using (List.idxOf?_eq_some_iff.mp hindex).1
      -- Ids are not repeated, so the issue at the position found is the one that is depended on.
      obtain rfl := (h.idxOf?_eq_some_iff hposition).mp hindex
      have hknown : issues[position].id ∈ issues.map Issue.id :=
        List.mem_map_of_mem (List.getElem_mem hposition)
      rw [List.filterMap_cons, List.filter_cons, Index.getElem?_ofIds, hindex,
        if_pos (by simpa using hknown), List.map_cons, List.map_cons,
        node_ofIssues _ _ _ hposition]
      exact congrArg _ ih

end Forest

/-- Of every node of a forest that is drawn its entry tells all that the plan says. -/
lemma tells_fullEntry {issues : List Issue} {directory : Directory} {options : DrawOptions}
    (h : Forest.Buildable issues options.missingDependencies) {position : Nat}
    (hposition : position < issues.length)
    (hcolor : ∀ role, ∃ color, ((Forest.ofIssues issues directory options.categoryField).node
      position).color role = .ok color) :
    (Document.fullEntry (Forest.ofIssues issues directory options.categoryField) options.baseUrl
      position).Tells issues[position] issues directory options := by
  have hnode := Forest.node_ofIssues issues directory options.categoryField hposition
  -- The document has the normal form of a color; what the plan tells is a literal that has it.
  have hdrawn : ∀ role, Color.normalize
      (issues[position].colorLiteral directory options.categoryField role) =
        .ok (((Forest.ofIssues issues directory options.categoryField).node
          position).drawnColor role) := by
    intro role
    obtain ⟨color, hcolor⟩ := hcolor role
    rw [Node.drawnColor_eq hcolor, ← Node.normalize_of_color hcolor, hnode]
    rfl
  exact {
    isCluster_iff := h.isGroup_iff directory options.categoryField hposition
    identifier_eq := congrArg Node.id hnode
    externalId_eq := congrArg Node.externalId hnode
    link_eq := by
      rw [Document.fullEntry, Document.entry, hnode]
      rfl
    resolved_eq := congrArg Node.resolved hnode
    summary_eq := by
      rw [Document.fullEntry, Document.entry, hnode]
      -- The label of a node has the summary escaped; reading takes the escapes back.
      exact (congrArg String.ofList (unescape_escape _)).trans (String.ofList_toList ..)
    assignee_eq := congrArg Node.assigneeName hnode
    fill_eq := hdrawn .background
    font_eq := hdrawn .foreground
    outline_eq := hdrawn .foreground
    dependencies_eq := by
      rw [Document.fullEntry, hnode]
      exact h.map_id_dependencies directory options.categoryField issues[position].dependencies }

/-- Reading a document yields the plan that it was drawn from: the forest of its issues, with all
that is drawn of every issue, and the dependencies of every issue in their order. -/
theorem draw_reads_back {issues : List Issue} {directory : Directory} {options : DrawOptions}
    {document : String} (h : draw issues directory options = .ok document) :
    ∃ forest grove,
      Forest.build issues directory options.categoryField options.missingDependencies = .ok forest ∧
      forest.Unfolds grove ∧
      ∃ entries : Nat → Entry, readGrove? document = some (grove.map entries) ∧
        ∀ position (hposition : position < issues.length),
          (entries position).Tells issues[position] issues directory options := by
  obtain ⟨hbuildable, hdocument⟩ := draw_eq_ok_iff.mp h
  have hsound := hbuildable.sound directory options.categoryField
  obtain ⟨grove, hgrove⟩ := hsound.exists_unfolds
  -- That the forest has been drawn tells that all colors of its nodes are well formed.
  have hcolors := (Document.exists_ofForest_iff hsound options.baseUrl).mp ⟨document, hdocument⟩
  have hnodup : (Document.identifiers
      (Forest.ofIssues issues directory options.categoryField)).Nodup := by
    rw [Forest.identifiers_ofIssues]
    exact hbuildable.identifiers_nodup
  refine ⟨_, grove, Forest.build_eq_ok_iff.mpr ⟨hbuildable, rfl⟩, hgrove, _,
    Document.readGrove?_ofForest hsound hgrove (fun i hi => ?_) hnodup hdocument, ?_⟩
  · rw [Forest.size_ofIssues] at hi
    exact hbuildable.legible directory options.categoryField hi
  · intro position hposition
    refine tells_fullEntry hbuildable hposition (hcolors position ?_)
    rwa [Forest.size_ofIssues]

theorem draw_tangledIssues_reads_back : ∃ (document : String) (grove : Grove Nat)
      (entries : Nat → Entry),
    draw Forest.tangledIssues Forest.tangledDirectory
        { baseUrl := "http://x/\"", missingDependencies := .drop } = .ok document ∧
      readGrove? document = some (grove.map entries) ∧
      (entries 0).summary = "Use <T> & \"U\"" ∧
      (entries 1).isCluster = true ∧ (entries 1).dependencies = ["_7_", "A_2", "A_1"] ∧
      (entries 2).link = "http://x/\"issue/7\\" := by
  obtain ⟨document, hdocument⟩ := exists_draw_iff.mpr (drawable_tangledIssues "http://x/\"")
  obtain ⟨forest, grove, -, -, entries, hread, htells⟩ := draw_reads_back hdocument
  refine ⟨document, grove, entries, hdocument, hread, ?_, ?_, ?_, ?_⟩
  · exact (htells 0 (by decide)).summary_eq
  · exact (htells 1 (by decide)).isCluster_iff.mpr ⟨Forest.tangledIssues[0], by simp, rfl⟩
  · exact (htells 1 (by decide)).dependencies_eq.trans (by decide)
  · exact (htells 2 (by decide)).link_eq.trans (by decide)

end PlanChart
