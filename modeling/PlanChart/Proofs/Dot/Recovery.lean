import PlanChart.Proofs.Anchoring
import PlanChart.Proofs.Dot.Reader
import PlanChart.Proofs.Dot.Spelling

/-!
# What is recovered from the parts of a document

The label of a node gives back its title, the link the id of its issue, and both together the
summary. An edge gives back the two nodes that it was drawn for, although it may join others.
-/

namespace PlanChart

open Dot

namespace Document

/-! ### Labels -/

/-- The first line of a label, as it is written. -/
def titleChars (node : Node) (summary : String) : List Char :=
  (Markup.escape node.externalId).toList ++ ':' :: ' ' :: (Markup.escape summary).toList

lemma plain_titleChars (node : Node) (summary : String) : Plain (titleChars node summary) := by
  have hid := plain_escape node.externalId
  have hsummary := plain_escape summary
  simp [Plain, titleChars, hid.1, hid.2, hsummary.1, hsummary.2]

lemma unescape_titleChars (node : Node) (summary : String) :
    String.ofList (unescape (titleChars node summary)) = node.externalId ++ ": " ++ summary := by
  rw [titleChars, unescape_escape_append, unescape_cons (by decide), unescape_cons (by decide),
    unescape_escape, ← String.toList_inj, String.toList_ofList]
  simp [String.toList_append]

/-- The tags of the small print with the texts behind them, as they are written. -/
def smallPrint : Option String → List (List Char × List Char)
  | none => []
  | some name =>
    [("br/".toList, []), ("font point-size=\"12\"".toList, (Markup.escape name).toList),
      ("/font".toList, [])]

lemma plain_smallPrint (assignee : Option String) :
    ∀ piece ∈ smallPrint assignee, Plain piece.1 ∧ Plain piece.2 := by
  cases assignee with
  | none => simp [smallPrint]
  | some name =>
    have hname := plain_escape name
    simp [smallPrint, Plain, hname.1, hname.2]

lemma smallPrint?_smallPrint (assignee : Option String) :
    smallPrint? ((smallPrint assignee).map readPiece) = some assignee := by
  cases assignee with
  | none => rfl
  | some name => simp [smallPrint, smallPrint?, readPiece, unescape_escape, unescape]

lemma title_of_plain (text : String) (assignee : Option String) :
    title text ((smallPrint assignee).map readPiece) =
      (text, false, (smallPrint assignee).map readPiece) := by
  cases assignee with
  | none => rfl
  | some name => simp [smallPrint, title, readPiece]

lemma toList_label {node : Node} {summary : String} (h : node.label = Markup.escape summary) :
    (label node).toList =
      if node.resolved then
        [] ++ written (("s".toList, titleChars node summary) :: ("/s".toList, []) ::
          smallPrint node.assigneeName)
      else titleChars node summary ++ written (smallPrint node.assigneeName) := by
  unfold label
  rw [h]
  cases node.resolved <;> cases node.assigneeName <;>
    simp [titleChars, written, smallPrint, String.toList_append]

lemma label?_label {node : Node} {summary : String} (h : node.label = Markup.escape summary) :
    label? (label node) =
      some ⟨node.externalId ++ ": " ++ summary, node.resolved, node.assigneeName⟩ := by
  have htitle := plain_titleChars node summary
  have hsmall := plain_smallPrint node.assigneeName
  have hmarkup := toList_label h
  cases hresolved : node.resolved with
  | false =>
    rw [hresolved] at hmarkup
    have htags := tags?_eq hmarkup htitle hsmall
    have htitle' := title_of_plain (node.externalId ++ ": " ++ summary) node.assigneeName
    have hassignee := smallPrint?_smallPrint node.assigneeName
    rw [unescape_titleChars] at htags
    rw [label?, htags]
    simp [htitle', hassignee]
  | true =>
    rw [hresolved] at hmarkup
    -- Struck out, the title is the text of a tag of its own, with nothing in front of it.
    have hpieces : ∀ piece ∈ ("s".toList, titleChars node summary) :: ("/s".toList, []) ::
        smallPrint node.assigneeName, Plain piece.1 ∧ Plain piece.2 :=
      List.forall_mem_cons.mpr ⟨⟨by simp [Plain], htitle⟩,
        List.forall_mem_cons.mpr ⟨by simp [Plain], hsmall⟩⟩
    have htags := tags?_eq hmarkup (by simp [Plain]) hpieces
    have hassignee := smallPrint?_smallPrint node.assigneeName
    rw [label?, htags]
    simp [title, readPiece, unescape_titleChars, unescape, hassignee]

/-! ### Links -/

/-- Behind the path of the issues at the end of a link there are no two texts of which one is longer
by a single character. -/
lemma eq_of_path_suffix {link id id' : List Char} (h : "issue/".toList ++ id <:+ link)
    (h' : "issue/".toList ++ id' <:+ link) (hle : id.length ≤ id'.length)
    (hlt : id'.length ≤ id.length + 1) : id = id' := by
  have hpaths : "issue/".toList ++ id <:+ "issue/".toList ++ id' :=
    List.suffix_of_suffix_length_le h h' (by simp only [List.length_append]; omega)
  have hids : id <:+ id' := by
    refine List.suffix_of_suffix_length_le ?_ (List.suffix_append "issue/".toList id') hle
    exact (List.suffix_append _ _).trans hpaths
  obtain ⟨front, rfl⟩ := hids
  obtain ⟨before, hbefore⟩ := hpaths
  have heq : before ++ "issue/".toList = "issue/".toList ++ front := by
    have hcancel : before ++ "issue/".toList ++ id = "issue/".toList ++ front ++ id := by
      simpa only [List.append_assoc] using hbefore
    exact List.append_cancel_right hcancel
  have hlength : before.length = front.length := by
    have hlengths := congrArg List.length heq
    simp only [List.length_append] at hlengths
    omega
  cases front with
  | nil => rfl
  | cons c front =>
    -- The path moved on by one character would have to begin with its own second one.
    have hone : before.length = 1 := by
      simp only [List.length_append, List.length_cons] at hlt hlength
      omega
    obtain ⟨d, rfl⟩ := List.length_eq_one_iff.mp hone
    simp at heq

lemma mem_behindPath {link text : List Char} :
    text ∈ behindPath link ↔ "issue/".toList ++ text <:+ link := by
  simp only [behindPath, List.mem_filterMap, List.mem_tails, List.dropPrefix?_eq_some_iff,
    beq_iff_eq]
  constructor
  · rintro ⟨_, hsuffix, _, rfl, rfl⟩
    exact hsuffix
  · intro hsuffix
    exact ⟨_, hsuffix, _, rfl, rfl⟩

/-- The id of an issue can be told from the link and the identifier. -/
lemma externalId?_link (baseUrl id : String) :
    externalId? (Identifier.ofText id) (baseUrl ++ "issue/" ++ id) = some id := by
  have hid : "issue/".toList ++ id.toList <:+ (baseUrl ++ "issue/" ++ id).toList := by
    rw [String.toList_append, String.toList_append, List.append_assoc]
    exact List.suffix_append _ _
  unfold externalId?
  cases hfind : (behindPath (baseUrl ++ "issue/" ++ id).toList).find? fun text =>
      Identifier.chars text == (Identifier.ofText id).toList with
  | none =>
    have hnone := List.find?_eq_none.mp hfind id.toList (mem_behindPath.mpr hid)
    simp [Identifier.ofText] at hnone
  | some found =>
    have hfound := mem_behindPath.mp (List.mem_of_find?_eq_some hfind)
    have hchars : Identifier.chars found = Identifier.chars id.toList := by
      simpa [Identifier.ofText] using List.find?_some hfind
    -- Texts with the same identifier differ in length by one at most, which two such ends cannot.
    have hlengths := congrArg List.length hchars
    have hfoundLength := Identifier.length_chars found
    have hidLength := Identifier.length_chars id.toList
    have heq : found = id.toList := by
      rcases Nat.le_total found.length id.toList.length with hle | hle
      · exact eq_of_path_suffix hfound hid hle (by omega)
      · exact (eq_of_path_suffix hid hfound hle (by omega)).symm
    rw [heq]
    simp

/-! ### Blocks -/

lemma dropPrefix?_append (start text : String) : dropPrefix? start (start ++ text) = some text := by
  rw [dropPrefix?, String.toList_append, List.dropPrefix?_append_of_beq _ (by simp)]
  simp

/-- What is told of a node, apart from its dependencies. -/
def entry (forest : Forest) (baseUrl : String) (position : Nat) : Entry where
  isCluster := (forest.node position).isGroup
  identifier := (forest.node position).id
  externalId := (forest.node position).externalId
  link := baseUrl ++ "issue/" ++ (forest.node position).externalId
  resolved := (forest.node position).resolved
  summary := String.ofList (unescape (forest.node position).label.toList)
  assignee := (forest.node position).assigneeName
  fill := (forest.node position).drawnColor .background
  font := (forest.node position).drawnColor .foreground
  outline := (forest.node position).drawnColor .foreground

lemma identifier?_block (forest : Forest) (baseUrl : String) (position : Nat) :
    (block forest baseUrl position).identifier? = some (forest.node position).id := by
  cases hgroup : (forest.node position).isGroup with
  | true => simp [block, Block.identifier?, blockName, hgroup, ofCluster?, dropPrefix?_append]
  | false => simp [block, Block.identifier?, blockName, hgroup]

lemma tells?_block {forest : Forest} {position : Nat} (h : (forest.node position).Legible)
    (baseUrl : String) :
    (block forest baseUrl position).tells? = some (entry forest baseUrl position) := by
  obtain ⟨summary, hlabel⟩ := h.label_eq
  have hlink := externalId?_link baseUrl (forest.node position).externalId
  rw [← h.id_eq] at hlink
  have hsettings : (block forest baseUrl position).settings =
      settings baseUrl (forest.node position) := rfl
  have hkind : ((block forest baseUrl position).kind = .subgraph) ↔
      (forest.node position).isGroup = true := by
    cases hgroup : (forest.node position).isGroup <;> simp [block, hgroup]
  have hsummary : String.ofList (unescape (forest.node position).label.toList) = summary := by
    rw [hlabel, unescape_escape, String.ofList_toList]
  rw [Block.tells?, identifier?_block, hsettings]
  simp [settings, text?, html?, value?, hlink, label?_label hlabel, dropPrefix?_append, hkind,
    entry, hsummary]

/-! ### Edges -/

variable {forest : Forest} {grove : Grove Nat}

/-- The setting that clips an end of an edge, if the end is clipped. -/
def clipValue (forest : Forest) (cluster : Option Nat) : Option Value :=
  cluster.map fun group => .text ("cluster_" ++ (forest.node group).id)

lemma value?_joint (forest : Forest) (dependency dependent : Nat) :
    value? (joint forest dependency dependent).settings "ltail" =
        clipValue forest (forest.anchor dependency).cluster ∧
      value? (joint forest dependency dependent).settings "lhead" =
        clipValue forest (forest.anchor dependent).cluster := by
  unfold joint
  cases (forest.anchor dependency).cluster <;> cases (forest.anchor dependent).cluster <;>
    simp [value?, clip, clipValue]

lemma hasLeaf_map {leaf : Nat} (hmem : leaf ∈ grove.preorder)
    (hleaf : (forest.node leaf).isGroup = false) (baseUrl : String) :
    hasLeaf (grove.map (entry forest baseUrl)) (forest.node leaf).id = true := by
  rw [hasLeaf, Grove.preorder_map, List.any_map, List.any_eq_true]
  exact ⟨leaf, hmem, by simp [entry, hleaf]⟩

/-- The end of an edge gives back the node that it was drawn for. -/
lemma endpoint?_anchor (hsound : forest.Sound) (hgrove : forest.Unfolds grove) {position : Nat}
    (hposition : position < forest.size) (baseUrl : String) :
    endpoint? (grove.map (entry forest baseUrl)) (forest.node (forest.anchor position).leaf).id
      (clipValue forest (forest.anchor position).cluster) = some (forest.node position).id := by
  cases hgroup : (forest.node position).isGroup with
  | false =>
    have hmem : position ∈ grove.preorder := (hsound.mem_preorder_iff hgrove).mpr hposition
    simp [Forest.anchor_of_not_isGroup hgroup, clipValue, endpoint?, hasLeaf_map hmem hgroup]
  | true =>
    obtain ⟨below, hbelow⟩ := hsound.exists_subtree hgrove hposition
    obtain ⟨leaf, hmem, hleaf, hanchor⟩ := hsound.anchor_of_isGroup hgrove hbelow hgroup
    have hany : (grove.map (entry forest baseUrl)).subtrees.any (fun subtree =>
        subtree.1.isCluster && subtree.1.identifier == (forest.node position).id &&
          hasLeaf subtree.2 (forest.node leaf).id) = true := by
      rw [List.any_eq_true]
      refine ⟨_, Grove.mem_subtrees_map hbelow, ?_⟩
      simp [entry, hgroup, hasLeaf_map hmem hleaf]
    simp only [hanchor, clipValue, Option.map_some, endpoint?, ofCluster?, dropPrefix?_append,
      Option.bind_eq_bind, Option.bind_some]
    rw [if_pos hany]

lemma dependency?_joint (hsound : forest.Sound) (hgrove : forest.Unfolds grove)
    {dependency dependent : Nat} (hdependency : dependency < forest.size)
    (hdependent : dependent < forest.size) (baseUrl : String) :
    (joint forest dependency dependent).dependency? (grove.map (entry forest baseUrl)) =
      some ((forest.node dependency).id, (forest.node dependent).id) := by
  have htail := endpoint?_anchor hsound hgrove hdependency baseUrl
  have hhead := endpoint?_anchor hsound hgrove hdependent baseUrl
  obtain ⟨hltail, hlhead⟩ := value?_joint forest dependency dependent
  rw [Edge.dependency?, hltail, hlhead]
  simp [joint, htail, hhead]

end Document

end PlanChart
