import PlanChart.Proofs.Anchoring
import PlanChart.Proofs.Dot.Outline
import PlanChart.Proofs.Dot.Words
import PlanChart.Proofs.Drawable

/-!
# What documents spell

The text of a document is taken apart into its statements, following the recursion that it is given
by. What the statements say is given by the forest alone.
-/

namespace PlanChart

open Dot

/-! ### Lines -/

namespace Dot

lemma reads_indent (depth : Nat) : Reads .blank (Document.indent depth) [] .blank := by
  rw [Reads, Document.indent, String.toList_ofList]
  exact run_replicate_space (2 * depth)

/-- A line that gives an attribute a value. -/
lemma sets_line {blanks name written : String} {token : Token} {value : Value}
    (hblanks : Reads .blank blanks [] .blank)
    (hname : Reads .blank (name ++ " = ") [.name name, .equals] .blank)
    (hwritten : Reads .blank written [token, .semicolon] .blank)
    (hvalue : token.value? = some value) :
    Sets (blanks ++ name ++ " = " ++ written) [⟨name, value⟩] := by
  refine ⟨[.name name, .equals, token, .semicolon], ?_, by simp, ?_, ?_⟩
  · have hall := (hblanks.append hname).append hwritten
    simpa only [String.append_assoc, List.nil_append, List.cons_append] using hall
  · intro brackets rest statements h
    exact .set name hvalue (.semicolon h)
  · intro rest statements h
    exact .assign name hvalue (.semicolon h)

/-- A node with its settings in brackets. -/
lemma says_node {depth : Nat} {name lines : String} {settings : List Setting} (hname : IsName name)
    (hlines : Sets lines settings) :
    Says (Document.indent depth ++ name ++ " [\n" ++ lines ++ Document.indent depth ++ "]\n")
      [.node name settings] := by
  obtain ⟨tokens, hreads, -, hinside, -⟩ := hlines
  have hhead : Reads .blank (name ++ " [\n") [.name name, .openBracket] .blank :=
    hname.reads_before rfl rfl rfl
  have hend : Reads .blank "]\n" [.closeBracket] .blank := rfl
  have hall := ((((reads_indent depth).append hhead).append hreads).append
    (reads_indent depth)).append hend
  have hforms : Forms none (.name name :: .openBracket :: (tokens ++ [.closeBracket]))
      [.node name settings] := .openNode name (hinside _ _ _ (.close _ .nothing))
  exact ⟨_, by simpa only [String.append_assoc] using hall, by simp, by simpa using hforms⟩

/-- A cluster with its settings and what stands inside. -/
lemma says_cluster {depth : Nat} {name lines inner : String} {settings : List Setting}
    {statements : List Statement} (hname : IsName ("cluster_" ++ name))
    (hlines : Sets lines settings) (hinner : Says inner statements) :
    Says (Document.indent depth ++ "subgraph cluster_" ++ name ++ " \x7b\n" ++ lines ++ "\n" ++
        inner ++ Document.indent depth ++ "\x7d\n")
      (.enter .subgraph ("cluster_" ++ name) :: settings.map Statement.assign ++ statements ++
        [.leave]) := by
  obtain ⟨tokens, hreads, -, -, houtside⟩ := hlines
  obtain ⟨tokens', hreads', hhead', hforms'⟩ := hinner
  have hkeyword : Reads .blank "subgraph " [.keyword .subgraph] .blank := by decide +kernel
  have hhead : Reads .blank ("cluster_" ++ name ++ " \x7b\n")
      [.name ("cluster_" ++ name), .openBrace] .blank :=
    hname.reads_before rfl rfl rfl
  have hblank : Reads .blank "\n" [] .blank := rfl
  have hend : Reads .blank "\x7d\n" [.closeBrace] .blank := rfl
  have hall := (((((((reads_indent depth).append hkeyword).append hhead).append hreads).append
    hblank).append hreads').append (reads_indent depth)).append hend
  have hsplit : "subgraph cluster_" = "subgraph " ++ "cluster_" := rfl
  have hinner : Forms none (tokens' ++ [.closeBrace]) (statements ++ [.leave]) :=
    hforms'.append (.leave .nothing) (by simp)
  have hforms := Forms.subgraph ("cluster_" ++ name) (houtside _ _ hinner)
  exact ⟨_, by simpa only [hsplit, String.append_assoc] using hall, by simp, by simpa using hforms⟩

/-- An edge whose ends need no clipping. -/
lemma says_plain_edge {tail head : String} (htail : IsName tail) (hhead : IsName head) :
    Says ("  " ++ tail ++ " -> " ++ head ++ "\n") [.edge tail head []] := by
  have hblanks : Reads .blank "  " [] .blank := rfl
  have harrow : Reads .blank (tail ++ " -> ") [.name tail, .arrow] .blank :=
    htail.reads_before rfl rfl rfl
  have hend : Reads .blank (head ++ "\n") [.name head] .blank := hhead.reads_before rfl rfl rfl
  have hall := (hblanks.append harrow).append hend
  exact ⟨_, by simpa only [String.append_assoc, List.nil_append, List.cons_append] using hall,
    by simp, .edge tail head (by simp) .nothing⟩

/-- An edge with settings in brackets. -/
lemma says_edge_with {tail head lines : String} {settings : List Setting} (htail : IsName tail)
    (hhead : IsName head) (hlines : Sets lines settings) :
    Says ("  " ++ tail ++ " -> " ++ head ++ " [\n" ++ lines ++ "  ]\n")
      [.edge tail head settings] := by
  obtain ⟨tokens, hreads, -, hinside, -⟩ := hlines
  have hblanks : Reads .blank "  " [] .blank := rfl
  have harrow : Reads .blank (tail ++ " -> ") [.name tail, .arrow] .blank :=
    htail.reads_before rfl rfl rfl
  have hopen : Reads .blank (head ++ " [\n") [.name head, .openBracket] .blank :=
    hhead.reads_before rfl rfl rfl
  have hend : Reads .blank "  ]\n" [.closeBracket] .blank := rfl
  have hall := (((hblanks.append harrow).append hopen).append hreads).append hend
  have hforms : Forms none
      (.name tail :: .arrow :: .name head :: .openBracket :: (tokens ++ [.closeBracket]))
      [.edge tail head settings] := .openEdge tail head (hinside _ _ _ (.close _ .nothing))
  exact ⟨_, by simpa only [String.append_assoc] using hall, by simp, by simpa using hforms⟩

end Dot

/-! ### The nodes -/

/-- The colour that a node is drawn in, if it has one. -/
def Node.drawnColor (node : Node) (role : ColorRole) : String :=
  (node.color role).toOption.getD ""

lemma Node.drawnColor_eq {node : Node} {role : ColorRole} {color : String}
    (h : node.color role = .ok color) : node.drawnColor role = color := by
  rw [drawnColor, h]
  rfl

lemma Node.escape_color {node : Node} {role : ColorRole} {color : String}
    (h : node.color role = .ok color) : Quoted.escape color = color :=
  Color.escape_normalize (Node.normalize_of_color h)

/-- What must hold of a node for its text to be readable. -/
structure Node.Legible (node : Node) : Prop where
  id_eq : node.id = Identifier.ofText node.externalId
  not_keyword : Identifier.isKeyword node.id = false
  label_eq : ∃ summary, node.label = Markup.escape summary

lemma Node.Legible.isName {node : Node} (h : node.Legible) : IsName node.id := by
  have hkeyword := h.not_keyword
  rw [h.id_eq] at hkeyword ⊢
  exact Identifier.isName hkeyword

namespace Document

/-- The settings of a node. -/
def settings (baseUrl : String) (node : Node) : List Setting :=
  [⟨"label", .html (label node)⟩,
    ⟨"href", .text (baseUrl ++ "issue/" ++ node.externalId)⟩,
    ⟨"fillcolor", .text (node.drawnColor .background)⟩,
    ⟨"fontcolor", .text (node.drawnColor .foreground)⟩,
    ⟨"color", .text (node.drawnColor .foreground)⟩]

lemma sets_quoted (name : String)
    (hname : Reads .blank (name ++ " = ") [.name name, .equals] .blank) (depth : Nat)
    (text : String) :
    Sets (indent depth ++ name ++ " = " ++ ("\"" ++ Quoted.escape text ++ "\"") ++ ";\n")
      [⟨name, .text text⟩] := by
  have hend : Reads .blank ";\n" [.semicolon] .blank := rfl
  have hwritten := (reads_quoted text).append hend
  have hline := sets_line (reads_indent depth) hname hwritten rfl
  simpa only [String.append_assoc] using hline

lemma sets_label {node : Node} (h : node.Legible) (depth : Nat) :
    Sets (indent depth ++ "label" ++ " = " ++ ("<" ++ label node ++ ">") ++ ";\n")
      [⟨"label", .html (label node)⟩] := by
  obtain ⟨summary, hlabel⟩ := h.label_eq
  have hend : Reads .blank ";\n" [.semicolon] .blank := rfl
  have hwritten := (balanced_label hlabel).reads.append hend
  have hname : Reads .blank ("label" ++ " = ") [.name "label", .equals] .blank := by decide +kernel
  have hline := sets_line (reads_indent depth) hname hwritten rfl
  simpa only [String.append_assoc] using hline

lemma sets_attributeLines {baseUrl : String} {node : Node} (hnode : node.Legible) {depth : Nat}
    {lines : String} (h : attributeLines baseUrl node depth = .ok lines) :
    Sets lines (settings baseUrl node) := by
  obtain ⟨foreground, hforeground, h⟩ := bind_eq_ok_iff.mp h
  obtain ⟨background, hbackground, h⟩ := bind_eq_ok_iff.mp h
  cases h
  have hhref := sets_quoted "href" (by decide +kernel) depth
    (baseUrl ++ "issue/" ++ node.externalId)
  have hfill := sets_quoted "fillcolor" (by decide +kernel) depth background
  have hfont := sets_quoted "fontcolor" (by decide +kernel) depth foreground
  have houtline := sets_quoted "color" (by decide +kernel) depth foreground
  rw [← link_eq] at hhref
  rw [Node.escape_color hbackground] at hfill
  rw [Node.escape_color hforeground] at hfont houtline
  have hall := (((((sets_label hnode depth).append hhref).append hfill).append hfont).append
    houtline).append sets_empty
  rw [settings, Node.drawnColor_eq hforeground, Node.drawnColor_eq hbackground]
  simpa only [List.map_cons, List.map_nil, String.join_cons, String.join_nil, String.append_assoc,
    List.nil_append, List.cons_append] using hall

/-- The name under which a node is declared. -/
def blockName (node : Node) : String :=
  if node.isGroup then "cluster_" ++ node.id else node.id

/-- The block that a node is declared by. -/
def block (forest : Forest) (baseUrl : String) (position : Nat) : Block where
  kind := if (forest.node position).isGroup then .subgraph else .node
  name := blockName (forest.node position)
  settings := settings baseUrl (forest.node position)

lemma says_render {forest : Forest} {baseUrl : String} {grove : Grove Nat}
    (hlegible : ∀ i ∈ grove.preorder, (forest.node i).Legible)
    (hfollows : grove.Follows forest.down) {depth : Nat} {text : String}
    (h : render forest baseUrl depth grove = .ok text) :
    Says text (statements (grove.map (block forest baseUrl))) := by
  induction grove generalizing depth text with
  | nil =>
    cases h
    exact says_empty
  -- The text is the block of the first tree followed by the others, so the two readings append.
  | cons position below rest ihb ihr =>
    obtain ⟨hroots, hfb, hfr⟩ := hfollows
    rw [Grove.preorder_cons, List.forall_mem_cons, List.forall_mem_append] at hlegible
    obtain ⟨hnode, hlb, hlr⟩ := hlegible
    obtain ⟨lines, hlines, h⟩ := bind_eq_ok_iff.mp h
    obtain ⟨inner, hinner, h⟩ := bind_eq_ok_iff.mp h
    obtain ⟨others, hothers, h⟩ := bind_eq_ok_iff.mp h
    cases h
    have hsets := sets_attributeLines hnode hlines
    rw [Grove.map_cons, statements]
    refine Says.append ?_ (ihr hlr hfr hothers)
    cases hgroup : (forest.node position).isGroup with
    | true =>
      simp only [block, blockName, hgroup, if_true]
      exact says_cluster hnode.isName.cluster hsets (ihb hlb hfb hinner)
    | false =>
      simp only [block, blockName, hgroup, Bool.false_eq_true, if_false]
      exact says_node hnode.isName hsets

lemma leafy_blocks {forest : Forest} (baseUrl : String) {grove : Grove Nat}
    (hfollows : grove.Follows forest.down) : Leafy (grove.map (block forest baseUrl)) := by
  induction grove with
  | nil => trivial
  | cons position below rest ihb ihr =>
    obtain ⟨hroots, hfb, hfr⟩ := hfollows
    refine ⟨fun hkind => ?_, ihb hfb, ihr hfr⟩
    cases hgroup : (forest.node position).isGroup with
    | true => simp [block, hgroup] at hkind
    | false =>
      obtain rfl : below = .nil := by
        rw [← Grove.roots_eq_nil_iff, hroots, Forest.down_eq_nil_of_not_isGroup hgroup]
      rfl

/-! ### The edges -/

/-- The setting that clips one end of an edge, if it is clipped. -/
def clip (forest : Forest) (name : String) : Option Nat → List Setting
  | none => []
  | some group => [⟨name, .text ("cluster_" ++ (forest.node group).id)⟩]

/-- The edge of the document from one node to another. -/
def joint (forest : Forest) (dependency dependent : Nat) : Edge where
  tail := (forest.node (forest.anchor dependency).leaf).id
  head := (forest.node (forest.anchor dependent).leaf).id
  settings := clip forest "ltail" (forest.anchor dependency).cluster ++
    clip forest "lhead" (forest.anchor dependent).cluster

lemma sets_clipLine {forest : Forest} {name : String}
    (hname : Reads .blank (name ++ " = ") [.name name, .equals] .blank) {cluster : Option Nat}
    (hcluster : ∀ group, cluster = some group → IsName (forest.node group).id) :
    Sets (clipLine forest name cluster) (clip forest name cluster) := by
  cases cluster with
  | none => exact sets_empty
  | some group =>
    have hblanks : Reads .blank "    " [] .blank := rfl
    have hwritten : Reads .blank ("cluster_" ++ (forest.node group).id ++ ";\n")
        [.name ("cluster_" ++ (forest.node group).id), .semicolon] .blank :=
      (hcluster group rfl).cluster.reads_before rfl rfl rfl
    -- The prefix and the identifier are one word, so the line is cut in front of the prefix.
    have hsplit : " = cluster_" = " = " ++ "cluster_" := rfl
    have hline := sets_line hblanks hname hwritten rfl
    simpa only [clipLine, clip, hsplit, String.append_assoc] using hline

lemma says_edge {forest : Forest} (hsound : forest.Sound)
    (hnames : ∀ i < forest.size, IsName (forest.node i).id) {dependency dependent : Nat}
    (hdependency : dependency < forest.size) (hdependent : dependent < forest.size) :
    Says (edge forest dependency dependent)
      [.edge (joint forest dependency dependent).tail (joint forest dependency dependent).head
        (joint forest dependency dependent).settings] := by
  have htail : IsName (forest.node (forest.anchor dependency).leaf).id :=
    hnames _ (hsound.firstLeaf_lt hdependency)
  have hhead : IsName (forest.node (forest.anchor dependent).leaf).id :=
    hnames _ (hsound.firstLeaf_lt hdependent)
  have hltail : Sets (clipLine forest "ltail" (forest.anchor dependency).cluster)
      (clip forest "ltail" (forest.anchor dependency).cluster) :=
    sets_clipLine (by decide +kernel) fun group hgroup =>
      Forest.cluster_anchor hgroup ▸ hnames dependency hdependency
  have hlhead : Sets (clipLine forest "lhead" (forest.anchor dependent).cluster)
      (clip forest "lhead" (forest.anchor dependent).cluster) :=
    sets_clipLine (by decide +kernel) fun group hgroup =>
      Forest.cluster_anchor hgroup ▸ hnames dependent hdependent
  -- An edge between two leaves is written on one line, without a list of settings.
  unfold edge
  dsimp only
  split
  · have hedge := says_edge_with htail hhead (hltail.append hlhead)
    simpa only [joint, String.append_assoc] using hedge
  · rename_i hredirected
    have hplain : (joint forest dependency dependent).settings = [] := by
      simp only [Anchor.isRedirected, Bool.or_eq_true, not_or, Option.not_isSome_iff_eq_none]
        at hredirected
      simp [joint, clip, hredirected.1, hredirected.2]
    rw [hplain]
    exact says_plain_edge htail hhead

/-- The dependencies between the nodes of a grove, each before the node that depends on it, in the
order of the edges. -/
def dependencyPairs (forest : Forest) (grove : Grove Nat) : List (Nat × Nat) :=
  grove.preorder.flatMap fun position =>
    (forest.node position).dependencies.toList.map fun dependency => (dependency, position)

lemma mem_dependencyPairs {forest : Forest} {grove : Grove Nat} {pair : Nat × Nat} :
    pair ∈ dependencyPairs forest grove ↔
      pair.2 ∈ grove.preorder ∧ pair.1 ∈ (forest.node pair.2).dependencies := by
  obtain ⟨dependency, dependent⟩ := pair
  simp [dependencyPairs]

lemma lt_of_mem_dependencyPairs {forest : Forest} (hsound : forest.Sound) {grove : Grove Nat}
    (hgrove : forest.Unfolds grove) : ∀ pair ∈ dependencyPairs forest grove,
      pair.1 < forest.size ∧ pair.2 < forest.size := by
  intro pair hpair
  obtain ⟨hdependent, hdependency⟩ := mem_dependencyPairs.mp hpair
  exact ⟨hsound.dependencies_lt _ _ hdependency, (hsound.mem_preorder_iff hgrove).mp hdependent⟩

lemma edgeStatements_eq_map (forest : Forest) (grove : Grove Nat) :
    edgeStatements forest grove =
      (dependencyPairs forest grove).map fun pair => edge forest pair.1 pair.2 := by
  simp [edgeStatements, dependencyPairs, List.map_flatMap, Function.comp_def]

lemma says_edges {forest : Forest} (hsound : forest.Sound)
    (hnames : ∀ i < forest.size, IsName (forest.node i).id) {pairs : List (Nat × Nat)}
    (hpairs : ∀ pair ∈ pairs, pair.1 < forest.size ∧ pair.2 < forest.size) :
    Says (String.join (pairs.map fun pair => edge forest pair.1 pair.2))
      ((pairs.map fun pair => joint forest pair.1 pair.2).map fun edge =>
        .edge edge.tail edge.head edge.settings) := by
  induction pairs with
  | nil => exact says_empty
  | cons pair pairs ih =>
    obtain ⟨⟨hdependency, hdependent⟩, hrest⟩ := List.forall_mem_cons.mp hpairs
    rw [List.map_cons, String.join_cons]
    exact (says_edge hsound hnames hdependency hdependent).append (ih hrest)

/-! ### The document -/

/-- The statements of a text can be found by evaluation, from its characters. -/
lemma says_of_eval {text : String} {chars : List Char} {statements : List Statement}
    (htext : text = String.ofList chars)
    (h : (run .blank chars).map (fun (tokens, last) =>
      (parse none tokens, last, tokens.head? == some .openBracket)) =
        some (some statements, .blank, false)) : Says text statements := by
  obtain ⟨⟨tokens, last⟩, hrun, h⟩ := Option.map_eq_some_iff.mp h
  simp only [Prod.mk.injEq, beq_eq_false_iff_ne] at h
  obtain ⟨hparse, rfl, hhead⟩ := h
  refine ⟨tokens, ?_, hhead, .of_parse hparse⟩
  rw [Reads, htext, String.toList_ofList, hrun]

/-- What is set for the graph of every document. -/
def graphSettings : List Setting :=
  [⟨"rankdir", .text "LR"⟩, ⟨"compound", .text "true"⟩, ⟨"newrank", .text "true"⟩,
    ⟨"ranksep", .text "1"⟩]

/-- What all documents begin with. -/
def preambleStatements : List Statement :=
  [.enter .digraph "ProjectPlan",
    .defaults .graph
      [⟨"fontname", .text "helvetica"⟩, ⟨"style", .text "rounded,filled"⟩,
        ⟨"target", .text "_blank"⟩],
    .defaults .node
      [⟨"fontname", .text "helvetica"⟩, ⟨"shape", .text "box"⟩, ⟨"style", .text "rounded,filled"⟩,
        ⟨"target", .text "_blank"⟩],
    .defaults .edge [⟨"fontname", .text "helvetica"⟩]] ++ graphSettings.map Statement.assign

set_option maxRecDepth 4000 in
lemma says_preamble : Says preamble preambleStatements :=
  says_of_eval rfl (by decide +kernel)

/-- The outline of a document: the blocks of its nodes, and the edges of their dependencies. -/
lemma outline?_ofForest {forest : Forest} (hsound : forest.Sound) {grove : Grove Nat}
    (hgrove : forest.Unfolds grove) (hlegible : ∀ i < forest.size, (forest.node i).Legible)
    {baseUrl document : String} (h : ofForest forest baseUrl = .ok document) :
    outline? document = some (grove.map (block forest baseUrl),
      (dependencyPairs forest grove).map fun pair => joint forest pair.1 pair.2) := by
  rw [ofForest_eq hsound hgrove] at h
  cases hnodes : render forest baseUrl 1 grove with
  | error e =>
    rw [hnodes] at h
    cases h
  | ok nodes =>
    simp only [hnodes, Except.map, Except.ok.injEq] at h
    subst h
    have hblocks := says_render
      (fun i hi => hlegible i ((hsound.mem_preorder_iff hgrove).mp hi)) hgrove.follows hnodes
    have hjoints := says_edges hsound (fun i hi => (hlegible i hi).isName)
      (lt_of_mem_dependencyPairs hsound hgrove)
    have hblank : Says "\n" [] := ⟨[], rfl, by simp, .nothing⟩
    have hclose : Says "\x7d\n" [.leave] := ⟨[.closeBrace], rfl, by simp, .leave .nothing⟩
    have hedges : Says (edgeBlock (edgeStatements forest grove))
        (((dependencyPairs forest grove).map fun pair => joint forest pair.1 pair.2).map
          fun edge => .edge edge.tail edge.head edge.settings) := by
      rw [edgeBlock, edgeStatements_eq_map]
      split
      · rename_i hempty
        rw [List.map_eq_nil_iff.mp hempty]
        exact says_empty
      · exact hblank.append hjoints
    have hall := ((says_preamble.append hblocks).append hedges).append hclose
    -- The graph is entered, the blocks and the edges are put into it, and it is left.
    have hpreamble : preambleStatements.foldlM Outline.add {} =
        some ⟨[⟨⟨.digraph, "ProjectPlan", graphSettings⟩, .nil⟩], .nil, []⟩ := rfl
    refine hall.outline?_eq "ProjectPlan" graphSettings ?_
    rw [List.foldlM_append, List.foldlM_append, List.foldlM_append, hpreamble]
    simp only [Option.bind_eq_bind, Option.bind_some,
      Outline.foldlM_statements (leafy_blocks baseUrl hgrove.follows), Outline.foldlM_edges]
    rfl

end Document

end PlanChart
