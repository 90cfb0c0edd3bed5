import PlanChart.Proofs.Dot.Outline
import PlanChart.Text.Markup

/-!
# Reading a document back

What a document tells of a plan can be read from the document alone: from the outline the nodes and
how they are nested, from their attributes what is known of each, and from the edges which node
depends on which others. An edge is about the clusters that it is clipped at, and where it is not
clipped about the nodes that it joins. The reading fails at a document that is not consistent.
-/

namespace PlanChart.Dot

/-! ### Labels -/

/-- A text whose entities are replaced by what they stand for. -/
def unescape : List Char → List Char
  | '&' :: 'a' :: 'm' :: 'p' :: ';' :: text => '&' :: unescape text
  | '&' :: 'l' :: 't' :: ';' :: text => '<' :: unescape text
  | '&' :: 'g' :: 't' :: ';' :: text => '>' :: unescape text
  | '&' :: 'q' :: 'u' :: 'o' :: 't' :: ';' :: text => '"' :: unescape text
  | '&' :: '#' :: '0' :: '3' :: '9' :: ';' :: text => '\x27' :: unescape text
  | c :: text => c :: unescape text
  | [] => []

/-- A tag, from which the opening bracket has been taken away, and the text behind it. -/
def tag? (piece : List Char) : Option (String × String) :=
  match piece.splitOn '>' with
  | [tag, text] => some (String.ofList tag, String.ofList (unescape text))
  | _ => none

/-- The text before the first tag of a piece of markup, and the tags with the texts behind them. -/
def tags? (markup : String) : Option (String × List (String × String)) :=
  match markup.toList.splitOn '<' with
  | [] => none
  | text :: pieces =>
    (pieces.mapM tag?).map fun tags => (String.ofList (unescape text), tags)

structure Label where
  title : String
  /-- Whether the title is struck through. -/
  resolved : Bool
  /-- What stands in small print below the title. -/
  assignee : Option String
  deriving DecidableEq, Repr

/-- The title of a label, whether it is struck through, and the tags behind it. -/
def title (text : String) (tags : List (String × String)) :
    String × Bool × List (String × String) :=
  match tags with
  | (start, inner) :: (stop, behind) :: others =>
    if text = "" ∧ start = "s" ∧ stop = "/s" ∧ behind = "" then (inner, true, others)
    else (text, false, tags)
  | _ => (text, false, tags)

/-- The small print on a line of its own, if there is any. -/
def smallPrint? : List (String × String) → Option (Option String)
  | [] => some none
  | [(lineBreak, before), (start, inner), (stop, behind)] =>
    if lineBreak = "br/" ∧ before = "" ∧ start = "font point-size=\"12\"" ∧ stop = "/font" ∧
        behind = "" then some (some inner)
    else none
  | _ => none

def label? (markup : String) : Option Label := do
  let (text, tags) ← tags? markup
  let (title, resolved, others) := title text tags
  let assignee ← smallPrint? others
  return ⟨title, resolved, assignee⟩

/-! ### Entries -/

/-- What a document tells of an issue. The dependencies are given by their identifiers. -/
structure Entry where
  isCluster : Bool
  identifier : String
  externalId : String
  link : String
  resolved : Bool
  summary : String
  assignee : Option String
  fill : String
  font : String
  outline : String
  dependencies : List String := []
  deriving DecidableEq, Repr

def dropPrefix? (start text : String) : Option String :=
  (text.toList.dropPrefix? start.toList).map String.ofList

/-- The value that is set last for an attribute. -/
def value? (settings : List Setting) (name : String) : Option Value :=
  (settings.reverse.find? fun setting => setting.name == name).map Setting.value

def text? (settings : List Setting) (name : String) : Option String :=
  match value? settings name with
  | some (.text text) => some text
  | _ => none

def html? (settings : List Setting) (name : String) : Option String :=
  match value? settings name with
  | some (.html text) => some text
  | _ => none

/-- The identifier of the node that a cluster stands for. -/
def ofCluster? (name : String) : Option String :=
  dropPrefix? "cluster_" name

def Block.identifier? (block : Block) : Option String :=
  match block.kind with
  | .digraph => none
  | .subgraph => ofCluster? block.name
  | .node => some block.name

/-- The texts that stand behind the path of the issues, up to the end of a link. -/
def behindPath (link : List Char) : List (List Char) :=
  link.tails.filterMap fun text => text.dropPrefix? "issue/".toList

/-- The id of an issue, from the link to it: the text from which the identifier has been made. -/
def externalId? (identifier link : String) : Option String :=
  ((behindPath link.toList).find? fun id =>
    Identifier.chars id == identifier.toList).map String.ofList

def Block.tells? (block : Block) : Option Entry := do
  let identifier ← block.identifier?
  let link ← text? block.settings "href"
  let externalId ← externalId? identifier link
  let markup ← html? block.settings "label"
  let label ← label? markup
  let summary ← dropPrefix? (externalId ++ ": ") label.title
  let fill ← text? block.settings "fillcolor"
  let font ← text? block.settings "fontcolor"
  let outline ← text? block.settings "color"
  return {
    isCluster := block.kind = .subgraph
    identifier := identifier
    externalId := externalId
    link := link
    resolved := label.resolved
    summary := summary
    assignee := label.assignee
    fill := fill
    font := font
    outline := outline }

/-! ### Dependencies -/

def hasLeaf (entries : Grove Entry) (identifier : String) : Bool :=
  entries.preorder.any fun entry => !entry.isCluster && entry.identifier == identifier

/-- What an end of an edge is about, given the leaf that it joins and the value of the attribute
that clips it. A cluster at which an edge is clipped must hold the leaf. -/
def endpoint? (entries : Grove Entry) (leaf : String) : Option Value → Option String
  | none => if hasLeaf entries leaf then some leaf else none
  | some (.html _) => none
  | some (.text cluster) => do
    let identifier ← ofCluster? cluster
    if entries.subtrees.any fun subtree =>
        subtree.1.isCluster && subtree.1.identifier == identifier && hasLeaf subtree.2 leaf then
      some identifier
    else none

/-- The dependency that an edge shows, before the node that has it. -/
def Edge.dependency? (entries : Grove Entry) (edge : Edge) : Option (String × String) := do
  let dependency ← endpoint? entries edge.tail (value? edge.settings "ltail")
  let dependent ← endpoint? entries edge.head (value? edge.settings "lhead")
  return (dependency, dependent)

def Entry.withDependencies (pairs : List (String × String)) (entry : Entry) : Entry :=
  { entry with
    dependencies := (pairs.filter fun pair => pair.2 == entry.identifier).map Prod.fst }

/-- What a document tells, or nothing if it cannot be read. -/
def readGrove? (document : String) : Option (Grove Entry) := do
  let (blocks, edges) ← outline? document
  let entries ← blocks.mapOption Block.tells?
  guard (entries.preorder.map Entry.identifier).Nodup
  let pairs ← edges.mapM (Edge.dependency? entries)
  return entries.map (Entry.withDependencies pairs)

/-! ### Labels are read back -/

lemma unescape_cons {c : Char} (h : c ≠ '&') (text : List Char) :
    unescape (c :: text) = c :: unescape text := by
  rw [unescape]
  all_goals
    intro rest hc
    exact absurd hc h

lemma unescape_escapeChar (c : Char) (text : List Char) :
    unescape (Markup.escapeChar c ++ text) = c :: unescape text := by
  unfold Markup.escapeChar
  split
  · simp [unescape]
  · simp [unescape]
  · simp [unescape]
  · simp [unescape]
  · simp [unescape]
  · rename_i hamp _ _ _ _
    exact unescape_cons hamp text

lemma unescape_escape_append (inner : String) (text : List Char) :
    unescape ((Markup.escape inner).toList ++ text) = inner.toList ++ unescape text := by
  rw [Markup.escape, String.toList_ofList]
  induction inner.toList with
  | nil => rfl
  | cons c chars ih =>
    rw [List.flatMap_cons, List.append_assoc, unescape_escapeChar, ih]
    rfl

lemma unescape_escape (inner : String) : unescape (Markup.escape inner).toList = inner.toList := by
  simpa [unescape] using unescape_escape_append inner []

/-- Tags with the texts behind them, as they are written. -/
def written (pieces : List (List Char × List Char)) : List Char :=
  pieces.flatMap fun (tag, text) => '<' :: (tag ++ '>' :: text)

lemma splitOn_written {text : List Char} {pieces : List (List Char × List Char)} (h : '<' ∉ text)
    (hpieces : ∀ piece ∈ pieces, '<' ∉ piece.1 ∧ '<' ∉ piece.2) :
    (text ++ written pieces).splitOn '<' =
      text :: pieces.map fun (tag, text) => tag ++ '>' :: text := by
  induction pieces generalizing text with
  | nil => simpa [written] using List.splitOn_eq_singleton h
  | cons piece pieces ih =>
    obtain ⟨⟨htag, htext⟩, hrest⟩ := List.forall_mem_cons.mp hpieces
    have hpiece : '<' ∉ piece.1 ++ '>' :: piece.2 := by simp [htag, htext]
    have hwritten : text ++ written (piece :: pieces) =
        text ++ '<' :: ((piece.1 ++ '>' :: piece.2) ++ written pieces) := by
      simp [written]
    rw [hwritten, List.splitOn_append_cons_self_of_not_mem h, ih hpiece hrest]
    rfl

lemma tag?_eq {tag text : List Char} (htag : '>' ∉ tag) (htext : '>' ∉ text) :
    tag? (tag ++ '>' :: text) = some (String.ofList tag, String.ofList (unescape text)) := by
  rw [tag?, List.splitOn_append_cons_self_of_not_mem htag, List.splitOn_eq_singleton htext]

/-- Characters between which no tag starts or ends. -/
def Plain (text : List Char) : Prop :=
  '<' ∉ text ∧ '>' ∉ text

/-- A tag and the text behind it, as they are read. -/
def readPiece (piece : List Char × List Char) : String × String :=
  (String.ofList piece.1, String.ofList (unescape piece.2))

lemma tags?_eq {markup : String} {text : List Char} {pieces : List (List Char × List Char)}
    (hmarkup : markup.toList = text ++ written pieces) (h : Plain text)
    (hpieces : ∀ piece ∈ pieces, Plain piece.1 ∧ Plain piece.2) :
    tags? markup = some (String.ofList (unescape text), pieces.map readPiece) := by
  have htags : (pieces.map fun (tag, text) => tag ++ '>' :: text).mapM tag? =
      some (pieces.map readPiece) := by
    clear hmarkup
    induction pieces with
    | nil => rfl
    | cons piece pieces ih =>
      obtain ⟨⟨htag, htext⟩, hrest⟩ := List.forall_mem_cons.mp hpieces
      simp [List.mapM_cons, tag?_eq htag.2 htext.2, ih hrest, readPiece]
  rw [tags?, hmarkup, splitOn_written h.1 fun piece hpiece =>
    ⟨(hpieces piece hpiece).1.1, (hpieces piece hpiece).2.1⟩]
  simp [htags]

lemma plain_escape (text : String) : Plain (Markup.escape text).toList :=
  ⟨fun h => (ne_of_mem_escape h).1 rfl, fun h => (ne_of_mem_escape h).2 rfl⟩

end PlanChart.Dot
