import PlanChart.Proofs.Attachment

/-!
# Labels hold what they should

A label is a piece of markup between angle brackets, and the texts in it may hold anything. Nothing
in them opens or closes a bracket, so the label ends where it should, and nothing in them is a tag
or an entity of its own: without the tags of the label, and with its entities decoded once, the
texts are left. Summaries are escaped when a forest is built, and ids and names when a label is
written.
-/

namespace PlanChart

/-- What a label says: the id of its issue, the summary, and the name of the assignee if the
directory knows it. -/
def Issue.labelText (issue : Issue) (directory : Directory) : String :=
  issue.id ++ ": " ++ issue.summary ++ (issue.assignee.bind directory.userName?).getD ""

open Dot

namespace Markup

/-- A count of angle brackets after a character. Opening ones count up and closing ones down. -/
def count (n : Int) (c : Char) : Int :=
  if c = '<' then n + 1 else if c = '>' then n - 1 else n

/-- How far it is to the character after which a count of angle brackets is zero. -/
def closing? (n : Int) : List Char → Option Nat
  | [] => none
  | c :: text => if count n c = 0 then some 0 else (closing? (count n c) text).map (· + 1)

/-- The tags that labels are made of. -/
def tags : List (List Char) :=
  ["<s>".toList, "</s>".toList, "<br/>".toList, "<font point-size=\"12\">".toList,
    "</font>".toList]

/-- A text without the tags in it, from left to right. The given number of characters are what is
left of a tag. -/
def dropTags : Nat → List Char → List Char
  | _, [] => []
  | skipped + 1, _ :: text => dropTags skipped text
  | 0, c :: text =>
    match tags.find? (·.isPrefixOf (c :: text)) with
    | some tag => dropTags (tag.length - 1) text
    | none => c :: dropTags 0 text

/-- The characters that have entities. -/
def special : List Char :=
  ['&', '<', '>', '"', '\x27']

/-- A markup that ends, between angle brackets, where it should and holds a text. -/
structure Holds (markup text : String) : Prop where
  closed : ∀ rest : List Char,
    closing? 0 ('<' :: (markup.toList ++ '>' :: rest)) = some (markup.length + 1)
  text_eq : String.ofList (unescape (dropTags 0 markup.toList)) = text

/-! ### Brackets -/

/-- A step inside an HTML string counts as the counter does, which is one more than the number of
brackets that are open in the string. -/
lemma count_of_step {depth : Nat} {text : List Char} {c : Char} {next : Mode}
    (h : step (.html depth text) c = some ([], next)) :
    ∃ (depth' : Nat) (text' : List Char),
      next = .html depth' text' ∧ count (depth + 1) c = depth' + 1 := by
  simp only [step] at h
  split_ifs at h with hopen hclose
  · cases h
    exact ⟨depth + 1, _, rfl, by simp [count, hopen]⟩
  · cases depth with
    | zero => cases h
    | succ depth =>
      cases h
      exact ⟨depth, _, rfl, by simp [count, hclose]⟩
  · cases h
    exact ⟨depth, _, rfl, by simp [count, hopen, hclose]⟩

lemma closing?_of_run {depth depth' : Nat} {text text' chars : List Char}
    (h : run (.html depth text) chars = some ([], .html depth' text')) (rest : List Char) :
    closing? (depth + 1) (chars ++ rest) =
      (closing? (depth' + 1) rest).map (· + chars.length) := by
  induction chars generalizing depth text with
  | nil =>
    cases h
    simp
  | cons c chars ih =>
    rw [run] at h
    obtain ⟨⟨first, between⟩, hstep, h⟩ := Option.bind_eq_some_iff.mp h
    obtain ⟨⟨others, after⟩, hrun, h⟩ := Option.map_eq_some_iff.mp h
    simp only [Prod.mk.injEq, List.append_eq_nil_iff] at h
    obtain ⟨⟨rfl, rfl⟩, rfl⟩ := h
    obtain ⟨inner, inside, rfl, hcount⟩ := count_of_step hstep
    have hpositive : (inner + 1 : Int) ≠ 0 := by omega
    rw [List.cons_append, closing?, hcount, if_neg hpositive, ih hrun, Option.map_map]
    rfl

/-- What is balanced is enclosed in the brackets around it. -/
lemma closing?_of_balanced {inner : String} (h : Balanced inner) (rest : List Char) :
    closing? 0 ('<' :: (inner.toList ++ '>' :: rest)) = some (inner.length + 1) := by
  have hinner := closing?_of_run (h 0 []) ('>' :: rest)
  have hopen : count 0 '<' = 1 := rfl
  have hclose : closing? 1 ('>' :: rest) = some 0 := rfl
  rw [Int.natCast_zero, Int.zero_add, hclose] at hinner
  rw [closing?, hopen, if_neg one_ne_zero, hinner]
  simp [String.length_toList]

/-! ### Tags -/

lemma dropTags_tag {tag : List Char} (h : tag ∈ tags) (text : List Char) :
    dropTags 0 (tag ++ text) = dropTags 0 text := by
  simp only [tags, List.mem_cons, List.not_mem_nil, or_false] at h
  rcases h with rfl | rfl | rfl | rfl | rfl
  · rfl
  · rfl
  · rfl
  · rfl
  · rfl

lemma dropTags_append {text : List Char} (h : '<' ∉ text) (rest : List Char) :
    dropTags 0 (text ++ rest) = text ++ dropTags 0 rest := by
  induction text with
  | nil => rfl
  | cons c text ih =>
    obtain ⟨hc, htext⟩ := not_or.mp (mt List.mem_cons.mpr h)
    have hnone : tags.find? (·.isPrefixOf (c :: (text ++ rest))) = none := by
      simp [tags, hc]
    rw [List.cons_append, dropTags, hnone, ih htext]
    rfl

/-- Tags with texts behind them leave the texts. -/
lemma dropTags_written {pieces : List (List Char × List Char)}
    (h : ∀ piece ∈ pieces, '<' :: (piece.1 ++ ['>']) ∈ tags ∧ '<' ∉ piece.2) :
    dropTags 0 (written pieces) = pieces.flatMap Prod.snd := by
  induction pieces with
  | nil => rfl
  | cons piece pieces ih =>
    obtain ⟨⟨htag, htext⟩, hpieces⟩ := List.forall_mem_cons.mp h
    have hwritten : written (piece :: pieces) =
        ('<' :: (piece.1 ++ ['>'])) ++ (piece.2 ++ written pieces) := by simp [written]
    rw [hwritten, dropTags_tag htag, dropTags_append htext, ih hpieces, List.flatMap_cons]

/-! ### Entities -/

lemma escapeChar_of_not_mem {c : Char} (h : c ∉ special) : escapeChar c = [c] := by
  unfold escapeChar
  split
  iterate 5
    · exact absurd (by simp [special]) h
  · rfl

lemma length_escapeChar_of_mem {c : Char} (h : c ∈ special) : 1 < (escapeChar c).length := by
  simp only [special, List.mem_cons, List.not_mem_nil, or_false] at h
  rcases h with rfl | rfl | rfl | rfl | rfl
  iterate 5
    · exact Nat.le_add_left 2 _

lemma length_le_flatMap (text : List Char) : text.length ≤ (text.flatMap escapeChar).length := by
  induction text with
  | nil => rfl
  | cons c text ih =>
    have hc : 1 ≤ (escapeChar c).length := by
      by_cases hspecial : c ∈ special
      · exact (length_escapeChar_of_mem hspecial).le
      · simp [escapeChar_of_not_mem hspecial]
    rw [List.flatMap_cons, List.length_append, List.length_cons]
    omega

lemma flatMap_eq_self_iff {text : List Char} :
    text.flatMap escapeChar = text ↔ ∀ c ∈ text, c ∉ special := by
  induction text with
  | nil => simp
  | cons c text ih =>
    by_cases hspecial : c ∈ special
    · -- An entity makes the text longer, and what comes behind it does not make up for that.
      have hlength : (c :: text).length < ((c :: text).flatMap escapeChar).length := by
        have hc := length_escapeChar_of_mem hspecial
        have htext := length_le_flatMap text
        rw [List.flatMap_cons, List.length_append, List.length_cons]
        omega
      simpa [hspecial] using ne_of_apply_ne List.length hlength.ne'
    · simp [escapeChar_of_not_mem hspecial, hspecial, ih]

lemma escape_eq_self_iff {text : String} :
    escape text = text ↔ ∀ c ∈ text.toList, c ∉ special := by
  rw [← flatMap_eq_self_iff, ← String.toList_inj, escape, String.toList_ofList]

end Markup

/-! ### The labels of a document -/

namespace Document

lemma mem_tags_smallPrint (assignee : Option String) :
    ∀ piece ∈ smallPrint assignee, '<' :: (piece.1 ++ ['>']) ∈ Markup.tags ∧ '<' ∉ piece.2 := by
  cases assignee with
  | none => simp [smallPrint]
  | some name => simp [smallPrint, Markup.tags, (plain_escape name).1]

/-- Without its tags, a label is its first line with the text of the small print behind it. -/
lemma dropTags_label {node : Node} {summary : String} (h : node.label = Markup.escape summary) :
    Markup.dropTags 0 (label node).toList =
      titleChars node summary ++ (smallPrint node.assigneeName).flatMap Prod.snd := by
  have htitle : '<' ∉ titleChars node summary := (plain_titleChars node summary).1
  have hsmall := mem_tags_smallPrint node.assigneeName
  rw [toList_label h]
  split
  · have hpieces : ∀ piece ∈ ("s".toList, titleChars node summary) :: ("/s".toList, []) ::
        smallPrint node.assigneeName, '<' :: (piece.1 ++ ['>']) ∈ Markup.tags ∧ '<' ∉ piece.2 :=
      List.forall_mem_cons.mpr ⟨⟨by simp [Markup.tags], htitle⟩,
        List.forall_mem_cons.mpr ⟨by simp [Markup.tags], hsmall⟩⟩
    rw [List.nil_append, Markup.dropTags_written hpieces]
    simp
  · rw [Markup.dropTags_append htitle, Markup.dropTags_written hsmall]

lemma unescape_smallPrint (assignee : Option String) :
    unescape ((smallPrint assignee).flatMap Prod.snd) = (assignee.getD "").toList := by
  cases assignee with
  | none => rfl
  | some name => simp [smallPrint, unescape_escape]

lemma unescape_label {node : Node} {summary : String} (h : node.label = Markup.escape summary) :
    String.ofList (unescape (Markup.dropTags 0 (label node).toList)) =
      node.externalId ++ ": " ++ summary ++ node.assigneeName.getD "" := by
  rw [dropTags_label h, titleChars, List.append_assoc, unescape_escape_append, List.cons_append,
    List.cons_append, unescape_cons (by decide), unescape_cons (by decide), unescape_escape_append,
    unescape_smallPrint, ← String.toList_inj, String.toList_ofList]
  simp [String.toList_append]

/-- The node of an issue has its label, wherever it stands in a forest. -/
lemma holds_label_nodeOf (directory : Directory) (categoryField : Option String) (index : Index)
    (issue : Issue) (parent : Option Nat) (children : Array Nat) :
    Markup.Holds (label (Forest.nodeOf directory categoryField index issue parent children))
      (issue.labelText directory) where
  closed := Markup.closing?_of_balanced (balanced_label rfl)
  text_eq := unescape_label rfl

lemma holds_label_ofIssues (issues : List Issue) (directory : Directory)
    (categoryField : Option String) {i : Nat} (hi : i < issues.length) :
    Markup.Holds (label ((Forest.ofIssues issues directory categoryField).node i))
      (issues[i].labelText directory) := by
  rw [Forest.node_ofIssues _ _ _ hi]
  exact holds_label_nodeOf ..

/-- A block has a single label. -/
lemma values_label (forest : Forest) (baseUrl : String) (position : Nat) :
    values (block forest baseUrl position).settings "label" =
      [.html (label (forest.node position))] := by
  simp [block, settings, values]

end Document

/-- The label of an issue's node ends at the bracket that is written behind it and nowhere before,
whatever follows. Without its tags, and decoded once, it is the id, the summary and the name of the
assignee, if the directory knows one. So it is for the nodes of every forest and for every block of
a document. Decoding takes back what escaping has done to a text, and escaping leaves just those
texts alone that have no special character. -/
theorem Document.label_closed_and_lossless :
    (∀ issues directory categoryField policy forest,
      Forest.build issues directory categoryField policy = .ok forest →
        ∀ i issue, issues[i]? = some issue →
          Markup.Holds (label (forest.node i)) (issue.labelText directory)) ∧
    (∀ directory categoryField index issue parent children,
      Markup.Holds (label (Forest.nodeOf directory categoryField index issue parent children))
        (issue.labelText directory)) ∧
    (∀ issues directory options document, draw issues directory options = .ok document →
      ∃ order blocks edges, outline? document = some (blocks, edges) ∧ order.Perm issues ∧
        List.Forall₂ (fun issue block => block.identifier? = some issue.identifier ∧
          ∃ markup, values block.settings "label" = [.html markup] ∧
            Markup.Holds markup (issue.labelText directory)) order blocks.preorder) ∧
    (∀ text : String, unescape (Markup.escape text).toList = text.toList) ∧
    ∀ text : String, Markup.escape text = text ↔ ∀ c ∈ text.toList, c ∉ Markup.special := by
  refine ⟨?_, holds_label_nodeOf, ?_, unescape_escape, fun _ => Markup.escape_eq_self_iff⟩
  · intro issues directory categoryField policy forest h i issue hissue
    obtain ⟨-, rfl⟩ := Forest.build_eq_ok_iff.mp h
    obtain ⟨hi, rfl⟩ := List.getElem?_eq_some_iff.mp hissue
    exact holds_label_ofIssues issues directory categoryField hi
  · intro issues directory options document h
    refine exists_blocks_of_draw h fun i hi => ?_
    exact ⟨_, values_label .., holds_label_ofIssues issues directory options.categoryField hi⟩

/-- An issue that is resolved, and whose assignee has an apostrophe in the name. -/
theorem Document.label_tangledForest_closed_and_lossless :
    label (Forest.tangledForest.node 1) =
        "<s>A-1: cause: effect</s><br/><font point-size=\"12\">O&#039;Neil</font>" ∧
      Markup.closing? 0 ('<' :: ((label (Forest.tangledForest.node 1)).toList ++ ['>', '>'])) =
        some ((label (Forest.tangledForest.node 1)).length + 1) ∧
      String.ofList (unescape (Markup.dropTags 0 (label (Forest.tangledForest.node 1)).toList)) =
        "A-1: cause: effectO'Neil" := by
  have hlabel := Document.label_closed_and_lossless.1 _ _ _ _ _ Forest.build_tangledIssues 1 _ rfl
  exact ⟨by decide +kernel, hlabel.closed ['>'], hlabel.text_eq.trans (by decide +kernel)⟩

end PlanChart
