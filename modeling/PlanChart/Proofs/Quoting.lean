import PlanChart.Proofs.Attachment

/-!
# Quoted values end where they should

A text is written between double quotes with a backslash in front of some of its characters. No
quote that is written this way ends the value, not even where the text has backslashes before a
quote or ends with one, and what is read between the quotes is the text. So the links of a document
are what they should be for all base URLs and ids.
-/

namespace PlanChart

namespace Quoted

/-- How far it is to the first double quote that no backslash has consumed. A backslash consumes the
character after it. -/
def closing? : List Char → Option Nat
  | '\\' :: _ :: text => (closing? text).map (· + 2)
  | ['\\'] => none
  | '"' :: _ => some 0
  | _ :: text => (closing? text).map (· + 1)
  | [] => none

/-- A text in which, from left to right, two backslashes are replaced by one, and a backslash with a
double quote by the quote. -/
def decode : List Char → List Char
  | '\\' :: '\\' :: text => '\\' :: decode text
  | '\\' :: '"' :: text => '"' :: decode text
  | c :: text => c :: decode text
  | [] => []

/-- A text with another one in place of every occurrence of a character. -/
def replace (old : Char) (new text : List Char) : List Char :=
  text.flatMap fun c => if c = old then new else [c]

/-! ### Characters -/

lemma closing?_cons {c : Char} (hslash : c ≠ '\\') (hquote : c ≠ '"') (text : List Char) :
    closing? (c :: text) = (closing? text).map (· + 1) := by
  rw [closing?]
  · intro _ _ heq
    exact absurd heq hslash
  · intro heq
    exact absurd heq hslash
  · exact hquote

lemma decode_cons {c : Char} (hslash : c ≠ '\\') (text : List Char) :
    decode (c :: text) = c :: decode text := by
  rw [decode]
  · intro _ heq
    exact absurd heq hslash
  · intro _ heq
    exact absurd heq hslash

lemma escapeChar_of_ne {c : Char} (hslash : c ≠ '\\') (hquote : c ≠ '"') : escapeChar c = [c] := by
  simp [escapeChar, hslash, hquote]

/-- A written character does not end the value, and the scan goes on behind it. -/
lemma closing?_escapeChar (c : Char) (text : List Char) :
    closing? (escapeChar c ++ text) = (closing? text).map (· + (escapeChar c).length) := by
  by_cases hslash : c = '\\'
  · subst hslash
    rfl
  by_cases hquote : c = '"'
  · subst hquote
    rfl
  rw [escapeChar_of_ne hslash hquote]
  exact closing?_cons hslash hquote text

lemma decode_escapeChar (c : Char) (text : List Char) :
    decode (escapeChar c ++ text) = c :: decode text := by
  by_cases hslash : c = '\\'
  · subst hslash
    rfl
  by_cases hquote : c = '"'
  · subst hquote
    rfl
  rw [escapeChar_of_ne hslash hquote]
  exact decode_cons hslash text

/-! ### Texts -/

lemma closing?_flatMap (text rest : List Char) :
    closing? (text.flatMap escapeChar ++ rest) =
      (closing? rest).map (· + (text.flatMap escapeChar).length) := by
  induction text with
  | nil => simp
  | cons c text ih =>
    rw [List.flatMap_cons, List.append_assoc, closing?_escapeChar, ih, Option.map_map,
      List.length_append]
    refine congrArg (Option.map · _) (funext fun n => ?_)
    rw [Function.comp_apply, Nat.add_assoc, Nat.add_comm (List.length _)]

lemma decode_flatMap (text : List Char) : decode (text.flatMap escapeChar) = text := by
  induction text with
  | nil => rfl
  | cons c text ih => rw [List.flatMap_cons, decode_escapeChar, ih]

/-- The characters that are escaped can as well be replaced one after the other, the backslashes
first: then those that the quotes get are not replaced again. -/
lemma toList_escape_eq_replace (text : String) :
    (escape text).toList = replace '"' ['\\', '"'] (replace '\\' ['\\', '\\'] text.toList) := by
  rw [escape, String.toList_ofList, replace, replace, List.flatMap_assoc]
  refine congrArg (List.flatMap · _) (funext fun c => ?_)
  by_cases hslash : c = '\\'
  · subst hslash
    rfl
  by_cases hquote : c = '"'
  · subst hquote
    rfl
  simp [escapeChar, hslash, hquote]

lemma closing?_escape (text : String) (rest : List Char) :
    closing? ((escape text).toList ++ '"' :: rest) = some (escape text).length := by
  have hend : closing? ('"' :: rest) = some 0 := by simp [closing?]
  rw [escape, String.toList_ofList, closing?_flatMap, hend]
  simp

lemma decode_escape (text : String) : decode (escape text).toList = text.toList := by
  rw [escape, String.toList_ofList, decode_flatMap]

end Quoted

/-! ### The links of a document -/

open Dot Quoted

namespace Document

lemma closing?_link (baseUrl : String) (node : Node) (rest : List Char) :
    closing? ((link baseUrl node).toList ++ '"' :: rest) = some (link baseUrl node).length := by
  rw [link_eq, closing?_escape]

/-- Between its quotes, a link holds the base URL, the path of the issues and the id. -/
lemma decode_link (baseUrl : String) (node : Node) :
    decode (link baseUrl node).toList = (baseUrl ++ "issue/" ++ node.externalId).toList := by
  rw [link_eq, decode_escape]

/-- A block has a single link. -/
lemma values_href (forest : Forest) (baseUrl : String) (position : Nat) :
    values (block forest baseUrl position).settings "href" =
      [.text (baseUrl ++ "issue/" ++ (forest.node position).externalId)] := by
  simp [block, settings, values]

end Document

/-- A value between double quotes ends at the quote that is written behind it and nowhere before,
and can be decoded, for every text and whatever follows; the value of two texts is made up of the
values of each. So every link that is written in a document, and every one that is read in it, is
made of the base URL and the id of the issue. -/
theorem Quoted.escape_closed_and_lossless :
    (∀ (text : String) (rest : List Char),
      closing? ((escape text).toList ++ '"' :: rest) = some (escape text).length) ∧
    (∀ text : String, decode (escape text).toList = text.toList) ∧
    (∀ text other : String, escape (text ++ other) = escape text ++ escape other) ∧
    (∀ text : String, (escape text).toList =
      replace '"' ['\\', '"'] (replace '\\' ['\\', '\\'] text.toList)) ∧
    (∀ baseUrl node,
      (∀ rest : List Char, closing? ((Document.link baseUrl node).toList ++ '"' :: rest) =
        some (Document.link baseUrl node).length) ∧
      decode (Document.link baseUrl node).toList =
        (baseUrl ++ "issue/" ++ node.externalId).toList) ∧
    ∀ issues directory options document, draw issues directory options = .ok document →
      ∃ order blocks edges, outline? document = some (blocks, edges) ∧ order.Perm issues ∧
        List.Forall₂ (fun issue block => block.identifier? = some issue.identifier ∧
          values block.settings "href" = [.text (options.baseUrl ++ "issue/" ++ issue.id)])
          order blocks.preorder := by
  refine ⟨closing?_escape, decode_escape, escape_append, toList_escape_eq_replace,
    fun baseUrl node => ⟨Document.closing?_link baseUrl node, Document.decode_link baseUrl node⟩, ?_⟩
  intro issues directory options document h
  refine exists_blocks_of_draw h fun i hi => ?_
  rw [Document.values_href, Forest.node_ofIssues _ _ _ hi]
  rfl

/-- A base URL with a double quote at its end and an id with a backslash at its end make up a link.
-/
theorem Quoted.escape_tangledIssues_closed_and_lossless :
    ∃ document blocks edges,
      draw Forest.tangledIssues Forest.tangledDirectory
        { baseUrl := "http://x/\"", missingDependencies := .drop } = .ok document ∧
      outline? document = some (blocks, edges) ∧ ∃ block ∈ blocks.preorder,
        block.identifier? = some "_7_" ∧
        values block.settings "href" = [.text "http://x/\"issue/7\\"] := by
  obtain ⟨document, hdocument⟩ := exists_draw_iff.mpr (drawable_tangledIssues "http://x/\"")
  obtain ⟨order, blocks, edges, houtline, hperm, hblocks⟩ :=
    Quoted.escape_closed_and_lossless.2.2.2.2.2 _ _ _ _ hdocument
  have hmem : Forest.tangledIssues[2] ∈ order := hperm.mem_iff.mpr (List.getElem_mem _)
  obtain ⟨n, hn, hissue⟩ := List.getElem_of_mem hmem
  obtain ⟨hidentifier, hlink⟩ := hblocks.get hn (hblocks.length_eq ▸ hn)
  simp only [List.get_eq_getElem, hissue] at hidentifier hlink
  exact ⟨document, blocks, edges, hdocument, houtline, _, List.getElem_mem _, hidentifier, hlink⟩

end PlanChart
