import PlanChart.Document.Node
import PlanChart.Proofs.ColorLiteral
import PlanChart.Proofs.Dot.Lexer

/-!
# The words of plan documents

Identifiers are names of the document's language, and so are the names that clusters have. Links and
colours can be read from between quotes, and labels from between angle brackets.
-/

namespace PlanChart

open Dot

/-! ### Names -/

namespace Identifier

lemma isPart_part (c : Char) : isPart (part c) = true := by
  unfold part
  split
  · assumption
  · rfl

lemma isWordPart_of_mem_chars {text : List Char} {c : Char} (h : c ∈ chars text) :
    isWordPart c = true := by
  have hmap : ∀ d ∈ text.map part, isWordPart d = true := by
    intro d hd
    obtain ⟨e, -, rfl⟩ := List.mem_map.mp hd
    exact isPart_part e
  unfold chars at h
  split at h
  · rcases List.mem_cons.mp h with rfl | h
    · rfl
    · exact hmap c h
  · exact hmap c h

lemma isDigit_part {c : Char} (h : c.isDigit = false) : (part c).isDigit = false := by
  unfold part
  split
  · exact h
  · rfl

lemma not_isDigit_head?_chars (text : List Char) : (chars text).head?.any Char.isDigit = false := by
  unfold chars
  cases text with
  | nil => rfl
  | cons c text =>
    cases hc : c.isDigit with
    | true =>
      rw [if_pos (by simpa [needsLead] using hc)]
      rfl
    | false =>
      rw [if_neg (by simp [needsLead, hc])]
      exact isDigit_part hc

lemma length_chars (text : List Char) :
    (chars text).length = text.length ∨ (chars text).length = text.length + 1 := by
  unfold chars
  split
  · simp
  · simp

lemma chars_ne_nil (text : List Char) : chars text ≠ [] := by
  cases text with
  | nil => simp [chars, needsLead]
  | cons c text =>
    unfold chars
    split <;> simp

lemma find?_keyword_eq_none {identifier : String} (h : isKeyword identifier = false) :
    Keyword.find? identifier.toList = none := by
  simp [isKeyword, keywords] at h
  simp [Keyword.find?, Keyword.all, Keyword.word, h]

/-- An identifier that is no keyword is a name of the document's language. -/
lemma isName {text : String} (h : isKeyword (ofText text) = false) : IsName (ofText text) where
  parts c hc := by
    rw [ofText, String.toList_ofList] at hc
    exact isWordPart_of_mem_chars hc
  head := by
    rw [ofText, String.toList_ofList]
    exact not_isDigit_head?_chars text.toList
  ne_empty := by
    rw [ofText, Ne, ← String.toList_eq_nil_iff, String.toList_ofList]
    exact chars_ne_nil text.toList
  not_keyword := find?_keyword_eq_none h

end Identifier

lemma Dot.IsName.cluster {text : String} (h : IsName text) : IsName ("cluster_" ++ text) where
  parts c hc := by
    rw [String.toList_append, List.mem_append] at hc
    rcases hc with hc | hc
    · have hall : "cluster_".toList.all isWordPart = true := by decide +kernel
      exact List.all_eq_true.mp hall c hc
    · exact h.parts c hc
  head := by
    rw [String.toList_append]
    rfl
  ne_empty := by simp [String.append_eq_empty_iff]
  not_keyword := by
    rw [String.toList_append]
    simp [Keyword.find?, Keyword.all, Keyword.word]

/-! ### Values -/

namespace Quoted

lemma escape_append (text text' : String) :
    escape (text ++ text') = escape text ++ escape text' := by
  simp [escape, String.toList_append]

lemma escape_eq_self {text : String} (h : ∀ c ∈ text.toList, c ≠ '\\' ∧ c ≠ '"') :
    escape text = text := by
  rw [escape, ← String.toList_inj, String.toList_ofList]
  generalize text.toList = chars at h
  induction chars with
  | nil => rfl
  | cons c chars ih =>
    obtain ⟨⟨hslash, hquote⟩, hchars⟩ := List.forall_mem_cons.mp h
    simp [escapeChar, hslash, hquote, ih hchars]

end Quoted

lemma Hex.ne_of_mem_digits {c : Char} (h : c ∈ Hex.digits) : c ≠ '\\' ∧ c ≠ '"' := by
  constructor
  · rintro rfl
    revert h
    decide
  · rintro rfl
    revert h
    decide

namespace Color

lemma escape_normalize {literal color : String} (h : normalize literal = .ok color) :
    Quoted.escape color = color := by
  obtain ⟨long, hlong, rfl, -⟩ := (normalize_eq_ok_iff.mp h).exists_digits
  apply Quoted.escape_eq_self
  intro c hc
  rw [String.toList_ofList] at hc
  rcases List.mem_cons.mp hc with rfl | hc
  · decide
  · exact Hex.ne_of_mem_digits (hlong c hc)

end Color

namespace Document

lemma link_eq (baseUrl : String) (node : Node) :
    link baseUrl node = Quoted.escape (baseUrl ++ "issue/" ++ node.externalId) := by
  have hissue : Quoted.escape "issue/" = "issue/" := by decide +kernel
  rw [link, Quoted.escape_append, Quoted.escape_append, hissue]

lemma balanced_label {node : Node} {summary : String} (h : node.label = Markup.escape summary) :
    Balanced (label node) := by
  have hcolon : Balanced ": " := balanced_of_not_mem (by simp)
  have htitle : Balanced (Markup.escape node.externalId ++ ": " ++ node.label) := by
    -- Only what is escaped can come from the plan; the rest of the label has no stray brackets.
    rw [h]
    exact ((balanced_escape _).append hcolon).append (balanced_escape summary)
  have hline : Balanced (if node.resolved then
      "<s>" ++ (Markup.escape node.externalId ++ ": " ++ node.label) ++ "</s>"
      else Markup.escape node.externalId ++ ": " ++ node.label) := by
    have hopen : Balanced "<s>" := balanced_tag "s" (by simp) (by simp)
    have hclose : Balanced "</s>" := balanced_tag "/s" (by simp) (by simp)
    split
    · exact (hopen.append htitle).append hclose
    · exact htitle
  unfold label
  cases node.assigneeName with
  | none => exact hline
  | some name =>
    have hbreak : Balanced "<br/>" := balanced_tag "br/" (by simp) (by simp)
    have hfont : Balanced "<font point-size=\"12\">" :=
      balanced_tag "font point-size=\"12\"" (by simp) (by simp)
    have hsmall : Balanced "<br/><font point-size=\"12\">" := by
      simpa using hbreak.append hfont
    have hclose : Balanced "</font>" := balanced_tag "/font" (by simp) (by simp)
    exact ((hline.append hsmall).append (balanced_escape name)).append hclose

end Document

end PlanChart
