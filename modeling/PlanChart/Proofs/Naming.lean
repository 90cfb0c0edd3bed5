import PlanChart.Proofs.Dot.Words
import PlanChart.Proofs.Linking

/-!
# Identifiers can be used as names

The identifier derived from a text has the form that the document's language asks of a name, and a
text that has this form already is left as it is. So identifiers are derived once and for all. None
but a keyword has a keyword for its identifier. A forest is built only of issues whose identifiers
are neither shared nor reserved, so its nodes can be told apart by theirs.
-/

namespace PlanChart

namespace Identifier

/-- The form of identifiers: a letter or an underscore, and then letters, digits and underscores,
all of them ASCII characters. -/
def IsValid (text : String) : Prop :=
  ∃ first rest, text.toList = first :: rest ∧ (first.isAlpha ∨ first = '_') ∧
    ∀ c ∈ rest, c.isAlpha ∨ c.isDigit ∨ c = '_'

/-- Two texts that differ in the case of ASCII letters at most. -/
def SameUpToCase (text other : String) : Prop :=
  text.toList.map Char.toLower = other.toList.map Char.toLower

/-! ### Derived identifiers -/

lemma isDigit_of_isAlpha {c : Char} (h : c.isAlpha = true) : c.isDigit = false := by
  simp only [Char.isAlpha, Char.isUpper, Char.isLower, Char.isDigit, Bool.or_eq_true,
    Bool.and_eq_true, decide_eq_true_eq, Bool.and_eq_false_iff, decide_eq_false_iff_not,
    UInt32.le_iff_toNat_le, ge_iff_le] at h ⊢
  have hletters : 'A'.val.toNat = 65 ∧ 'a'.val.toNat = 97 ∧ '9'.val.toNat = 57 := by decide
  omega

lemma isPart_iff {c : Char} : isPart c = true ↔ c.isAlpha ∨ c.isDigit ∨ c = '_' := by
  simp [isPart, Char.isAlphanum, or_assoc]

lemma part_eq_self_iff {c : Char} : part c = c ↔ isPart c = true := by
  unfold part
  split
  · simp [*]
  · rename_i hpart
    simp only [hpart, Bool.false_eq_true, iff_false]
    rintro rfl
    exact hpart rfl

lemma map_part_eq_self_iff {text : List Char} :
    text.map part = text ↔ ∀ c ∈ text, isPart c = true := by
  simp only [← part_eq_self_iff]
  simpa only [List.map_id, id] using List.map_inj_left (f := part) (g := id) (l := text)

/-- A text is left as it is if it needs no underscore in front and none in place of a character. -/
lemma chars_eq_self_iff {text : List Char} :
    chars text = text ↔ needsLead text = false ∧ ∀ c ∈ text, isPart c = true := by
  rw [← map_part_eq_self_iff, chars]
  cases hlead : needsLead text with
  | true =>
    rw [if_pos rfl]
    simp only [Bool.true_eq_false, false_and, iff_false]
    intro heq
    have hlength := congrArg List.length heq
    simp at hlength
  | false => simp

lemma isValid_iff {text : String} :
    IsValid text ↔ needsLead text.toList = false ∧ ∀ c ∈ text.toList, isPart c = true := by
  unfold IsValid
  cases text.toList with
  | nil => simp [needsLead]
  | cons first rest =>
    simp only [needsLead, List.forall_mem_cons, isPart_iff, List.cons.injEq]
    constructor
    · rintro ⟨_, _, ⟨rfl, rfl⟩, hfirst, hrest⟩
      refine ⟨?_, hfirst.imp_right Or.inr, hrest⟩
      rcases hfirst with halpha | rfl
      · exact isDigit_of_isAlpha halpha
      · rfl
    · rintro ⟨hdigit, hfirst, hrest⟩
      refine ⟨first, rest, ⟨rfl, rfl⟩, ?_, hrest⟩
      simpa [hdigit] using hfirst

lemma isValid_ofText (text : String) : IsValid (ofText text) := by
  rw [isValid_iff, ofText, String.toList_ofList]
  refine ⟨?_, fun c hc => isWordPart_of_mem_chars hc⟩
  have hhead := not_isDigit_head?_chars text.toList
  have hne := chars_ne_nil text.toList
  cases hchars : chars text.toList with
  | nil => exact absurd hchars hne
  | cons c rest => simpa [needsLead, hchars] using hhead

lemma ofText_eq_self_iff {text : String} : ofText text = text ↔ IsValid text := by
  rw [isValid_iff, ← chars_eq_self_iff, ← String.toList_inj, ofText, String.toList_ofList]

/-! ### Keywords -/

lemma isKeyword_iff (word : String) :
    isKeyword word = true ↔ ∃ keyword ∈ keywords, keyword.toList = word.toList.map Char.toLower := by
  simp [isKeyword]

lemma keyword_isLower :
    ∀ keyword ∈ keywords, keyword.toList ≠ [] ∧ ∀ c ∈ keyword.toList, c.isLower := by
  simp [keywords]

lemma isAlpha_of_isLower_toLower {c : Char} (h : c.toLower.isLower = true) : c.isAlpha = true := by
  unfold Char.toLower at h
  split at h
  · rename_i hupper
    exact Bool.or_eq_true_iff.mpr (Or.inl (decide_eq_true hupper))
  · simp [Char.isAlpha, h]

/-- The characters of a keyword are letters, whatever their case. -/
lemma isAlpha_of_isKeyword {word : String} (h : isKeyword word = true) :
    word.toList ≠ [] ∧ ∀ c ∈ word.toList, c.isAlpha := by
  obtain ⟨keyword, hkeyword, heq⟩ := (isKeyword_iff word).mp h
  obtain ⟨hne, hlower⟩ := keyword_isLower keyword hkeyword
  rw [heq] at hne hlower
  exact ⟨fun hnil => hne (by rw [hnil, List.map_nil]),
    fun c hc => isAlpha_of_isLower_toLower (hlower c.toLower (List.mem_map_of_mem hc))⟩

/-- A keyword is its own identifier. -/
lemma ofText_of_isKeyword {word : String} (h : isKeyword word = true) : ofText word = word := by
  obtain ⟨hne, halpha⟩ := isAlpha_of_isKeyword h
  obtain ⟨first, rest, hword⟩ := List.exists_cons_of_ne_nil hne
  rw [hword, List.forall_mem_cons] at halpha
  obtain ⟨hfirst, hrest⟩ := halpha
  rw [ofText_eq_self_iff]
  exact ⟨first, rest, hword, Or.inl hfirst, fun c hc => Or.inl (hrest c hc)⟩

/-- Nothing but a keyword has a keyword for its identifier. -/
lemma ofText_eq_of_isKeyword {text : String} (h : isKeyword (ofText text) = true) :
    ofText text = text := by
  obtain ⟨-, halpha⟩ := isAlpha_of_isKeyword h
  rw [ofText, String.toList_ofList] at halpha
  have hunderscore : '_' ∉ chars text.toList := by
    intro hmem
    exact absurd (halpha '_' hmem) (by decide)
  rw [ofText_eq_self_iff, isValid_iff]
  -- Every change to a text puts an underscore into it.
  cases hlead : needsLead text.toList with
  | true =>
    refine absurd ?_ hunderscore
    simp [chars, hlead]
  | false =>
    refine ⟨rfl, fun c hc => ?_⟩
    by_contra hpart
    refine hunderscore ?_
    rw [chars, hlead, if_neg Bool.false_ne_true]
    exact List.mem_map.mpr ⟨c, hc, by simp [part, hpart]⟩

lemma isKeyword_ofText (text : String) : isKeyword (ofText text) = isKeyword text := by
  rw [Bool.eq_iff_iff]
  constructor
  · intro h
    rwa [ofText_eq_of_isKeyword h] at h
  · intro h
    rwa [ofText_of_isKeyword h]

lemma toLower_of_isLower {c : Char} (h : c.isLower = true) : c.toLower = c := by
  have hupper : ¬ c.isUpper = true := by
    simp [Char.isLower, Char.isUpper, UInt32.le_iff_toNat_le] at h ⊢
    omega
  rw [Char.toLower, dif_neg]
  simpa [Char.isUpper] using hupper

lemma isKeyword_eq_true_iff {word : String} :
    isKeyword word = true ↔ ∃ keyword ∈ keywords, SameUpToCase keyword word := by
  rw [isKeyword_iff]
  refine exists_congr fun keyword => and_congr_right fun hkeyword => ?_
  have hsame : keyword.toList.map Char.toLower = keyword.toList := by
    refine (List.map_congr_left fun c hc => ?_).trans (List.map_id _)
    exact toLower_of_isLower ((keyword_isLower keyword hkeyword).2 c hc)
  rw [SameUpToCase, hsame]

end Identifier

/-! ### The identifiers of a forest -/

open Identifier

namespace Forest

variable {issues : List Issue} {policy : MissingPolicy}

lemma Buildable.not_sameUpToCase (h : Buildable issues policy) {issue : Issue}
    (hissue : issue ∈ issues) : ∀ keyword ∈ keywords, ¬ SameUpToCase keyword issue.identifier := by
  intro keyword hkeyword hsame
  have hreserved := isKeyword_eq_true_iff.mpr ⟨keyword, hkeyword, hsame⟩
  rw [h.not_keyword issue hissue] at hreserved
  cases hreserved

/-- Issues at different positions have different identifiers. -/
lemma Buildable.eq_of_identifier_eq (h : Buildable issues policy) {i j : Nat}
    (hi : i < issues.length) (hj : j < issues.length)
    (heq : (issueAt issues i).identifier = (issueAt issues j).identifier) : i = j := by
  have hissue := List.inj_on_of_nodup_map h.identifiers_nodup (issueAt_mem hi) (issueAt_mem hj) heq
  rw [← idxOf_id_issueAt h.ids_nodup hi, hissue, idxOf_id_issueAt h.ids_nodup hj]

/-- An identifier always has the form of one, and a text that has this form is its own identifier;
it is a keyword just when the text is one. In a forest every node has an identifier of this form,
which no other node has and which is no keyword in any letter case. -/
theorem identifiers_valid_and_unique :
    (∀ text, IsValid (ofText text) ∧ (ofText text = text ↔ IsValid text) ∧
      ofText (ofText text) = ofText text ∧
      (isKeyword (ofText text) = true ↔ ∃ keyword ∈ keywords, SameUpToCase keyword text)) ∧
    ∀ issues directory categoryField policy forest,
      build issues directory categoryField policy = .ok forest →
      forest.size = issues.length ∧
      (∀ i < forest.size, (forest.node i).id = ofText (issueAt issues i).id ∧
        IsValid (forest.node i).id ∧
        ∀ keyword ∈ keywords, ¬ SameUpToCase keyword (forest.node i).id) ∧
      ∀ i < forest.size, ∀ j < forest.size, (forest.node i).id = (forest.node j).id → i = j := by
  constructor
  · intro text
    have hvalid := isValid_ofText text
    refine ⟨hvalid, ofText_eq_self_iff, ofText_eq_self_iff.mpr hvalid, ?_⟩
    rw [isKeyword_ofText, isKeyword_eq_true_iff]
  · intro issues directory categoryField policy forest h
    obtain ⟨hbuildable, rfl⟩ := build_eq_ok_iff.mp h
    rw [size_ofIssues]
    refine ⟨rfl, fun i hi => ?_, fun i hi j hj heq => ?_⟩
    · rw [id_node_ofIssues _ _ _ hi]
      exact ⟨rfl, isValid_ofText _, hbuildable.not_sameUpToCase (issueAt_mem hi)⟩
    · rw [id_node_ofIssues _ _ _ hi, id_node_ofIssues _ _ _ hj] at heq
      exact hbuildable.eq_of_identifier_eq hi hj heq

/-- An id that starts with a digit and an empty id become names, which differ from each other and
from the keywords. -/
theorem tangledForest_identifiers_valid :
    build tangledIssues tangledDirectory none .drop = .ok tangledForest ∧
      (tangledForest.node 2).id = "_7_" ∧ (tangledForest.node 3).id = "_" ∧
      (∀ i < 4, IsValid (tangledForest.node i).id ∧
        ∀ keyword ∈ keywords, ¬ SameUpToCase keyword (tangledForest.node i).id) ∧
      (tangledForest.node 2).id ≠ (tangledForest.node 3).id := by
  obtain ⟨hsize, hnodes, hdistinct⟩ :=
    identifiers_valid_and_unique.2 _ _ _ _ _ build_tangledIssues
  have hfour : tangledForest.size = 4 := hsize
  rw [hfour] at hnodes hdistinct
  refine ⟨build_tangledIssues, ?_, ?_, fun i hi => (hnodes i hi).2, fun heq => ?_⟩
  · exact (hnodes 2 (by decide)).1
  · exact (hnodes 3 (by decide)).1
  · exact absurd (hdistinct 2 (by decide) 3 (by decide) heq) (by decide)

end Forest

end PlanChart
