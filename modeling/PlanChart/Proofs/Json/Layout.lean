import PlanChart.Proofs.Json.Value

/-!
# Printed values have no blank line

Every line of a printed value holds something: line breaks inside texts are escaped, and those
between the parts of a value stand in front of an element, a name or a closing bracket.
-/

namespace PlanChart.Json

/-- No line break follows another one. -/
def Unbroken (text : List Char) : Prop :=
  text.IsChain fun c next => ¬ (c = '\n' ∧ next = '\n')

/-- No line break follows another one or ends the text. -/
structure Compact (text : List Char) : Prop where
  unbroken : Unbroken text
  last : text.getLast? ≠ some '\n'

lemma Unbroken.not_isInfix {text : List Char} (h : Unbroken text) :
    ¬ ['\n', '\n'] <:+: text := by
  intro hinfix
  have hpair : Unbroken ['\n', '\n'] := List.IsChain.infix h hinfix
  simp [Unbroken] at hpair

namespace Compact

variable {text other : List Char}

lemma unbroken_append (h : Compact text) (hother : Unbroken other) : Unbroken (text ++ other) := by
  refine List.isChain_append.mpr ⟨h.unbroken, hother, fun c hc next _ heq => ?_⟩
  exact h.last (heq.1 ▸ hc)

lemma append (h : Compact text) (hother : Compact other) : Compact (text ++ other) where
  unbroken := h.unbroken_append hother.unbroken
  last := by
    rw [List.getLast?_append]
    cases hlast : other.getLast? with
    | none => simpa using h.last
    | some c => simpa [hlast] using hother.last

lemma of_not_mem (h : '\n' ∉ text) : Compact text where
  unbroken := by
    refine List.Pairwise.isChain (List.pairwise_of_forall_mem_list fun c hc _ _ heq => ?_)
    exact h (heq.1 ▸ hc)
  last hlast := h (List.mem_of_getLast? hlast)

/-- A line break may stand in front of what does not start with another one. -/
lemma newline_append (depth : Nat) {c : Char} (hc : c ≠ '\n') (h : Compact (c :: text)) :
    Compact ((newline depth).toList ++ c :: text) := by
  have hspace : Compact (List.replicate (2 * depth) ' ') :=
    of_not_mem fun hmem => absurd (List.eq_of_mem_replicate hmem) (by decide)
  have hline := hspace.append h
  have hhead : (List.replicate (2 * depth) ' ' ++ c :: text).head? ≠ some '\n' := by
    cases depth with
    | zero => simpa using hc
    | succ depth => simp [Nat.mul_succ, List.replicate_succ]
  rw [newline, String.toList_ofList, List.cons_append]
  exact {
    unbroken := List.isChain_cons.mpr
      ⟨fun next hnext heq => hhead (heq.2 ▸ hnext), hline.unbroken⟩
    last := by
      rw [List.getLast?_cons_of_ne_nil (by simp)]
      exact hline.last }

end Compact

/-! ### Printed values -/

lemma digit_ne_newline : ∀ value < 16, Hex.digit value ≠ '\n' := by
  decide

lemma not_mem_escapeChar (c : Char) : '\n' ∉ escapeChar c := by
  have hdigits (hcontrol : c < ' ') :
      Hex.digit (c.toNat / 16) ≠ '\n' ∧ Hex.digit (c.toNat % 16) ≠ '\n' := by
    have hlt : c.toNat < 32 := hcontrol
    exact ⟨digit_ne_newline _ (by omega), digit_ne_newline _ (by omega)⟩
  unfold escapeChar
  split_ifs with hquote hbackslash hb ht hn hf hr hcontrol
  any_goals decide
  · simpa [eq_comm] using hdigits hcontrol
  · simpa [eq_comm] using hn

lemma compact_quote (text : String) : Compact (quote text).toList := by
  refine .of_not_mem fun hmem => ?_
  rw [quote, String.toList_ofList, List.cons_append, List.mem_cons, List.mem_append,
    List.mem_flatMap] at hmem
  rcases hmem with hquote | ⟨c, -, hc⟩ | hquote
  · exact absurd hquote (by decide)
  · exact not_mem_escapeChar c hc
  · exact absurd hquote (by decide)

/-- A value is printed without blank lines, however far in. -/
def PrintsCompact (value : Json) : Prop :=
  ∀ depth, Compact (printAt depth value).toList

section

variable {value : Json} {elements : List Json} {members : List (String × Json)}

/-- A value may be printed on a line of its own. -/
lemma PrintsCompact.line (h : PrintsCompact value) (hplain : value.Plain) (depth : Nat) :
    Compact ((newline depth).toList ++ (printAt depth value).toList) := by
  obtain ⟨c, chars, heq, hblank, -⟩ := hplain.exists_toList_printAt depth
  have hbreak : c ≠ '\n' := by
    rintro rfl
    exact absurd hblank (by decide)
  have hvalue := h depth
  rw [heq] at hvalue ⊢
  exact hvalue.newline_append depth hbreak

lemma compact_newline_quote (depth : Nat) (text : String) :
    Compact ((newline depth).toList ++ (quote text).toList) := by
  obtain ⟨chars, heq, -⟩ := exists_toList_quote text
  have hquote := compact_quote text
  rw [heq] at hquote ⊢
  exact hquote.newline_append depth (by decide)

lemma compact_printElements (hplain : ∀ element ∈ elements, Plain element)
    (h : ∀ element ∈ elements, PrintsCompact element) (depth : Nat) :
    Compact (printElements depth elements).toList := by
  induction elements with
  | nil => exact .of_not_mem (by simp [printElements])
  | cons element elements ih =>
    obtain ⟨helement, helements⟩ := List.forall_mem_cons.mp hplain
    obtain ⟨hfirst, hothers⟩ := List.forall_mem_cons.mp h
    have hcomma : Compact ",".toList := .of_not_mem (by decide)
    simp only [printElements, String.toList_append, List.append_assoc]
    rw [← List.append_assoc (newline depth).toList]
    exact hcomma.append ((hfirst.line helement depth).append (ih helements hothers))

lemma compact_printMembers (hplain : ∀ member ∈ members, Plain member.2)
    (h : ∀ member ∈ members, PrintsCompact member.2) (depth : Nat) :
    Compact (printMembers depth members).toList := by
  induction members with
  | nil => exact .of_not_mem (by simp [printMembers])
  | cons member members ih =>
    obtain ⟨-, hmembers⟩ := List.forall_mem_cons.mp hplain
    obtain ⟨hfirst, hothers⟩ := List.forall_mem_cons.mp h
    have hcomma : Compact ",".toList := .of_not_mem (by decide)
    have hcolon : Compact ": ".toList := .of_not_mem (by decide)
    simp only [printMembers, String.toList_append, List.append_assoc]
    rw [← List.append_assoc (newline depth).toList]
    exact hcomma.append ((compact_newline_quote depth member.1).append
      (hcolon.append ((hfirst depth).append (ih hmembers hothers))))

lemma printsCompact_array (hplain : ∀ element ∈ elements, Plain element)
    (h : ∀ element ∈ elements, PrintsCompact element) : PrintsCompact (.array elements) := by
  intro depth
  cases elements with
  | nil => exact .of_not_mem (by simp [printAt])
  | cons element elements =>
    obtain ⟨helement, helements⟩ := List.forall_mem_cons.mp hplain
    obtain ⟨hfirst, hothers⟩ := List.forall_mem_cons.mp h
    have hopen : Compact "[".toList := .of_not_mem (by decide)
    have hclose : Compact ((newline depth).toList ++ "]".toList) :=
      Compact.newline_append depth (by decide) (.of_not_mem (by decide))
    simp only [printAt, String.toList_append, List.append_assoc]
    rw [← List.append_assoc (newline (depth + 1)).toList]
    exact hopen.append ((hfirst.line helement (depth + 1)).append
      ((compact_printElements helements hothers (depth + 1)).append hclose))

lemma printsCompact_object (hplain : ∀ member ∈ members, Plain member.2)
    (h : ∀ member ∈ members, PrintsCompact member.2) : PrintsCompact (.object members) := by
  intro depth
  cases members with
  | nil => exact .of_not_mem (by simp [printAt])
  | cons member members =>
    obtain ⟨-, hmembers⟩ := List.forall_mem_cons.mp hplain
    obtain ⟨hfirst, hothers⟩ := List.forall_mem_cons.mp h
    have hopen : Compact "\x7b".toList := .of_not_mem (by decide)
    have hcolon : Compact ": ".toList := .of_not_mem (by decide)
    have hclose : Compact ((newline depth).toList ++ "\x7d".toList) :=
      Compact.newline_append depth (by decide) (.of_not_mem (by decide))
    simp only [printAt, String.toList_append, List.append_assoc]
    rw [← List.append_assoc (newline (depth + 1)).toList]
    exact hopen.append ((compact_newline_quote (depth + 1) member.1).append
      (hcolon.append ((hfirst (depth + 1)).append
        ((compact_printMembers hmembers hothers (depth + 1)).append hclose))))

end

lemma Plain.printsCompact {value : Json} (h : value.Plain) : PrintsCompact value := by
  induction h with
  | null => exact fun _ => .of_not_mem (by simp [printAt])
  | bool value => exact fun _ => .of_not_mem (by cases value <;> simp [printAt])
  | integer value =>
    intro depth
    rw [printAt]
    refine .of_not_mem fun hmem => ?_
    exact absurd (isDigit_or_eq_of_mem_toString hmem) (by decide)
  | string value =>
    intro depth
    rw [printAt]
    exact compact_quote value
  | array h ih => exact printsCompact_array h ih
  | object h ih => exact printsCompact_object h ih

/-- There is no blank line in what a plain value is printed as. -/
theorem Plain.not_blank_line {value : Json} (h : value.Plain) :
    ¬ ['\n', '\n'] <:+: (value.print ++ "\n").toList := by
  have hbreak : Unbroken ['\n'] := List.isChain_singleton _
  rw [print, String.toList_append]
  exact ((h.printsCompact 0).unbroken_append hbreak).not_isInfix

end PlanChart.Json
