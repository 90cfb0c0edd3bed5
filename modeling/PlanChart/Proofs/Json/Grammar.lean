import PlanChart.Proofs.Json.Spelling

/-!
# The texts of any value

A text is valid when it is the text of some JSON value. Nothing is asked of the value: numbers may
be as large as they like, and the code units in strings need not make up characters. Arrays and
objects are taken apart into the pieces between their commas.
-/

namespace PlanChart.Json

/-! ### Numbers -/

/-- Nothing but digits. -/
def AllDigits (text : List Char) : Prop :=
  ∀ c ∈ text, c.isDigit = true

/-- The digits of a number in front of its point. None of them follows a zero at the start. -/
inductive IsWhole : List Char → Prop
  | zero : IsWhole ['0']
  | digits {c : Char} {digits : List Char} (hc : c.isDigit = true) (hzero : c ≠ '0')
      (hdigits : AllDigits digits) : IsWhole (c :: digits)

/-- The point of a number and the digits after it, of which there is at least one. -/
inductive IsFraction : List Char → Prop
  | none : IsFraction []
  | digits {c : Char} {digits : List Char} (hc : c.isDigit = true) (hdigits : AllDigits digits) :
      IsFraction ('.' :: c :: digits)

/-- The exponent of a number with its letter. -/
inductive IsExponent : List Char → Prop
  | none : IsExponent []
  | digits {letter c : Char} {sign digits : List Char} (hletter : letter = 'e' ∨ letter = 'E')
      (hsign : sign = [] ∨ sign = ['+'] ∨ sign = ['-']) (hc : c.isDigit = true)
      (hdigits : AllDigits digits) : IsExponent (letter :: (sign ++ c :: digits))

/-- A number, of any size. -/
inductive IsNumber : List Char → Prop
  | mk {sign whole fraction exponent : List Char} (hsign : sign = [] ∨ sign = ['-'])
      (hwhole : IsWhole whole) (hfraction : IsFraction fraction) (hexponent : IsExponent exponent) :
      IsNumber (sign ++ (whole ++ (fraction ++ exponent)))

/-! ### Strings -/

/-- A character as it is, an escape of one letter, or any code unit. -/
inductive IsStringPiece : List Char → Prop
  | plain {c : Char} (hcontrol : ¬ c < ' ') (hquote : c ≠ '"') (hbackslash : c ≠ '\\') :
      IsStringPiece [c]
  | letter {letter : Char} (h : (letterEscape? letter).isSome = true) :
      IsStringPiece ['\\', letter]
  | unit {digits : List Char} (h : (codeUnit? digits).isSome = true) :
      IsStringPiece ('\\' :: 'u' :: digits)

/-- What may stand between double quotes. -/
inductive IsStringBody : List Char → Prop
  | nil : IsStringBody []
  | cons {piece body : List Char} (hpiece : IsStringPiece piece) (hbody : IsStringBody body) :
      IsStringBody (piece ++ body)

/-- Something in double quotes, be it the spelling of a text or not. -/
inductive IsString : List Char → Prop
  | mk {body : List Char} (h : IsStringBody body) : IsString ('"' :: (body ++ ['"']))

lemma SpellsChar.isStringBody {c : Char} {piece body : List Char} (h : SpellsChar c piece)
    (hbody : IsStringBody body) : IsStringBody (piece ++ body) := by
  cases h with
  | plain hcontrol hquote hbackslash => exact .cons (.plain hcontrol hquote hbackslash) hbody
  | letter h => exact .cons (.letter (by simp [h])) hbody
  | unit h => exact .cons (.unit (by simp [h])) hbody
  | @pair digits digits' high low hdigits hdigits' hhigh hlow h =>
    have hsecond := IsStringBody.cons (.unit (by simp [hdigits'] : (codeUnit? digits').isSome)) hbody
    have hfirst := IsStringBody.cons (.unit (by simp [hdigits] : (codeUnit? digits).isSome)) hsecond
    simpa using hfirst

/-- The spellings of a text are strings. -/
lemma SpellsText.isString {text : String} {spelling : List Char} (h : SpellsText text spelling) :
    IsString spelling := by
  obtain ⟨pieces, hpieces, rfl⟩ := h
  refine .mk ?_
  generalize text.toList = chars at hpieces
  induction hpieces with
  | nil => exact .nil
  | cons hpiece _ ih => exact hpiece.isStringBody ih

/-! ### Values -/

/-- A string and another piece of text with a colon between them. -/
inductive IsMember : List Char × List Char → List Char → Prop
  | mk {label gap gap' piece : List Char} (hlabel : IsString label) (hgap : AllBlank gap)
      (hgap' : AllBlank gap') : IsMember (label, piece) (label ++ (gap ++ ':' :: (gap' ++ piece)))

/-- The words that are values. -/
def words : List (List Char) :=
  ["null".toList, "true".toList, "false".toList]

/-- The texts of the JSON values, from the first character to the last one. -/
inductive Valid : List Char → Prop
  | word {text : List Char} (h : text ∈ words) : Valid text
  | number {text : List Char} (h : IsNumber text) : Valid text
  | string {text : List Char} (h : IsString text) : Valid text
  | array {pieces : List (List Char)} {text : List Char} (h : Listed ']' (· = ·) pieces text)
      (hpieces : ∀ piece ∈ pieces, Valid piece) : Valid ('[' :: text)
  | object {members : List (List Char × List Char)} {text : List Char}
      (h : Listed '\x7d' IsMember members text) (hvalues : ∀ member ∈ members, Valid member.2) :
      Valid ('\x7b' :: text)

/-- A text is an array with the given pieces. -/
inductive IsArray (pieces : List (List Char)) : List Char → Prop
  | mk {text : List Char} (h : Listed ']' (· = ·) pieces text) : IsArray pieces ('[' :: text)

/-- A text is an object with the given names, each with the text of a value. -/
inductive IsObject (members : List (String × List Char)) : List Char → Prop
  | mk {text : List Char} (h : Listed '\x7d' (Member (· = ·)) members text) :
      IsObject members ('\x7b' :: text)

/-! ### First characters -/

lemma IsWhole.exists_cons {text : List Char} (h : IsWhole text) :
    ∃ c digits, text = c :: digits ∧ c.isDigit = true := by
  cases h with
  | zero => exact ⟨_, _, rfl, rfl⟩
  | digits hc => exact ⟨_, _, rfl, hc⟩

/-- A number starts with a digit or with a sign. -/
lemma IsNumber.exists_cons {text : List Char} (h : IsNumber text) :
    ∃ c chars, text = c :: chars ∧ (c.isDigit = true ∨ c = '-') := by
  obtain ⟨hsign, hwhole, -, -⟩ := h
  obtain ⟨c, digits, rfl, hc⟩ := hwhole.exists_cons
  rcases hsign with rfl | rfl
  · exact ⟨_, _, rfl, .inl hc⟩
  · exact ⟨_, _, rfl, .inr rfl⟩

/-- Neither brackets nor quotes start a number. -/
lemma IsNumber.ne_head {c : Char} {chars : List Char} (h : IsNumber (c :: chars)) {other : Char}
    (hdigit : other.isDigit = false) (hsign : other ≠ '-') : c ≠ other := by
  obtain ⟨c', chars', heq, hc⟩ := h.exists_cons
  obtain ⟨rfl, -⟩ := List.cons.inj heq
  rintro rfl
  rcases hc with hc | rfl
  · rw [hdigit] at hc
    cases hc
  · exact hsign rfl

namespace Valid

variable {chars : List Char}

lemma isString (h : Valid ('"' :: chars)) : IsString ('"' :: chars) := by
  cases h with
  | word h => simp [words] at h
  | number h => exact absurd rfl (h.ne_head (by decide) (by decide))
  | string h => exact h

lemma eq_of_n (h : Valid ('n' :: chars)) : chars = "ull".toList := by
  cases h with
  | word h => simpa [words] using h
  | number h => exact absurd rfl (h.ne_head (by decide) (by decide))
  | string h => cases h

lemma eq_of_t (h : Valid ('t' :: chars)) : chars = "rue".toList := by
  cases h with
  | word h => simpa [words] using h
  | number h => exact absurd rfl (h.ne_head (by decide) (by decide))
  | string h => cases h

lemma eq_of_f (h : Valid ('f' :: chars)) : chars = "alse".toList := by
  cases h with
  | word h => simpa [words] using h
  | number h => exact absurd rfl (h.ne_head (by decide) (by decide))
  | string h => cases h

lemma exists_pieces (h : Valid ('[' :: chars)) :
    ∃ pieces, Listed ']' (· = ·) pieces chars ∧ ∀ piece ∈ pieces, Valid piece := by
  cases h with
  | word h => simp [words] at h
  | number h => exact absurd rfl (h.ne_head (by decide) (by decide))
  | string h => cases h
  | array h hpieces => exact ⟨_, h, hpieces⟩

lemma exists_members (h : Valid ('\x7b' :: chars)) :
    ∃ members, Listed '\x7d' IsMember members chars ∧ ∀ member ∈ members, Valid member.2 := by
  cases h with
  | word h => simp [words] at h
  | number h => exact absurd rfl (h.ne_head (by decide) (by decide))
  | string h => cases h
  | object h hvalues => exact ⟨_, h, hvalues⟩

/-- No value starts with blank space or with a closing bracket. -/
lemma exists_cons {text : List Char} (h : Valid text) :
    ∃ c chars, text = c :: chars ∧ isBlank c = false ∧ c ≠ ']' := by
  cases h with
  | word h =>
    simp only [words, List.mem_cons, List.not_mem_nil, or_false] at h
    rcases h with rfl | rfl | rfl <;> exact ⟨_, _, rfl, by decide, by decide⟩
  | number h =>
    obtain ⟨c, chars, rfl, hc⟩ := h.exists_cons
    refine ⟨c, chars, rfl, ?_, h.ne_head (by decide) (by decide)⟩
    rcases hc with hdigit | rfl
    · exact isBlank_of_isDigit hdigit
    · decide
  | string h =>
    obtain ⟨h⟩ := h
    exact ⟨_, _, rfl, by decide, by decide⟩
  | array => exact ⟨_, _, rfl, by decide, by decide⟩
  | object => exact ⟨_, _, rfl, by decide, by decide⟩

end Valid

/-! ### Items in other terms -/

section

variable {α β : Type} {close : Char} {P : α → List Char → Prop} {Q : β → List Char → Prop}
  {R : α → β → Prop} {items : List α} {text : List Char}

/-- Items that are written like other items can be replaced by these. -/
lemma Continued.exists_items (h : Continued close P items text)
    (hitem : ∀ item piece, P item piece → ∃ other, R item other ∧ Q other piece) :
    ∃ others, List.Forall₂ R items others ∧ Continued close Q others text := by
  induction h with
  | nil hgap => exact ⟨[], .nil, .nil hgap⟩
  | cons hgap hgap' hpiece _ ih =>
    obtain ⟨other, hrel, hother⟩ := hitem _ _ hpiece
    obtain ⟨others, hrels, hothers⟩ := ih
    exact ⟨other :: others, .cons hrel hrels, .cons hgap hgap' hother hothers⟩

lemma Listed.exists_items (h : Listed close P items text)
    (hitem : ∀ item piece, P item piece → ∃ other, R item other ∧ Q other piece) :
    ∃ others, List.Forall₂ R items others ∧ Listed close Q others text := by
  cases h with
  | nil hgap => exact ⟨[], .nil, .nil hgap⟩
  | cons hgap hpiece hitems =>
    obtain ⟨other, hrel, hother⟩ := hitem _ _ hpiece
    obtain ⟨others, hrels, hothers⟩ := hitems.exists_items hitem
    exact ⟨other :: others, .cons hrel hrels, .cons hgap hother hothers⟩

end

lemma exists_of_forall₂ {α β : Type*} {R : α → β → Prop} {items : List α} {others : List β}
    (h : List.Forall₂ R items others) {other : β} (hmem : other ∈ others) :
    ∃ item ∈ items, R item other := by
  induction h with
  | nil => cases hmem
  | @cons item _ _ _ hrel _ ih =>
    rcases List.mem_cons.mp hmem with rfl | hmem
    · exact ⟨item, List.mem_cons_self, hrel⟩
    · obtain ⟨item, hitem, hrel⟩ := ih hmem
      exact ⟨item, List.mem_cons_of_mem _ hitem, hrel⟩

/-- A name is spelled by a label in front of the same piece. -/
def Labels (member : String × List Char) (labelled : List Char × List Char) : Prop :=
  SpellsText member.1 labelled.1 ∧ member.2 = labelled.2

lemma Member.exists_isMember {member : String × List Char} {text : List Char}
    (h : Member (· = ·) member text) : ∃ labelled, Labels member labelled ∧ IsMember labelled text := by
  cases h with
  | mk hname hgap hgap' hvalue =>
    subst hvalue
    exact ⟨(_, _), ⟨hname, rfl⟩, .mk hname.isString hgap hgap'⟩

lemma IsArray.valid {pieces : List (List Char)} {text : List Char} (h : IsArray pieces text)
    (hpieces : ∀ piece ∈ pieces, Valid piece) : Valid text := by
  obtain ⟨h⟩ := h
  exact .array h hpieces

lemma IsObject.valid {members : List (String × List Char)} {text : List Char}
    (h : IsObject members text) (hvalues : ∀ member ∈ members, Valid member.2) : Valid text := by
  obtain ⟨h⟩ := h
  obtain ⟨labelled, hlabels, h⟩ := h.exists_items fun _ _ => Member.exists_isMember
  refine .object h fun member hmember => ?_
  obtain ⟨named, hnamed, -, heq⟩ := exists_of_forall₂ hlabels hmember
  exact heq ▸ hvalues named hnamed

end PlanChart.Json
