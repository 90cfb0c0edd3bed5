import Mathlib.Data.List.Forall2
import Mathlib.Tactic.Common
import PlanChart.Json.Printer
import PlanChart.Json.Scanner

/-!
# Quoted texts are read back

A text stands in double quotes, and each of its characters can be spelled in several ways: as it is,
by an escape of one letter, or by one or two code units in hexadecimal digits. Scanning undoes this
character by character: a spelled character takes the scan from one place between characters to the
next one, with the character read. Printing chooses one of the spellings.
-/

namespace PlanChart

lemma Hex.value?_digit : ∀ value < 16, value? (digit value) = some value := by
  decide

namespace Json

/-- The value of four hexadecimal digits. -/
def codeUnit? (digits : List Char) : Option Nat :=
  match digits with
  | [a, b, c, d] => do
    return (((← Hex.value? a) * 16 + (← Hex.value? b)) * 16 + (← Hex.value? c)) * 16 +
      (← Hex.value? d)
  | _ => none

/-- The ways to write a character between double quotes. -/
inductive SpellsChar (c : Char) : List Char → Prop
  | plain (hcontrol : ¬ c < ' ') (hquote : c ≠ '"') (hbackslash : c ≠ '\\') : SpellsChar c [c]
  | letter {letter : Char} (h : letterEscape? letter = some c) : SpellsChar c ['\\', letter]
  | unit {digits : List Char} (h : codeUnit? digits = some c.toNat) :
      SpellsChar c ('\\' :: 'u' :: digits)
  /-- The two halves of a code point above `0xFFFF`. -/
  | pair {digits digits' : List Char} {high low : Nat} (hdigits : codeUnit? digits = some high)
      (hdigits' : codeUnit? digits' = some low) (hhigh : isHighSurrogate high = true)
      (hlow : isLowSurrogate low = true)
      (h : c.toNat = 0x10000 + (high - 0xD800) * 0x400 + (low - 0xDC00)) :
      SpellsChar c ('\\' :: 'u' :: (digits ++ '\\' :: 'u' :: digits'))

/-- A text in double quotes, each of its characters written in one of the ways. -/
def SpellsText (text : String) (spelling : List Char) : Prop :=
  ∃ pieces, List.Forall₂ SpellsChar text.toList pieces ∧ spelling = '"' :: (pieces.flatten ++ ['"'])

/-! ### Scanning what is spelled -/

/-- After its four digits, a code unit goes on as its value says. -/
lemma scanString_unit {digits : List Char} {value : Nat} (h : codeUnit? digits = some value)
    (high : Option Nat) (read rest : List Char) :
    scanString (.unit high 0 0) read (digits ++ rest) =
      match high with
      | some high =>
        if isLowSurrogate value then scanString .plain (surrogatePair high value :: read) rest
        else .error (.before .loneSurrogate rest)
      | none =>
        if isLowSurrogate value then .error (.before .loneSurrogate rest)
        else if isHighSurrogate value then scanString (.pairBackslash value) read rest
        else scanString .plain (Char.ofNat value :: read) rest := by
  unfold codeUnit? at h
  split at h
  · simp only [Option.bind_eq_bind, Option.bind_eq_some_iff, Option.pure_def, Option.some.injEq] at h
    obtain ⟨a, ha, b, hb, c, hc, d, hd, rfl⟩ := h
    cases high <;> simp [scanString, ha, hb, hc, hd]
  · cases h

/-- No character is a surrogate. -/
lemma isSurrogate_toNat (c : Char) :
    isHighSurrogate c.toNat = false ∧ isLowSurrogate c.toNat = false := by
  have hvalid : c.toNat < 0xD800 ∨ 0xDFFF < c.toNat ∧ c.toNat < 0x110000 := c.valid
  constructor
  · simp only [isHighSurrogate, Bool.and_eq_false_iff, decide_eq_false_iff_not]
    omega
  · simp only [isLowSurrogate, Bool.and_eq_false_iff, decide_eq_false_iff_not]
    omega

/-- The halves of a pair are kept apart by their ranges. -/
lemma isLowSurrogate_of_isHighSurrogate {n : Nat} (h : isHighSurrogate n = true) :
    isLowSurrogate n = false := by
  simp only [isHighSurrogate, Bool.and_eq_true, decide_eq_true_eq] at h
  simp only [isLowSurrogate, Bool.and_eq_false_iff, decide_eq_false_iff_not]
  omega

/-- A spelled character is scanned as the character. -/
lemma SpellsChar.scanString {c : Char} {spelling : List Char} (h : SpellsChar c spelling)
    (read rest : List Char) :
    scanString .plain read (spelling ++ rest) = scanString .plain (c :: read) rest := by
  cases h with
  | plain hcontrol hquote hbackslash => simp [Json.scanString, hquote, hbackslash, hcontrol]
  | @letter letter h =>
    have hunit : letter ≠ 'u' := by
      rintro rfl
      cases h
    simp [Json.scanString, h, hunit]
  | unit h =>
    have hunit := scanString_unit h none read rest
    obtain ⟨hhigh, hlow⟩ := isSurrogate_toNat c
    simpa [hhigh, hlow, Json.scanString] using hunit
  | @pair digits digits' high low hdigits hdigits' hhigh hlow h =>
    have hfirst := scanString_unit hdigits none read ('\\' :: 'u' :: (digits' ++ rest))
    have hsecond := scanString_unit hdigits' (some high) read rest
    have hpair : surrogatePair high low = c := by rw [surrogatePair, ← h, Char.ofNat_toNat]
    simp only [isLowSurrogate_of_isHighSurrogate hhigh, hhigh, if_pos] at hfirst
    simp only [hlow, if_pos, hpair] at hsecond
    simpa [Json.scanString, hsecond] using hfirst

lemma scanString_flatten {text : List Char} {pieces : List (List Char)}
    (h : List.Forall₂ SpellsChar text pieces) (read rest : List Char) :
    scanString .plain read (pieces.flatten ++ '"' :: rest) =
      .ok (String.ofList (read.reverse ++ text), rest) := by
  induction h generalizing read with
  | nil =>
    rw [List.append_nil]
    rfl
  | cons hpiece _ ih =>
    rw [List.flatten_cons, List.append_assoc, hpiece.scanString, ih, List.reverse_cons,
      List.append_assoc]
    rfl

/-- A spelled text is scanned as the text. It starts with a double quote. -/
lemma SpellsText.exists_scanString {text : String} {spelling : List Char}
    (h : SpellsText text spelling) :
    ∃ chars, spelling = '"' :: chars ∧
      ∀ rest, scanString .plain [] (chars ++ rest) = .ok (text, rest) := by
  obtain ⟨pieces, hpieces, rfl⟩ := h
  refine ⟨_, rfl, fun rest => ?_⟩
  rw [List.append_assoc]
  exact (scanString_flatten hpieces [] rest).trans (by simp)

/-! ### Printed texts -/

/-- What a character is printed as is one of its spellings. -/
lemma spellsChar_escapeChar (c : Char) : SpellsChar c (escapeChar c) := by
  unfold escapeChar
  split_ifs with hquote hbackslash hb ht hn hf hr hcontrol
  any_goals
    subst c
    exact .letter rfl
  · have hlt : c.toNat < 32 := hcontrol
    have hzero : Hex.value? '0' = some 0 := rfl
    have hhigh := Hex.value?_digit (c.toNat / 16) (by omega)
    have hlow := Hex.value?_digit (c.toNat % 16) (by omega)
    refine .unit ?_
    simp [codeUnit?, hzero, hhigh, hlow]
    omega
  · exact .plain hcontrol hquote hbackslash

lemma spellsText_quote (text : String) : SpellsText text (quote text).toList := by
  refine ⟨text.toList.map escapeChar, ?_, ?_⟩
  · rw [List.forall₂_map_right_iff, List.forall₂_same]
    exact fun c _ => spellsChar_escapeChar c
  · rw [quote, String.toList_ofList, List.flatMap_def, List.cons_append]

/-- A printed text starts with a double quote, and the scan of what follows gives the text back. -/
lemma exists_toList_quote (text : String) :
    ∃ chars, (quote text).toList = '"' :: chars ∧
      ∀ rest, scanString .plain [] (chars ++ rest) = .ok (text, rest) :=
  (spellsText_quote text).exists_scanString

end Json

end PlanChart
