import Mathlib
import PlanChart.Color

/-!
# Colour literals

A literal is a `#` with three or six hexadecimal digits behind it, and nothing else has a long form.
The long form of a literal with six digits is the literal itself, and in that of a literal with
three digits each of them stands twice.
-/

namespace PlanChart

namespace Hex

/-- The hexadecimal digits, the letters in either case. -/
def digits : List Char :=
  "0123456789abcdefABCDEF".toList

lemma isDigit_iff {c : Char} : isDigit c = true ↔ c ∈ digits := by
  constructor
  · intro h
    have hall : digits =
        (List.range' 48 10 ++ List.range' 97 6 ++ List.range' 65 6).map Char.ofNat := by
      decide
    have hrange : 48 ≤ c.toNat ∧ c.toNat ≤ 57 ∨ 97 ≤ c.toNat ∧ c.toNat ≤ 102 ∨
        65 ≤ c.toNat ∧ c.toNat ≤ 70 := by
      simpa [isDigit, Char.isDigit, Char.le_def, UInt32.le_iff_toNat_le, or_assoc] using h
    rw [hall, List.mem_map]
    refine ⟨c.toNat, ?_, Char.ofNat_toNat c⟩
    simp only [List.mem_append, List.mem_range'_1]
    omega
  · have hall : digits.all isDigit = true := by decide +kernel
    exact List.all_eq_true.mp hall c

end Hex

namespace Color

/-- What a colour may be given by. -/
def IsLiteral (literal : String) : Prop :=
  ∃ digits : List Char, (∀ c ∈ digits, c ∈ Hex.digits) ∧
    literal = String.ofList ('#' :: digits) ∧ (digits.length = 3 ∨ digits.length = 6)

/-- The long form of a literal, which has six digits. -/
def IsLongForm (literal color : String) : Prop :=
  ∃ digits : List Char, (∀ c ∈ digits, c ∈ Hex.digits) ∧
    literal = String.ofList ('#' :: digits) ∧
    (digits.length = 3 ∧ color = String.ofList ('#' :: digits.flatMap fun c => [c, c]) ∨
      digits.length = 6 ∧ color = literal)

lemma longDigits?_eq_some_iff {digits long : List Char} :
    longDigits? digits = some long ↔ (∀ c ∈ digits, c ∈ Hex.digits) ∧
      (digits.length = 3 ∧ long = (digits.flatMap fun c => [c, c]) ∨
        digits.length = 6 ∧ long = digits) := by
  have hall : digits.all Hex.isDigit = true ↔ ∀ c ∈ digits, c ∈ Hex.digits := by
    simp [Hex.isDigit_iff]
  rw [← hall, longDigits?]
  cases digits.all Hex.isDigit with
  | false => simp
  | true =>
    by_cases hshort : digits.length = 3
    · simp [hshort, eq_comm]
    · by_cases hlong : digits.length = 6
      · simp [hlong, eq_comm]
      · simp [hshort, hlong]

/-- Literals are brought into their long form, and nothing else has one. -/
lemma normalize_eq_ok_iff {literal color : String} :
    normalize literal = .ok color ↔ IsLongForm literal color := by
  constructor
  · intro h
    rw [normalize] at h
    split at h
    · rename_i digits hliteral
      split at h
      · rename_i long hlong
        cases h
        obtain ⟨hdigits, hlong⟩ := longDigits?_eq_some_iff.mp hlong
        have hliteral : literal = String.ofList ('#' :: digits) := by
          rw [← hliteral, String.ofList_toList]
        refine ⟨digits, hdigits, hliteral, ?_⟩
        -- A literal in short form is lengthened, one in long form is left as it is.
        rcases hlong with ⟨hlength, rfl⟩ | ⟨hlength, rfl⟩
        · exact Or.inl ⟨hlength, rfl⟩
        · exact Or.inr ⟨hlength, hliteral.symm⟩
      · cases h
    · cases h
  · rintro ⟨digits, hdigits, rfl, ⟨hlength, rfl⟩ | ⟨hlength, rfl⟩⟩
    · have hlong := longDigits?_eq_some_iff.mpr ⟨hdigits, Or.inl ⟨hlength, rfl⟩⟩
      simp [normalize, hlong]
    · have hlong := longDigits?_eq_some_iff.mpr ⟨hdigits, Or.inr ⟨hlength, rfl⟩⟩
      simp [normalize, hlong]

/-- A long form has six digits. -/
lemma IsLongForm.exists_digits {literal color : String} (h : IsLongForm literal color) :
    ∃ long : List Char, (∀ c ∈ long, c ∈ Hex.digits) ∧ color = String.ofList ('#' :: long) ∧
      long.length = 6 := by
  obtain ⟨digits, hdigits, rfl, ⟨hlength, rfl⟩ | ⟨hlength, rfl⟩⟩ := h
  · refine ⟨digits.flatMap fun c => [c, c], ?_, rfl, ?_⟩
    · intro c hc
      obtain ⟨d, hd, hc⟩ := List.mem_flatMap.mp hc
      obtain rfl : c = d := by simpa using hc
      exact hdigits c hd
    · simp [hlength]
  · exact ⟨digits, hdigits, rfl, hlength⟩

lemma IsLongForm.isLiteral {literal color : String} (h : IsLongForm literal color) :
    IsLiteral literal := by
  obtain ⟨digits, hdigits, hliteral, hlong⟩ := h
  exact ⟨digits, hdigits, hliteral, hlong.imp And.left And.left⟩

lemma exists_normalize_iff {literal : String} :
    (∃ color, normalize literal = .ok color) ↔ IsLiteral literal := by
  simp only [normalize_eq_ok_iff]
  constructor
  · rintro ⟨color, h⟩
    exact h.isLiteral
  · rintro ⟨digits, hdigits, hliteral, hshort | hlong⟩
    · exact ⟨_, digits, hdigits, hliteral, Or.inl ⟨hshort, rfl⟩⟩
    · exact ⟨_, digits, hdigits, hliteral, Or.inr ⟨hlong, rfl⟩⟩

/-- What is no literal is refused as it stands. -/
lemma normalize_of_not_isLiteral {literal : String} (h : ¬ IsLiteral literal) :
    normalize literal = .error ⟨literal⟩ := by
  cases hnormal : normalize literal with
  | ok color => exact absurd (exists_normalize_iff.mp ⟨color, hnormal⟩) h
  | error malformed =>
    rw [normalize] at hnormal
    split at hnormal
    · split at hnormal <;> cases hnormal
      rfl
    · cases hnormal
      rfl

instance : DecidablePred IsLiteral := fun literal =>
  decidable_of_iff ((normalize literal).isOk = true) <| by
    rw [← exists_normalize_iff]
    cases normalize literal <;> simp [Except.isOk, Except.toBool]

/-- A long form is a literal with six digits, and is its own long form. -/
lemma IsLongForm.isLongForm_self {literal color : String} (h : IsLongForm literal color) :
    IsLongForm color color := by
  obtain ⟨long, hdigits, hcolor, hlength⟩ := h.exists_digits
  exact ⟨long, hdigits, hcolor, Or.inr ⟨hlength, rfl⟩⟩

lemma IsLongForm.length_eq {literal color : String} (h : IsLongForm literal color) :
    color.length = 7 := by
  obtain ⟨long, -, rfl, hlength⟩ := h.exists_digits
  rw [String.length_ofList, List.length_cons, hlength]

/-- Just the literals have a long form: a `#` with each of three digits twice behind it, or the
literal itself if it has six digits. Bringing a long form into its long form changes nothing. Any
other text is refused as it stands. -/
theorem normalize_canonical (literal : String) :
    ((∃ color, normalize literal = .ok color) ↔ IsLiteral literal) ∧
      (∀ color, normalize literal = .ok color →
        IsLongForm literal color ∧ IsLiteral color ∧ color.length = 7 ∧
          normalize color = .ok color) ∧
      (¬ IsLiteral literal → normalize literal = .error ⟨literal⟩) := by
  refine ⟨exists_normalize_iff, fun color hcolor => ?_, normalize_of_not_isLiteral⟩
  have hlong : IsLongForm literal color := normalize_eq_ok_iff.mp hcolor
  have hself : IsLongForm color color := hlong.isLongForm_self
  exact ⟨hlong, hself.isLiteral, hlong.length_eq, normalize_eq_ok_iff.mpr hself⟩

/-- A short literal in mixed case gets a long form that is kept from then on. With a line break
behind it it is no literal. -/
theorem normalize_mixedCase :
    normalize "#aB0" = .ok "#aaBB00" ∧ normalize "#aaBB00" = .ok "#aaBB00" ∧
      normalize "#aB0\n" = .error ⟨"#aB0\n"⟩ := by
  obtain ⟨-, haccepted, -⟩ := normalize_canonical "#aB0"
  obtain ⟨-, -, hrefused⟩ := normalize_canonical "#aB0\n"
  have hshort : normalize "#aB0" = .ok "#aaBB00" := by decide
  obtain ⟨-, -, -, hlong⟩ := haccepted "#aaBB00" hshort
  exact ⟨hshort, hlong, hrefused (by decide)⟩

end Color

end PlanChart
