import PlanChart.Json.Skip
import PlanChart.Proofs.Json.Grammar

/-!
# Valid texts are passed over

What passes over a value stops exactly behind it, however deep it is and whatever brackets are open
around it. It keeps a stack of brackets; between two items of one bracket this stack is the same.
-/

namespace PlanChart.Json

/-- No number goes on with this. -/
def Ends (rest : List Char) : Prop :=
  ∀ c ∈ rest.head?, c.isDigit = false ∧ c ≠ '.' ∧ c ≠ 'e' ∧ c ≠ 'E'

lemma ends_append_cons {gap : List Char} (hgap : AllBlank gap) {c : Char}
    (hc : c ∈ [',', ']', '\x7d']) (rest : List Char) : Ends (gap ++ c :: rest) := by
  have hends : ∀ c, isBlank c = true ∨ c ∈ [',', ']', '\x7d'] →
      c.isDigit = false ∧ c ≠ '.' ∧ c ≠ 'e' ∧ c ≠ 'E' := by
    intro c hc
    simp only [isBlank, Bool.or_eq_true, decide_eq_true_eq, List.mem_cons, List.not_mem_nil,
      or_false] at hc
    rcases hc with (((rfl | rfl) | rfl) | rfl) | rfl | rfl | rfl <;> decide
  cases gap with
  | nil => simpa [Ends] using hends c (.inr hc)
  | cons blank gap => simpa [Ends] using hends blank (.inl (hgap blank List.mem_cons_self))

/-- A number ends before the comma or the bracket behind it. -/
lemma Continued.ends {α : Type} {close : Char} {P : α → List Char → Prop} {items : List α}
    {text : List Char} (h : Continued close P items text) (hclose : close ∈ [']', '\x7d'])
    (rest : List Char) : Ends (text ++ rest) := by
  cases h with
  | nil hgap =>
    rw [List.append_assoc, List.singleton_append]
    exact ends_append_cons hgap (List.mem_cons_of_mem _ hclose) rest
  | cons hgap =>
    rw [List.append_assoc, List.cons_append]
    exact ends_append_cons hgap List.mem_cons_self _

/-! ### Numbers -/

section

variable {text rest : List Char}

lemma dropDigits_append (h : AllDigits text) (hrest : startsWithDigit rest = false) :
    dropDigits (text ++ rest) = rest := by
  rw [dropDigits, List.dropWhile_append_of_pos h]
  cases rest with
  | nil => rfl
  | cons c rest => exact List.dropWhile_cons_of_neg (by simpa [startsWithDigit] using hrest)

lemma Ends.startsWithDigit_eq (h : Ends rest) : startsWithDigit rest = false := by
  cases rest with
  | nil => rfl
  | cons c rest => exact (h c rfl).1

lemma IsExponent.startsWithDigit_eq (h : IsExponent text) (hrest : Ends rest) :
    startsWithDigit (text ++ rest) = false := by
  cases h with
  | none => exact hrest.startsWithDigit_eq
  | digits hletter => rcases hletter with rfl | rfl <;> rfl

lemma IsFraction.startsWithDigit_eq (h : IsFraction text) (hrest : startsWithDigit rest = false) :
    startsWithDigit (text ++ rest) = false := by
  cases h with
  | none => exact hrest
  | digits => rfl

lemma skipExponent_append {sign digits : List Char} {c : Char}
    (hsign : sign = [] ∨ sign = ['+'] ∨ sign = ['-']) (hc : c.isDigit = true)
    (hdigits : AllDigits digits) (hrest : Ends rest) :
    skipExponent (sign ++ c :: (digits ++ rest)) = .ok rest := by
  have hdrop : dropDigits (c :: (digits ++ rest)) = rest :=
    dropDigits_append (List.forall_mem_cons.mpr ⟨hc, hdigits⟩) hrest.startsWithDigit_eq
  have hplus : c ≠ '+' := by
    rintro rfl
    cases hc
  have hminus : c ≠ '-' := by
    rintro rfl
    cases hc
  rcases hsign with rfl | rfl | rfl <;> simp [skipExponent, startsWithDigit, hc, hdrop, hplus, hminus]

lemma skipAfterFraction_append (h : IsExponent text) (hrest : Ends rest) :
    skipAfterFraction (text ++ rest) = .ok rest := by
  cases h with
  | none =>
    cases rest with
    | nil => rfl
    | cons c rest => simp [skipAfterFraction, hrest c rfl]
  | digits hletter hsign hc hdigits =>
    have hskip := skipExponent_append hsign hc hdigits hrest
    rcases hletter with rfl | rfl <;> simpa [skipAfterFraction] using hskip

lemma skipAfterInteger_append {fraction exponent : List Char} (hfraction : IsFraction fraction)
    (hexponent : IsExponent exponent) (hrest : Ends rest) :
    skipAfterInteger (fraction ++ (exponent ++ rest)) = .ok rest := by
  have hskip := skipAfterFraction_append hexponent hrest
  cases hfraction with
  | none =>
    have hpoint : ∀ chars, exponent ++ rest ≠ '.' :: chars := by
      intro chars heq
      cases hexponent with
      | none =>
        rw [List.nil_append] at heq
        exact (hrest '.' (by simp [heq])).2.1 rfl
      | digits hletter => rcases hletter with rfl | rfl <;> simp at heq
    rw [List.nil_append, skipAfterInteger]
    · exact hskip
    · exact hpoint
  | digits hc hdigits =>
    have hdrop := dropDigits_append (List.forall_mem_cons.mpr ⟨hc, hdigits⟩)
      (hexponent.startsWithDigit_eq hrest)
    simp only [List.cons_append] at hdrop ⊢
    simp [skipAfterInteger, startsWithDigit, hc, hdrop, hskip]

lemma skipNumber_append {whole fraction exponent : List Char} (hwhole : IsWhole whole)
    (hfraction : IsFraction fraction) (hexponent : IsExponent exponent) (hrest : Ends rest) :
    skipNumber (whole ++ (fraction ++ (exponent ++ rest))) = .ok rest := by
  have hskip := skipAfterInteger_append hfraction hexponent hrest
  have hdigit := hfraction.startsWithDigit_eq (hexponent.startsWithDigit_eq hrest)
  cases hwhole with
  | zero => simp [skipNumber, hdigit, hskip]
  | digits hc hzero hdigits =>
    have hdrop := dropDigits_append hdigits hdigit
    simp [skipNumber, hc, hzero, hdrop, hskip]

end

/-! ### Strings -/

lemma skipString_unit {digits : List Char} (h : (codeUnit? digits).isSome = true)
    (rest : List Char) : skipString (.unit 0) (digits ++ rest) = skipString .plain rest := by
  unfold codeUnit? at h
  split at h
  · simp only [Option.bind_eq_bind, Option.pure_def, Option.isSome_iff_exists,
      Option.bind_eq_some_iff] at h
    obtain ⟨-, a, ha, b, hb, c, hc, d, hd, -⟩ := h
    simp [skipString, ha, hb, hc, hd]
  · cases h

lemma IsStringPiece.skipString {piece : List Char} (h : IsStringPiece piece) (rest : List Char) :
    skipString .plain (piece ++ rest) = skipString .plain rest := by
  cases h with
  | plain hcontrol hquote hbackslash => simp [Json.skipString, hquote, hbackslash, hcontrol]
  | @letter letter h =>
    have hunit : letter ≠ 'u' := by
      rintro rfl
      cases h
    simp [Json.skipString, h, hunit]
  | unit h => simpa [Json.skipString] using skipString_unit h rest

lemma IsStringBody.skipString {body : List Char} (h : IsStringBody body) (rest : List Char) :
    skipString .plain (body ++ '"' :: rest) = .ok rest := by
  induction h with
  | nil => simp [Json.skipString]
  | cons hpiece _ ih => rw [List.append_assoc, hpiece.skipString, ih]

/-! ### Values -/

/-- What is passed over between two commas inside a bracket. -/
def Bracket.itemStep (bracket : Bracket) : SkipStep :=
  if bracket = .array then .value else .member

/-- A text is passed over in few steps, which leave the open brackets as they are. -/
def Skips (step : SkipStep) (text : List Char) : Prop :=
  ∃ steps ≤ 2 * text.length, ∀ limit brackets gap rest, AllBlank gap → Ends rest →
    skipSteps (limit + steps) step brackets (gap ++ (text ++ rest)) =
      skipSteps limit .separator brackets rest

/-- A value between no brackets is passed over in one step. -/
lemma skips_scalar {c : Char} {chars : List Char} (hblank : isBlank c = false)
    (harray : c ≠ '[') (hobject : c ≠ '\x7b')
    (h : ∀ rest, Ends rest → skipScalar c (chars ++ rest) = .ok rest) :
    Skips .value (c :: chars) := by
  refine ⟨1, by simp only [List.length_cons]; omega, fun limit brackets gap rest hgap hrest => ?_⟩
  rw [skipSteps, skipBlank_append hgap, List.cons_append, skipBlank_cons hblank]
  simp [h rest hrest]

lemma IsNumber.skips {text : List Char} (h : IsNumber text) : Skips .value text := by
  obtain ⟨hsign, hwhole, hfraction, hexponent⟩ := h
  have hskip (rest : List Char) (hrest : Ends rest) :=
    skipNumber_append hwhole hfraction hexponent hrest
  obtain ⟨c, digits, rfl, hc⟩ := hwhole.exists_cons
  rcases hsign with rfl | rfl
  · have hne (other : Char) (hother : other.isDigit = false) : c ≠ other := by
      rintro rfl
      rw [hother] at hc
      cases hc
    refine skips_scalar (isBlank_of_isDigit hc) (hne _ rfl) (hne _ rfl) fun rest hrest => ?_
    simpa [skipScalar, hc, hne] using hskip rest hrest
  · refine skips_scalar (by decide) (by decide) (by decide) fun rest hrest => ?_
    simpa [skipScalar] using hskip rest hrest

section

variable {α : Type} {bracket : Bracket} {P : α → List Char → Prop} {items : List α}
  {text : List Char}

/-- The items behind the first are passed over one after another, and then the closing bracket. -/
lemma Continued.skips (h : Continued bracket.close P items text)
    (hitems : ∀ item ∈ items, ∀ piece, P item piece → Skips bracket.itemStep piece) :
    ∃ steps ≤ 2 * text.length, ∀ limit brackets rest,
      skipSteps (limit + steps) .separator (bracket :: brackets) (text ++ rest) =
        skipSteps limit .separator brackets rest := by
  have hclose : bracket.close ∈ [']', '\x7d'] ∧ isBlank bracket.close = false ∧
      bracket.close ≠ ',' := by
    cases bracket <;> decide
  induction h with
  | @nil gap hgap =>
    refine ⟨1, by simp only [List.length_append, List.length_singleton]; omega,
      fun limit brackets rest => ?_⟩
    rw [skipSteps, List.append_assoc, skipBlank_append hgap, List.singleton_append,
      skipBlank_cons hclose.2.1]
    simp [hclose.2.2]
  | @cons item items gap gap' piece text hgap hgap' hpiece htext ih =>
    obtain ⟨hitem, hitems⟩ := List.forall_mem_cons.mp hitems
    obtain ⟨steps, hsteps, hskip⟩ := hitem piece hpiece
    obtain ⟨others, hothers, hcontinue⟩ := ih hitems
    -- One step is for the comma.
    refine ⟨others + steps + 1, ?_, fun limit brackets rest => ?_⟩
    · simp only [List.length_append, List.length_cons]
      omega
    · have hnext := hskip (limit + others) (bracket :: brackets) gap' (text ++ rest) hgap'
        (htext.ends hclose.1 rest)
      rw [hcontinue] at hnext
      rw [← Nat.add_assoc, ← Nat.add_assoc, skipSteps, List.append_assoc, skipBlank_append hgap,
        List.cons_append, skipBlank_cons (by decide)]
      simpa [Bracket.itemStep] using hnext

/-- What an item starts with does not close the bracket around it. -/
def StartsItem (bracket : Bracket) (piece : List Char) : Prop :=
  ∃ c chars, piece = c :: chars ∧ isBlank c = false ∧ c ≠ bracket.close

lemma Listed.skips (h : Listed bracket.close P items text)
    (hitems : ∀ item ∈ items, ∀ piece, P item piece →
      Skips bracket.itemStep piece ∧ StartsItem bracket piece) :
    ∃ steps ≤ 2 * text.length + 1, ∀ limit brackets rest,
      skipSteps (limit + steps) .content (bracket :: brackets) (text ++ rest) =
        skipSteps limit .separator brackets rest := by
  have hclose : bracket.close ∈ [']', '\x7d'] ∧ isBlank bracket.close = false := by
    cases bracket <;> decide
  cases h with
  | @nil gap hgap =>
    refine ⟨1, by simp, fun limit brackets rest => ?_⟩
    rw [skipSteps, List.append_assoc, skipBlank_append hgap, List.singleton_append,
      skipBlank_cons hclose.2]
    simp
  | @cons item items gap piece text hgap hpiece htext =>
    obtain ⟨hitem, hitems⟩ := List.forall_mem_cons.mp hitems
    obtain ⟨⟨steps, hsteps, hskip⟩, c, chars, rfl, hblank, hne⟩ := hitem piece hpiece
    obtain ⟨others, hothers, hcontinue⟩ :=
      htext.skips fun item hmem piece hpiece => (hitems item hmem piece hpiece).1
    -- One step enters at the first item; the steps of the item and of the others follow.
    refine ⟨others + steps + 1, ?_, fun limit brackets rest => ?_⟩
    · simp only [List.length_append, List.length_cons] at hsteps ⊢
      omega
    · have hnext := hskip (limit + others) (bracket :: brackets) [] (text ++ rest) allBlank_nil
        (htext.ends hclose.1 rest)
      rw [hcontinue] at hnext
      rw [← Nat.add_assoc, ← Nat.add_assoc, skipSteps, List.append_assoc, skipBlank_append hgap,
        List.append_assoc, List.cons_append, skipBlank_cons hblank]
      simpa [hne, Bracket.itemStep] using hnext

end

lemma skips_array {pieces : List (List Char)} {text : List Char}
    (h : Listed ']' (· = ·) pieces text) (hpieces : ∀ piece ∈ pieces, Valid piece)
    (hskips : ∀ piece ∈ pieces, Skips .value piece) : Skips .value ('[' :: text) := by
  have hitems : ∀ item ∈ pieces, ∀ piece, item = piece →
      Skips Bracket.array.itemStep piece ∧ StartsItem .array piece := by
    rintro item hitem _ rfl
    exact ⟨hskips item hitem, (hpieces item hitem).exists_cons⟩
  have htext : Listed Bracket.array.close (· = ·) pieces text := h
  obtain ⟨steps, hsteps, hskip⟩ := htext.skips hitems
  refine ⟨steps + 1, ?_, fun limit brackets gap rest hgap _ => ?_⟩
  · simp only [List.length_cons]
    omega
  · rw [← Nat.add_assoc, skipSteps, skipBlank_append hgap, List.cons_append,
      skipBlank_cons (by decide)]
    exact hskip limit brackets rest

lemma IsMember.skips {labelled : List Char × List Char} {piece : List Char}
    (h : IsMember labelled piece) (hvalue : Skips .value labelled.2) :
    Skips .member piece ∧ StartsItem .object piece := by
  obtain ⟨⟨hbody⟩, hbefore, hbehind⟩ := h
  obtain ⟨steps, hsteps, hskip⟩ := hvalue
  dsimp only at hsteps hskip
  refine ⟨⟨steps + 1, ?_, fun limit brackets gap rest hgap hrest => ?_⟩, _, _, rfl, by decide,
    by decide⟩
  · simp only [List.length_append, List.length_cons]
    omega
  · have hnext := hskip limit brackets _ rest hbehind hrest
    have hcolon (text : List Char) : skipBlank (_ ++ ':' :: text) = ':' :: text :=
      (skipBlank_append hbefore _).trans (skipBlank_cons (by decide) text)
    have hlabel (text : List Char) := hbody.skipString text
    rw [← Nat.add_assoc, skipSteps, skipName, skipBlank_append hgap]
    simp [skipBlank_cons (by decide : isBlank '"' = false), hlabel, hcolon, hnext]

lemma skips_object {members : List (List Char × List Char)} {text : List Char}
    (h : Listed '\x7d' IsMember members text) (hskips : ∀ member ∈ members, Skips .value member.2) :
    Skips .value ('\x7b' :: text) := by
  have htext : Listed Bracket.object.close IsMember members text := h
  obtain ⟨steps, hsteps, hskip⟩ :=
    htext.skips fun member hmember piece hpiece => hpiece.skips (hskips member hmember)
  refine ⟨steps + 1, ?_, fun limit brackets gap rest hgap _ => ?_⟩
  · simp only [List.length_cons]
    omega
  · rw [← Nat.add_assoc, skipSteps, skipBlank_append hgap, List.cons_append,
      skipBlank_cons (by decide)]
    exact hskip limit brackets rest

lemma Valid.skips {text : List Char} (h : Valid text) : Skips .value text := by
  induction h with
  | word h =>
    simp only [words, List.mem_cons, List.not_mem_nil, or_false] at h
    rcases h with rfl | rfl | rfl <;>
      exact skips_scalar (by decide) (by decide) (by decide) fun _ _ => rfl
  | number h => exact h.skips
  | string h =>
    obtain ⟨hbody⟩ := h
    refine skips_scalar (by decide) (by decide) (by decide) fun rest _ => ?_
    simpa [skipScalar] using hbody.skipString rest
  | array h hpieces ih => exact skips_array h hpieces ih
  | object h _ ih => exact skips_object h ih

/-- The text of a value is passed over, whatever stands around it. -/
theorem Valid.skipValue {text : List Char} (h : Valid text) {gap rest : List Char}
    (hgap : AllBlank gap) (hrest : Ends rest) {bound : Nat} (hbound : text.length ≤ bound) :
    skipValue bound (gap ++ (text ++ rest)) = .ok rest := by
  obtain ⟨steps, hsteps, hskip⟩ := h.skips
  obtain ⟨limit, hlimit⟩ : ∃ n, 2 * bound + 2 = (n + 1) + steps := ⟨2 * bound + 1 - steps, by omega⟩
  rw [Json.skipValue, hlimit, hskip _ _ gap rest hgap hrest]
  rfl

end PlanChart.Json
