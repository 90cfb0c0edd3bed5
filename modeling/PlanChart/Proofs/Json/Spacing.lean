import PlanChart.Json.Reader
import PlanChart.Proofs.Json.Text

/-!
# Blank space between the parts of a text

Between the parts of a JSON text there may be any blank space. What tells the readers whether
another element or member follows finds the same behind all of it.
-/

namespace PlanChart.Json

/-- Nothing but blank space. -/
def AllBlank (gap : List Char) : Prop :=
  ∀ c ∈ gap, isBlank c = true

lemma allBlank_nil : AllBlank [] :=
  List.forall_mem_nil _

lemma allBlank_newline (depth : Nat) : AllBlank (newline depth).toList := by
  intro c hc
  rw [newline, String.toList_ofList] at hc
  rcases List.mem_cons.mp hc with rfl | hc
  · rfl
  · rw [List.eq_of_mem_replicate hc]
    rfl

variable {gap gap' : List Char} {c : Char}

lemma skipBlank_cons (h : isBlank c = false) (rest : List Char) :
    skipBlank (c :: rest) = c :: rest := by
  simp [skipBlank, h]

lemma skipBlank_append (hgap : AllBlank gap) (text : List Char) :
    skipBlank (gap ++ text) = skipBlank text :=
  List.dropWhile_append_of_pos hgap

lemma skipBlank_of_allBlank (hgap : AllBlank gap) : skipBlank gap = [] := by
  simpa [skipBlank] using skipBlank_append hgap []

/-! ### Elements -/

lemma nextElement_first (hgap : AllBlank gap) (hblank : isBlank c = false) (hclose : c ≠ ']')
    (rest : List Char) : nextElement true (gap ++ c :: rest) = .ok (true, c :: rest) := by
  simp [nextElement, skipBlank_append hgap, skipBlank_cons hblank]

lemma nextElement_comma (hgap : AllBlank gap) (hgap' : AllBlank gap') (hblank : isBlank c = false)
    (hclose : c ≠ ']') (rest : List Char) :
    nextElement false (gap ++ ',' :: (gap' ++ c :: rest)) = .ok (true, c :: rest) := by
  rw [nextElement, skipBlank_append hgap, skipBlank_cons (by decide)]
  simp [skipBlank_append hgap', skipBlank_cons hblank, hclose]

lemma nextElement_close (isFirst : Bool) (hgap : AllBlank gap) (rest : List Char) :
    nextElement isFirst (gap ++ ']' :: rest) = .ok (false, rest) := by
  rw [nextElement, skipBlank_append hgap, skipBlank_cons (by decide)]
  rfl

/-! ### Members -/

section

variable {name : String} {label : List Char}

lemma nextName_quote_first (hgap : AllBlank gap) (chars : List Char) :
    nextName true (gap ++ '"' :: chars) =
      (scanString .plain [] chars).map fun (name, rest) => (some name, rest) := by
  rw [nextName, skipBlank_append hgap, skipBlank_cons (by decide)]
  rfl

lemma nextName_quote_comma (hgap : AllBlank gap) (hgap' : AllBlank gap') (chars : List Char) :
    nextName false (gap ++ ',' :: (gap' ++ '"' :: chars)) =
      (scanString .plain [] chars).map fun (name, rest) => (some name, rest) := by
  rw [nextName, skipBlank_append hgap, skipBlank_cons (by decide)]
  simp [skipBlank_append hgap', skipBlank_cons (c := '"') (by decide)]

lemma nextName_first (hgap : AllBlank gap) (hname : SpellsText name label) (rest : List Char) :
    nextName true (gap ++ (label ++ rest)) = .ok (some name, rest) := by
  obtain ⟨chars, rfl, hscan⟩ := hname.exists_scanString
  rw [List.cons_append, nextName_quote_first hgap, hscan]
  rfl

lemma nextName_comma (hgap : AllBlank gap) (hgap' : AllBlank gap') (hname : SpellsText name label)
    (rest : List Char) :
    nextName false (gap ++ ',' :: (gap' ++ (label ++ rest))) = .ok (some name, rest) := by
  obtain ⟨chars, rfl, hscan⟩ := hname.exists_scanString
  rw [List.cons_append, nextName_quote_comma hgap hgap', hscan]
  rfl

lemma nextName_close (isFirst : Bool) (hgap : AllBlank gap) (rest : List Char) :
    nextName isFirst (gap ++ '\x7d' :: rest) = .ok (none, rest) := by
  rw [nextName, skipBlank_append hgap, skipBlank_cons (by decide)]
  rfl

lemma skipColon_colon (hgap : AllBlank gap) (rest : List Char) :
    skipColon (gap ++ ':' :: rest) = .ok rest := by
  rw [skipColon, skipBlank_append hgap, skipBlank_cons (by decide)]
  rfl

end

end PlanChart.Json
