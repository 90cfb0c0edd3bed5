import PlanChart.Proofs.Json.Value

/-!
# The texts that spell a value

A JSON value can be written in many ways: with other blank space between its parts and with other
escapes inside its texts. What is printed over several lines is one of them, and so is what is
printed without blank space. The members of an object stand in the order in which the value has
them.
-/

namespace PlanChart.Json

section

variable {α : Type}

/-- Items, each after a comma, up to a closing bracket. -/
inductive Continued (close : Char) (P : α → List Char → Prop) : List α → List Char → Prop
  | nil {gap : List Char} (hgap : AllBlank gap) : Continued close P [] (gap ++ [close])
  | cons {item : α} {items : List α} {gap gap' piece text : List Char} (hgap : AllBlank gap)
      (hgap' : AllBlank gap') (hitem : P item piece) (hitems : Continued close P items text) :
      Continued close P (item :: items) (gap ++ ',' :: (gap' ++ (piece ++ text)))

/-- Items with commas between them, up to a closing bracket. -/
inductive Listed (close : Char) (P : α → List Char → Prop) : List α → List Char → Prop
  | nil {gap : List Char} (hgap : AllBlank gap) : Listed close P [] (gap ++ [close])
  | cons {item : α} {items : List α} {gap piece text : List Char} (hgap : AllBlank gap)
      (hitem : P item piece) (hitems : Continued close P items text) :
      Listed close P (item :: items) (gap ++ (piece ++ text))

/-- A name and a value with a colon between them. -/
inductive Member (P : α → List Char → Prop) : String × α → List Char → Prop
  | mk {name : String} {value : α} {label gap gap' piece : List Char}
      (hname : SpellsText name label) (hgap : AllBlank gap) (hgap' : AllBlank gap')
      (hvalue : P value piece) : Member P (name, value) (label ++ (gap ++ ':' :: (gap' ++ piece)))

end

/-- The texts of a value whose numbers are integers, from its first character to its last one. -/
inductive Spells : Json → List Char → Prop
  | null : Spells .null "null".toList
  | bool (value : Bool) : Spells (.bool value) (toString value).toList
  | integer (value : Int) : Spells (.integer value) (toString value).toList
  | string {value : String} {text : List Char} (h : SpellsText value text) :
      Spells (.string value) text
  | array {elements : List Json} {text : List Char} (h : Listed ']' Spells elements text) :
      Spells (.array elements) ('[' :: text)
  | object {members : List (String × Json)} {text : List Char}
      (h : Listed '\x7d' (Member Spells) members text) : Spells (.object members) ('\x7b' :: text)

/-- A text that holds a value and nothing else. -/
def IsText (value : Json) (text : String) : Prop :=
  ∃ gap piece gap', AllBlank gap ∧ Spells value piece ∧ AllBlank gap' ∧
    text.toList = gap ++ (piece ++ gap')

/-- No value starts with blank space or with a closing bracket, and only null starts with its
letter. -/
lemma Spells.exists_cons {value : Json} {text : List Char} (h : Spells value text) :
    ∃ c chars, text = c :: chars ∧ isBlank c = false ∧ c ≠ ']' ∧ (c = 'n' → value = .null) := by
  cases h with
  | null => exact ⟨_, _, rfl, by decide, by decide, fun _ => rfl⟩
  | bool value =>
    cases value with
    | false => exact ⟨_, _, rfl, by decide, by decide, fun h => absurd h (by decide)⟩
    | true => exact ⟨_, _, rfl, by decide, by decide, fun h => absurd h (by decide)⟩
  | integer value =>
    obtain ⟨c, chars, heq, hc⟩ := exists_toList_toString value
    refine ⟨c, chars, heq, ?_⟩
    rcases hc with hdigit | rfl
    · refine ⟨isBlank_of_isDigit hdigit, ?_, ?_⟩
      · rintro rfl
        exact absurd hdigit (by decide)
      · rintro rfl
        exact absurd hdigit (by decide)
    · exact ⟨by decide, by decide, fun h => absurd h (by decide)⟩
  | string h =>
    obtain ⟨chars, rfl, -⟩ := h.exists_scanString
    exact ⟨_, _, rfl, by decide, by decide, fun h => absurd h (by decide)⟩
  | array => exact ⟨_, _, rfl, by decide, by decide, fun h => absurd h (by decide)⟩
  | object => exact ⟨_, _, rfl, by decide, by decide, fun h => absurd h (by decide)⟩

/-! ### Lists of pieces -/

section

variable {α : Type} {close : Char} {P : α → List Char → Prop} {items : List α}
  {piece : α → List Char} {gap outer : List Char}

lemma continued_flatMap (h : ∀ item ∈ items, P item (piece item)) (hgap : AllBlank gap)
    (houter : AllBlank outer) :
    Continued close P items
      (items.flatMap (fun item => ',' :: (gap ++ piece item)) ++ (outer ++ [close])) := by
  induction items with
  | nil => exact .nil houter
  | cons item items ih =>
    obtain ⟨hitem, hitems⟩ := List.forall_mem_cons.mp h
    simpa using Continued.cons allBlank_nil hgap hitem (ih hitems)

lemma Continued.length_le {text : List Char} (h : Continued close P items text) :
    items.length < text.length := by
  induction h with
  | nil => simp
  | cons =>
    simp only [List.length_append, List.length_cons]
    omega

end

/-! ### What is printed -/

section

variable (gap : Nat → List Char) (space : List Char)

mutual

/-- A value as it is written with the given space in front of elements, names and closing brackets,
for each number of brackets around it, and the given space after colons. -/
def layout (depth : Nat) : Json → List Char
  | .null => "null".toList
  | .bool value => (toString value).toList
  | .integer value => (toString value).toList
  | .decimal negative value => ((if negative then "-" else "") ++ value.concise).toList
  | .string value => (quote value).toList
  | .array [] => "[]".toList
  | .array (element :: elements) =>
    '[' :: (gap (depth + 1) ++ (layout (depth + 1) element ++
      (layoutElements (depth + 1) elements ++ (gap depth ++ [']']))))
  | .object [] => "\x7b\x7d".toList
  | .object ((name, value) :: members) =>
    '\x7b' :: (gap (depth + 1) ++ ((quote name).toList ++ ':' :: (space ++ layout (depth + 1) value) ++
      (layoutMembers (depth + 1) members ++ (gap depth ++ ['\x7d']))))

/-- The elements of an array after the first. -/
def layoutElements (depth : Nat) : List Json → List Char
  | [] => []
  | element :: elements =>
    ',' :: (gap depth ++ (layout depth element ++ layoutElements depth elements))

/-- The members of an object after the first. -/
def layoutMembers (depth : Nat) : List (String × Json) → List Char
  | [] => []
  | (name, value) :: members =>
    ',' :: (gap depth ++ ((quote name).toList ++ ':' :: (space ++ layout depth value) ++
      layoutMembers depth members))

end

lemma layoutElements_eq (depth : Nat) (elements : List Json) :
    layoutElements gap space depth elements =
      elements.flatMap fun element => ',' :: (gap depth ++ layout gap space depth element) := by
  induction elements with
  | nil => rfl
  | cons element elements ih => simp [layoutElements, ih]

lemma layoutMembers_eq (depth : Nat) (members : List (String × Json)) :
    layoutMembers gap space depth members = members.flatMap fun member => ',' :: (gap depth ++
      ((quote member.1).toList ++ ':' :: (space ++ layout gap space depth member.2))) := by
  induction members with
  | nil => rfl
  | cons member members ih => simp [layoutMembers, ih]

variable {gap space}

/-- A value is spelled with all blank space. -/
lemma Plain.spells_layout {value : Json} (h : value.Plain) (hgap : ∀ depth, AllBlank (gap depth))
    (hspace : AllBlank space) (depth : Nat) : Spells value (layout gap space depth value) := by
  induction h generalizing depth with
  | null => exact .null
  | bool value => exact .bool value
  | integer value => exact .integer value
  | string value => exact .string (spellsText_quote value)
  -- Only a list with an element has a gap behind its bracket: an empty one is printed closed up.
  | @array elements _ ih =>
    cases elements with
    | nil => exact .array (.nil allBlank_nil)
    | cons element elements =>
      obtain ⟨helement, helements⟩ := List.forall_mem_cons.mp ih
      have hothers : Continued ']' Spells elements _ := continued_flatMap
        (fun element hmem => helements element hmem (depth + 1)) (hgap (depth + 1)) (hgap depth)
      have hlisted := Listed.cons (hgap (depth + 1)) (helement (depth + 1)) hothers
      rw [layout, layoutElements_eq]
      exact .array hlisted
  | @object members _ ih =>
    have hmember (member : String × Json) (hmem : member ∈ members) : Member Spells member
        ((quote member.1).toList ++ ':' :: (space ++ layout gap space (depth + 1) member.2)) := by
      have hvalue := ih member hmem (depth + 1)
      simpa using Member.mk (spellsText_quote member.1) allBlank_nil hspace hvalue
    cases members with
    | nil => exact .object (.nil allBlank_nil)
    | cons member members =>
      obtain ⟨hfirst, hmembers⟩ := List.forall_mem_cons.mp hmember
      have hothers : Continued '\x7d' (Member Spells) members _ :=
        continued_flatMap hmembers (hgap (depth + 1)) (hgap depth)
      have hlisted := Listed.cons (hgap (depth + 1)) hfirst hothers
      rw [layout, layoutMembers_eq]
      exact .object hlisted

end

/-! ### Values that are printed over several lines -/

mutual

lemma toList_printAt (depth : Nat) (value : Json) :
    (printAt depth value).toList = layout (fun depth => (newline depth).toList) [' '] depth value := by
  match value with
  | .null => simp [printAt, layout]
  | .bool true => simp [printAt, layout, toString]
  | .bool false => simp [printAt, layout, toString]
  | .integer value => simp [printAt, layout]
  | .decimal negative value => simp [printAt, layout]
  | .string value => simp [printAt, layout]
  | .array [] => simp [printAt, layout]
  | .array (element :: elements) =>
    simp [printAt, layout, toList_printAt (depth + 1) element,
      toList_printElements (depth + 1) elements]
  | .object [] => simp [printAt, layout]
  | .object ((name, value) :: members) =>
    simp [printAt, layout, toList_printAt (depth + 1) value,
      toList_printMembers (depth + 1) members]

lemma toList_printElements (depth : Nat) (elements : List Json) :
    (printElements depth elements).toList =
      layoutElements (fun depth => (newline depth).toList) [' '] depth elements := by
  match elements with
  | [] => simp [printElements, layoutElements]
  | element :: elements =>
    simp [printElements, layoutElements, toList_printAt depth element,
      toList_printElements depth elements]

lemma toList_printMembers (depth : Nat) (members : List (String × Json)) :
    (printMembers depth members).toList =
      layoutMembers (fun depth => (newline depth).toList) [' '] depth members := by
  match members with
  | [] => simp [printMembers, layoutMembers]
  | (name, value) :: members =>
    simp [printMembers, layoutMembers, toList_printAt depth value,
      toList_printMembers depth members]

end

/-- A value as it is printed without blank space. -/
def printFlat (value : Json) : String :=
  String.ofList (layout (fun _ => []) [] 0 value)

lemma Plain.isText_print {value : Json} (h : value.Plain) : IsText value value.print := by
  have hspace : AllBlank [' '] := List.forall_mem_singleton.mpr rfl
  refine ⟨[], _, [], allBlank_nil, h.spells_layout allBlank_newline hspace 0, allBlank_nil, ?_⟩
  rw [print, toList_printAt, List.append_nil, List.nil_append]

lemma Plain.isText_printFlat {value : Json} (h : value.Plain) : IsText value value.printFlat := by
  refine ⟨[], _, [], allBlank_nil, h.spells_layout (fun _ => allBlank_nil) allBlank_nil 0,
    allBlank_nil, ?_⟩
  rw [printFlat, String.toList_ofList, List.append_nil, List.nil_append]

end PlanChart.Json
