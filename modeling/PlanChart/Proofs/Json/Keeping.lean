import PlanChart.Proofs.Json.Pieces

/-!
# Readers keep to the grammar

A reader may refuse the text of a value. If it does not, then it stops exactly behind the text, and
it has accepted all the pieces that it is made of. So a text is refused when one of its pieces is,
or when the members of a record are not as they must be.
-/

namespace PlanChart.Json

/-! ### Strings -/

/-- Where the scan of a string stands when its characters do not matter. -/
def StringState.passing : StringState → SkipState
  | .plain => .plain
  | .escape => .escape
  | .unit _ digits _ => .unit digits
  | .pairBackslash _ => .plain
  | .pairLetter _ => .escape

/-- After a digit of a code unit the scan goes on, unless it fails. -/
lemma exists_of_scanString_unit {high : Option Nat} {digits value : Nat} {read text : List Char}
    {c : Char} {result : String × List Char}
    (h : scanString (.unit high digits value) read (c :: text) = .ok result) :
    (Hex.value? c).isNone = false ∧ ∃ state read', scanString state read' text = .ok result ∧
      state.passing = if digits < 3 then .unit (digits + 1) else .plain := by
  cases hdigit : Hex.value? c with
  | none =>
    simp only [scanString, hdigit] at h
    cases h
  | some digit =>
    simp only [scanString, hdigit] at h
    refine ⟨rfl, ?_⟩
    -- Only the fourth digit ends a unit, and only then can a pair of surrogates be refused.
    by_cases hdigits : digits < 3
    · rw [if_pos hdigits] at h
      exact ⟨_, _, h, (if_pos hdigits).symm⟩
    · rw [if_neg hdigits] at h
      rw [if_neg hdigits]
      cases high with
      | some high =>
        dsimp only at h
        split_ifs at h
        exact ⟨_, _, h, rfl⟩
      | none =>
        dsimp only at h
        split_ifs at h
        · exact ⟨_, _, h, rfl⟩
        · exact ⟨_, _, h, rfl⟩

/-- A string that is read can be passed over. -/
lemma skipString_of_scanString {text rest read : List Char} {state : StringState} {found : String}
    (h : scanString state read text = .ok (found, rest)) :
    skipString state.passing text = .ok rest := by
  induction text generalizing state read with
  | nil => cases h
  | cons c text ih =>
    cases state with
    | plain =>
      simp only [scanString] at h
      split_ifs at h with hquote hbackslash hcontrol
      · obtain ⟨-, rfl⟩ : _ ∧ text = rest := by simpa using h
        simp [skipString, StringState.passing, hquote]
      · simpa [skipString, StringState.passing, hquote, hbackslash] using ih h
      · simpa [skipString, StringState.passing, hquote, hbackslash, hcontrol] using ih h
    | escape =>
      simp only [scanString] at h
      split_ifs at h with hunit
      · simpa [skipString, StringState.passing, hunit] using ih h
      · cases hletter : letterEscape? c with
        | none =>
          rw [hletter] at h
          cases h
        | some character =>
          rw [hletter] at h
          simpa [skipString, StringState.passing, hunit, hletter] using ih h
    | unit high digits value =>
      obtain ⟨hdigit, state, read', hscan, hpassing⟩ := exists_of_scanString_unit h
      have hskip := ih hscan
      rw [hpassing] at hskip
      simp only [skipString, StringState.passing, hdigit, Bool.false_eq_true, if_false]
      split_ifs at hskip ⊢ <;> exact hskip
    -- The scan that passes over a string does not know that a second code unit has to follow.
    | pairBackslash high =>
      simp only [scanString] at h
      split_ifs at h with hbackslash
      simpa [skipString, StringState.passing, hbackslash] using ih h
    | pairLetter high =>
      simp only [scanString] at h
      split_ifs at h with hunit
      simpa [skipString, StringState.passing, hunit] using ih h

/-- A string that is read is read up to its closing quote. -/
lemma IsString.eq_of_scanString {chars rest left : List Char} {found : String}
    (h : IsString ('"' :: chars)) (hscan : scanString .plain [] (chars ++ rest) = .ok (found, left)) :
    left = rest := by
  cases h with
  | mk hbody =>
    have hskip := skipString_of_scanString hscan
    rw [List.append_assoc, List.singleton_append, StringState.passing, hbody.skipString] at hskip
    exact (Except.ok.inj hskip).symm

section

variable {α : Type} {read : Reader α} {text rest left : List Char}

/-- A reading of a text succeeds, behind blank space and in front of something by which no number
goes on. It leaves the given text. -/
def Succeeds (read : Reader α) (text rest left : List Char) : Prop :=
  ∃ bound gap a, AllBlank gap ∧ Ends rest ∧ text.length ≤ bound ∧
    read bound (gap ++ (text ++ rest)) = .ok (a, left)

/-- Some reading of a text succeeds. -/
def Accepts (read : Reader α) (text : List Char) : Prop :=
  ∃ rest left, Succeeds read text rest left

/-- A reader that succeeds on the text of a value stops behind it. -/
def Keeps (read : Reader α) : Prop :=
  ∀ text rest left, Valid text → Succeeds read text rest left → left = rest

/-- What is accepted when nothing but blank space stands around it. -/
lemma accepts_of_readWhole {piece gap gap' : List Char} (hgap : AllBlank gap)
    (hgap' : AllBlank gap') {text : String} (htext : text.toList = gap ++ (piece ++ gap')) {a : α}
    (h : readWhole read text = .ok a) : Accepts read piece := by
  have hends : Ends gap' := by
    cases gap' with
    | nil => simp [Ends]
    | cons blank gap' =>
      have hblank := hgap' blank List.mem_cons_self
      simp only [isBlank, Bool.or_eq_true, decide_eq_true_eq] at hblank
      rcases hblank with ((rfl | rfl) | rfl) | rfl <;> simp [Ends]
  unfold readWhole at h
  dsimp only at h
  rw [htext] at h
  cases hread : read (gap ++ (piece ++ gap')).length (gap ++ (piece ++ gap')) with
  | error failure =>
    rw [hread] at h
    cases h
  | ok found =>
    refine ⟨gap', found.2, _, gap, found.1, hgap, hends, ?_, hread⟩
    simp only [List.length_append]
    omega

/-! ### Scalars -/

lemma keeps_text : Keeps readText := by
  rintro text rest left hvalid ⟨bound, gap, a, hgap, -, -, h⟩
  obtain ⟨c, chars, rfl, hblank, -⟩ := hvalid.exists_cons
  rw [readText, skipBlank_append hgap, List.cons_append, skipBlank_cons hblank] at h
  split at h
  · obtain ⟨rfl, rfl⟩ := List.cons.inj ‹_›
    exact hvalid.isString.eq_of_scanString h
  · cases h

lemma scanWord_append (word rest : List Char) : scanWord word (word ++ rest) = .ok rest := by
  induction word with
  | nil => rfl
  | cons c word ih => simpa [scanWord] using ih

lemma keeps_bool : Keeps readBool := by
  rintro text rest left hvalid ⟨bound, gap, a, hgap, -, -, h⟩
  obtain ⟨c, chars, rfl, hblank, -⟩ := hvalid.exists_cons
  rw [readBool, skipBlank_append hgap, List.cons_append, skipBlank_cons hblank] at h
  split at h
  · obtain ⟨rfl, rfl⟩ := List.cons.inj ‹_›
    rw [hvalid.eq_of_t, scanWord_append] at h
    exact (Prod.mk.inj (Except.ok.inj h)).2.symm
  · obtain ⟨rfl, rfl⟩ := List.cons.inj ‹_›
    rw [hvalid.eq_of_f, scanWord_append] at h
    exact (Prod.mk.inj (Except.ok.inj h)).2.symm
  · cases h

/-- A value that is not null is accepted by what reads it. -/
lemma succeeds_of_optional {c : Char} {chars : List Char} (hblank : isBlank c = false)
    (hc : c ≠ 'n') (h : Succeeds (readOptional read) (c :: chars) rest left) :
    Succeeds read (c :: chars) rest left := by
  obtain ⟨bound, gap, a, hgap, hrest, hbound, h⟩ := h
  rw [readOptional, skipBlank_append hgap, List.cons_append, skipBlank_cons hblank] at h
  split at h
  · exact absurd (List.cons.inj ‹_›).1 hc
  · cases hread : read bound (gap ++ (c :: (chars ++ rest))) with
    | error failure =>
      rw [hread] at h
      cases h
    | ok found =>
      rw [hread] at h
      obtain ⟨-, rfl⟩ := Prod.mk.inj (Except.ok.inj h)
      exact ⟨bound, gap, found.1, hgap, hrest, hbound, hread⟩

lemma keeps_optional (hkeeps : Keeps read) : Keeps (readOptional read) := by
  intro text rest left hvalid h
  obtain ⟨c, chars, rfl, hblank, -⟩ := hvalid.exists_cons
  by_cases hc : c = 'n'
  · subst hc
    obtain ⟨bound, gap, a, hgap, -, -, h⟩ := h
    rw [readOptional, skipBlank_append hgap, hvalid.eq_of_n] at h
    obtain ⟨-, rfl⟩ := Prod.mk.inj (Except.ok.inj h)
    rfl
  · exact hkeeps _ rest left hvalid (succeeds_of_optional hblank hc h)

/-! ### Lists -/

/-- An element that is next has been accepted when the elements are read. -/
lemma accepts_of_readElements (hkeeps : Keeps read) {done elements : List α}
    {piece text : List Char} (hnext : nextElement done.isEmpty text = .ok (true, piece ++ rest))
    (hpiece : Valid piece) (hrest : Ends rest) {bound limit : Nat} (hbound : piece.length ≤ bound)
    (h : readElements (read bound) limit done text = .ok (elements, left)) :
    Accepts read piece ∧
      ∃ a limit, readElements (read bound) limit (a :: done) rest = .ok (elements, left) := by
  cases limit with
  | zero => cases h
  | succ limit =>
    simp only [readElements, hnext] at h
    cases hread : read bound (piece ++ rest) with
    | error failure =>
      rw [hread] at h
      cases h
    | ok found =>
      rw [hread] at h
      have hsucceeds : Succeeds read piece rest found.2 :=
        ⟨bound, [], found.1, allBlank_nil, hrest, hbound, hread⟩
      dsimp only at h
      rw [hkeeps piece _ _ hpiece hsucceeds] at h
      exact ⟨⟨_, _, hsucceeds⟩, found.1, limit, h⟩

/-- The elements behind the first are accepted one after another. -/
lemma Continued.succeeds {pieces : List (List Char)} (htext : Continued ']' (· = ·) pieces text)
    (hkeeps : Keeps read) (hvalid : ∀ piece ∈ pieces, Valid piece) {bound limit : Nat}
    (hbound : text.length ≤ bound) {done elements : List α} (hdone : done ≠ [])
    (h : readElements (read bound) limit done (text ++ rest) = .ok (elements, left)) :
    left = rest ∧ ∀ piece ∈ pieces, Accepts read piece := by
  -- The reader may refuse any element; since it has not, each round has read one of the pieces.
  induction htext generalizing limit done with
  | nil hgap =>
    cases limit with
    | zero => cases h
    | succ limit =>
      rw [readElements, List.append_assoc, List.singleton_append, nextElement_close _ hgap] at h
      obtain ⟨-, rfl⟩ := Prod.mk.inj (Except.ok.inj h)
      exact ⟨rfl, by simp⟩
  | @cons piece pieces gap gap' _ text hgap hgap' heq htext ih =>
    subst heq
    obtain ⟨hpiece, hpieces⟩ := List.forall_mem_cons.mp hvalid
    have hlengths : piece.length ≤ bound ∧ text.length ≤ bound := by
      simp only [List.length_append, List.length_cons] at hbound
      omega
    have hempty : done.isEmpty = false := by simpa using hdone
    have hnext := StartsItem.nextElement_comma hpiece.exists_cons hgap hgap' (text ++ rest)
    simp only [List.append_assoc, List.cons_append] at h
    obtain ⟨haccepts, a, limit, h⟩ := accepts_of_readElements hkeeps (hempty ▸ hnext) hpiece
      (htext.ends (by decide) rest) hlengths.1 h
    obtain ⟨hleft, hothers⟩ := ih hpieces hlengths.2 (List.cons_ne_nil a done) h
    exact ⟨hleft, List.forall_mem_cons.mpr ⟨haccepts, hothers⟩⟩

/-- A list is read only from an array whose pieces are accepted. -/
lemma Listed.succeeds {pieces : List (List Char)} (htext : Listed ']' (· = ·) pieces text)
    (hkeeps : Keeps read) (hvalid : ∀ piece ∈ pieces, Valid piece)
    (h : Succeeds (readList read) ('[' :: text) rest left) :
    left = rest ∧ ∀ piece ∈ pieces, Accepts read piece := by
  obtain ⟨bound, gap, elements, hgap, -, hbound, h⟩ := h
  rw [readList, skipBlank_append hgap, List.cons_append, skipBlank_cons (by decide)] at h
  rw [List.length_cons] at hbound
  cases htext with
  | nil hgap =>
    simp only [readElements, List.append_assoc, List.singleton_append,
      nextElement_close _ hgap] at h
    obtain ⟨-, rfl⟩ := Prod.mk.inj (Except.ok.inj h)
    exact ⟨rfl, by simp⟩
  | @cons piece pieces gap _ text hgap heq htext =>
    subst heq
    obtain ⟨hpiece, hpieces⟩ := List.forall_mem_cons.mp hvalid
    have hlengths : piece.length ≤ bound ∧ text.length ≤ bound := by
      simp only [List.length_append] at hbound
      omega
    have hnext : nextElement ([] : List α).isEmpty (gap ++ (piece ++ (text ++ rest))) = _ :=
      StartsItem.nextElement_first hpiece.exists_cons hgap (text ++ rest)
    simp only [List.append_assoc] at h
    obtain ⟨haccepts, a, limit, h⟩ := accepts_of_readElements hkeeps hnext hpiece
      (htext.ends (by decide) rest) hlengths.1 h
    obtain ⟨hleft, hothers⟩ := htext.succeeds hkeeps hpieces hlengths.2 (List.cons_ne_nil a []) h
    exact ⟨hleft, List.forall_mem_cons.mpr ⟨haccepts, hothers⟩⟩

lemma keeps_list (hkeeps : Keeps read) : Keeps (readList read) := by
  intro text rest left hvalid h
  obtain ⟨c, chars, rfl, hblank, -⟩ := hvalid.exists_cons
  by_cases hc : c = '['
  · subst hc
    obtain ⟨pieces, htext, hpieces⟩ := hvalid.exists_pieces
    exact (htext.succeeds hkeeps hpieces h).1
  · obtain ⟨bound, gap, a, hgap, -, -, h⟩ := h
    rw [readList, skipBlank_append hgap, List.cons_append, skipBlank_cons hblank] at h
    split at h
    · exact absurd (List.cons.inj ‹_›).1 hc
    · cases h

end

/-! ### Members -/

section

variable {isFirst : Bool} {text rest left : List Char} {labelled : List Char × List Char}

/-- If a name is found, it is the one that the label spells, if any, and it leads to the text of its
value. -/
def LeadsTo (isFirst : Bool) (text : List Char) (labelled : List Char × List Char)
    (rest : List Char) : Prop :=
  ∀ found behind, nextName isFirst text = .ok (found, behind) →
    ∃ name gap, found = some name ∧ (∀ other, SpellsText other labelled.1 → other = name) ∧
      AllBlank gap ∧ skipColon behind = .ok (gap ++ (labelled.2 ++ rest))

/-- A label is found where names are scanned from behind the quote on. -/
lemma IsMember.leadsTo (h : IsMember labelled text) {before : List Char}
    (hname : ∀ chars, nextName isFirst (before ++ '"' :: chars) =
      (scanString .plain [] chars).map fun (name, rest) => (some name, rest)) (rest : List Char) :
    LeadsTo isFirst (before ++ (text ++ rest)) labelled rest := by
  obtain ⟨hlabel, hgap, hgap'⟩ := h
  rename_i label gap gap' piece
  intro found behind hfound
  obtain ⟨chars, rfl⟩ : ∃ chars, label = '"' :: chars := by
    cases hlabel
    exact ⟨_, rfl⟩
  rw [List.append_assoc, List.cons_append, hname, List.append_assoc, List.cons_append,
    List.append_assoc] at hfound
  -- A label that no text spells makes the scan fail, so here nothing is found at all.
  cases hscan : scanString .plain [] (chars ++ (gap ++ ':' :: (gap' ++ (piece ++ rest)))) with
  | error failure =>
    rw [hscan] at hfound
    cases hfound
  | ok scanned =>
    rw [hscan] at hfound
    obtain ⟨rfl, rfl⟩ := Prod.mk.inj (Except.ok.inj hfound)
    refine ⟨scanned.1, gap', rfl, fun other hother => ?_, hgap', ?_⟩
    · obtain ⟨chars', heq, hspelled⟩ := hother.exists_scanString
      obtain rfl := (List.cons.inj heq).2
      rw [hspelled] at hscan
      exact congrArg Prod.fst (Except.ok.inj hscan)
    · -- The scan ends where the label does, whatever the label spells.
      rw [hlabel.eq_of_scanString hscan]
      exact skipColon_colon hgap _

lemma IsMember.leadsTo_first (h : IsMember labelled text) {gap : List Char} (hgap : AllBlank gap)
    (rest : List Char) : LeadsTo true (gap ++ (text ++ rest)) labelled rest :=
  h.leadsTo (nextName_quote_first hgap) rest

lemma IsMember.leadsTo_comma (h : IsMember labelled text) {gap gap' : List Char}
    (hgap : AllBlank gap) (hgap' : AllBlank gap') (rest : List Char) :
    LeadsTo false (gap ++ ',' :: (gap' ++ (text ++ rest))) labelled rest := by
  have hname (chars : List Char) : nextName false ((gap ++ ',' :: gap') ++ '"' :: chars) =
      (scanString .plain [] chars).map fun (name, rest) => (some name, rest) := by
    simpa using nextName_quote_comma hgap hgap' chars
  simpa using h.leadsTo hname rest

lemma IsMember.length_le (h : IsMember labelled text) : labelled.2.length ≤ text.length := by
  cases h
  simp only [List.length_append, List.length_cons]
  omega

/-- An entry that is next is read, and so are those behind it. -/
lemma exists_readEntries (hleads : LeadsTo isFirst text labelled rest) (hvalid : Valid labelled.2)
    (hrest : Ends rest) {limit : Nat} {map result : Std.ExtTreeMap String String}
    (h : readEntries isFirst limit map text = .ok (result, left)) :
    ∃ limit map, readEntries false limit map rest = .ok (result, left) := by
  cases limit with
  | zero => cases h
  | succ limit =>
    cases hfound : nextName isFirst text with
    | error failure =>
      simp only [readEntries, hfound] at h
      cases h
    | ok found =>
      obtain ⟨name, gap, hname, -, hgap, hcolon⟩ := hleads found.1 found.2 hfound
      obtain ⟨_, behind⟩ := found
      subst hname
      simp only [readEntries, hfound, hcolon] at h
      cases hread : readText limit (gap ++ (labelled.2 ++ rest)) with
      | error failure =>
        rw [hread] at h
        cases h
      | ok value =>
        rw [hread] at h
        -- No bound is needed to read a text.
        have hsucceeds : Succeeds readText labelled.2 rest value.2 :=
          ⟨labelled.2.length, gap, value.1, hgap, hrest, le_rfl, hread⟩
        rw [← keeps_text _ _ _ hvalid hsucceeds]
        exact ⟨limit, _, h⟩

lemma Continued.eq_of_readEntries {members : List (List Char × List Char)}
    (htext : Continued '\x7d' IsMember members text)
    (hvalid : ∀ member ∈ members, Valid member.2) {limit : Nat}
    {map result : Std.ExtTreeMap String String}
    (h : readEntries false limit map (text ++ rest) = .ok (result, left)) : left = rest := by
  induction htext generalizing limit map with
  | nil hgap =>
    cases limit with
    | zero => cases h
    | succ limit =>
      rw [readEntries, List.append_assoc, List.singleton_append, nextName_close _ hgap] at h
      exact (Prod.mk.inj (Except.ok.inj h)).2.symm
  | cons hgap hgap' hmember htext ih =>
    obtain ⟨hpiece, hpieces⟩ := List.forall_mem_cons.mp hvalid
    simp only [List.append_assoc, List.cons_append] at h
    obtain ⟨limit, map, h⟩ := exists_readEntries (hmember.leadsTo_comma hgap hgap' _) hpiece
      (htext.ends (by decide) rest) h
    exact ih hpieces h

lemma keeps_map : Keeps readMap := by
  rintro text rest left hvalid ⟨bound, gap, a, hgap, -, -, h⟩
  obtain ⟨c, chars, rfl, hblank, -⟩ := hvalid.exists_cons
  rw [readMap, skipBlank_append hgap, List.cons_append, skipBlank_cons hblank] at h
  split at h
  · obtain ⟨rfl, rfl⟩ := List.cons.inj ‹_›
    obtain ⟨members, htext, hvalues⟩ := hvalid.exists_members
    cases htext with
    | nil hgap =>
      rw [readEntries, List.append_assoc, List.singleton_append, nextName_close _ hgap] at h
      exact (Prod.mk.inj (Except.ok.inj h)).2.symm
    | cons hgap hmember htext =>
      obtain ⟨hpiece, hpieces⟩ := List.forall_mem_cons.mp hvalues
      simp only [List.append_assoc] at h
      obtain ⟨limit, map, h⟩ := exists_readEntries (hmember.leadsTo_first hgap _) hpiece
        (htext.ends (by decide) rest) h
      exact htext.eq_of_readEntries hpieces h
  · cases h

end

/-! ### Records -/

/-- A field keeps to the grammar when the reader of its value does. -/
lemma succeeds_of_field {α β : Type} {read : Reader β} {name : String} {required : Bool}
    {put : α → β → α} {record : α} {text rest left : List Char}
    (h : Succeeds ((Field.of name required read put).read record) text rest left) :
    Succeeds read text rest left := by
  obtain ⟨bound, gap, a, hgap, hrest, hbound, h⟩ := h
  simp only [Field.of] at h
  cases hread : read bound (gap ++ (text ++ rest)) with
  | error failure =>
    rw [hread] at h
    cases h
  | ok found =>
    rw [hread] at h
    obtain ⟨-, rfl⟩ := Prod.mk.inj (Except.ok.inj h)
    exact ⟨bound, gap, found.1, hgap, hrest, hbound, hread⟩

namespace Shape

variable {α : Type} {shape : Shape α}

/-- All fields of a record keep to the grammar. -/
def FieldsKeep (shape : Shape α) : Prop :=
  ∀ field ∈ shape.fields, ∀ record, Keeps (field.read record)

/-- Members are admitted to a record one after another: no known one has been seen, and the text of
each is accepted by its field. At the end no field that must be written is missing. -/
inductive Admits (shape : Shape α) : List String → List (String × List Char) → Prop
  | nil {seen : List String} (h : shape.missing? seen = none) : Admits shape seen []
  | known {seen : List String} {name : String} {piece : List Char}
      {members : List (String × List Char)} {field : Field α} {record : α}
      (hfield : shape.fields.find? (·.name = name) = some field) (hnew : name ∉ seen)
      (hpiece : Accepts (field.read record) piece)
      (hmembers : Admits shape (name :: seen) members) :
      Admits shape seen ((name, piece) :: members)
  | unknown {seen : List String} {name : String} {piece : List Char}
      {members : List (String × List Char)}
      (hfield : shape.fields.find? (·.name = name) = none)
      (hmembers : Admits shape seen members) : Admits shape seen ((name, piece) :: members)

section

variable {isFirst : Bool} {text rest left : List Char} {labelled : List Char × List Char}
  {bound limit : Nat} {seen : List String} {record filled : α}

/-- A name is the one that a label spells, if it spells any. -/
def Names (labelled : List Char × List Char) (member : String × List Char) : Prop :=
  (∀ other, SpellsText other labelled.1 → other = member.1) ∧ labelled.2 = member.2

/-- A member that is next is admitted, and those behind it are read. -/
lemma exists_readMembers (hkeeps : shape.FieldsKeep) (hleads : LeadsTo isFirst text labelled rest)
    (hvalid : Valid labelled.2) (hrest : Ends rest) (hbound : labelled.2.length ≤ bound)
    (h : shape.readMembers bound isFirst limit seen record text = .ok (filled, left)) :
    ∃ member limit seen' record', Names labelled member ∧
      shape.readMembers bound false limit seen' record' rest = .ok (filled, left) ∧
      ∀ members, Admits shape seen' members → Admits shape seen (member :: members) := by
  cases limit with
  | zero => cases h
  | succ limit =>
    cases hfound : nextName isFirst text with
    | error failure =>
      simp only [readMembers, hfound] at h
      cases h
    | ok found =>
      obtain ⟨name, gap, hname, hnames, hgap, hcolon⟩ := hleads found.1 found.2 hfound
      obtain ⟨_, behind⟩ := found
      subst hname
      cases hfield : shape.fields.find? (·.name = name) with
      -- A name without a field is passed over, so its value only has to be well formed.
      | none =>
        have hskip := hvalid.skipValue hgap hrest hbound
        simp only [readMembers, hfound, hfield, hcolon, hskip] at h
        exact ⟨(name, labelled.2), limit, seen, record, ⟨hnames, rfl⟩, h,
          fun members => .unknown hfield⟩
      | some field =>
        simp only [readMembers, hfound, hfield, hcolon] at h
        -- A repeated name makes the reading fail, so the member is admitted as one not seen before.
        split_ifs at h with hseen
        cases hread : field.read record bound (gap ++ (labelled.2 ++ rest)) with
        | error failure =>
          rw [hread] at h
          cases h
        | ok value =>
          rw [hread] at h
          have hsucceeds : Succeeds (field.read record) labelled.2 rest value.2 :=
            ⟨bound, gap, value.1, hgap, hrest, hbound, hread⟩
          -- The value has been read up to the end of its piece, so the reading goes on behind it.
          rw [← hkeeps field (List.mem_of_find?_eq_some hfield) record _ _ _ hvalid hsucceeds]
          exact ⟨(name, labelled.2), limit, name :: seen, value.1, ⟨hnames, rfl⟩, h,
            fun members => .known hfield (by simpa using hseen) ⟨_, _, hsucceeds⟩⟩

lemma readMembers_of_close {gap : List Char} (hgap : AllBlank gap)
    (h : shape.readMembers bound isFirst limit seen record (gap ++ '\x7d' :: rest) =
      .ok (filled, left)) : left = rest ∧ shape.missing? seen = none := by
  cases limit with
  | zero => cases h
  | succ limit =>
    rw [readMembers, nextName_close _ hgap] at h
    cases hmissing : shape.missing? seen with
    | some field =>
      rw [hmissing] at h
      cases h
    | none =>
      rw [hmissing] at h
      exact ⟨(Prod.mk.inj (Except.ok.inj h)).2.symm, rfl⟩

lemma admits_of_continued {labels : List (List Char × List Char)}
    (htext : Continued '\x7d' IsMember labels text) (hkeeps : shape.FieldsKeep)
    (hvalid : ∀ labelled ∈ labels, Valid labelled.2) (hbound : text.length ≤ bound)
    (h : shape.readMembers bound false limit seen record (text ++ rest) = .ok (filled, left)) :
    left = rest ∧ ∃ members, List.Forall₂ Names labels members ∧ Admits shape seen members := by
  induction htext generalizing limit seen record with
  | nil hgap =>
    rw [List.append_assoc, List.singleton_append] at h
    obtain ⟨hleft, hmissing⟩ := readMembers_of_close hgap h
    exact ⟨hleft, [], .nil, .nil hmissing⟩
  | @cons labelled labels gap gap' piece text hgap hgap' hmember htext ih =>
    obtain ⟨hpiece, hpieces⟩ := List.forall_mem_cons.mp hvalid
    -- A value is shorter than the member it belongs to, so the bound for the text serves too.
    have hlengths : labelled.2.length ≤ bound ∧ text.length ≤ bound := by
      have hlength := hmember.length_le
      simp only [List.length_append, List.length_cons] at hbound
      omega
    simp only [List.append_assoc, List.cons_append] at h
    obtain ⟨member, limit, seen', record', hnames, hread, hadmits⟩ :=
      exists_readMembers hkeeps (hmember.leadsTo_comma hgap hgap' _) hpiece
        (htext.ends (by decide) rest) hlengths.1 h
    obtain ⟨hleft, members, hothers, hadmitted⟩ := ih hpieces hlengths.2 hread
    exact ⟨hleft, member :: members, .cons hnames hothers, hadmits members hadmitted⟩

/-- A record is read only from an object whose members are admitted. -/
lemma admits_of_succeeds {labels : List (List Char × List Char)}
    (htext : Listed '\x7d' IsMember labels text) (hkeeps : shape.FieldsKeep)
    (hvalid : ∀ labelled ∈ labels, Valid labelled.2)
    (h : Succeeds shape.read ('\x7b' :: text) rest left) :
    left = rest ∧ ∃ members, List.Forall₂ Names labels members ∧ Admits shape [] members := by
  obtain ⟨bound, gap, filled, hgap, -, hbound, h⟩ := h
  rw [Shape.read, skipBlank_append hgap, List.cons_append, skipBlank_cons (by decide)] at h
  rw [List.length_cons] at hbound
  cases htext with
  | nil hgap =>
    simp only [List.append_assoc, List.singleton_append] at h
    obtain ⟨hleft, hmissing⟩ := readMembers_of_close hgap h
    exact ⟨hleft, [], .nil, .nil hmissing⟩
  | @cons labelled labels gap piece text hgap hmember htext =>
    obtain ⟨hpiece, hpieces⟩ := List.forall_mem_cons.mp hvalid
    have hlengths : labelled.2.length ≤ bound ∧ text.length ≤ bound := by
      have hlength := hmember.length_le
      simp only [List.length_append] at hbound
      omega
    simp only [List.append_assoc] at h
    obtain ⟨member, limit, seen', record', hnames, hread, hadmits⟩ :=
      exists_readMembers hkeeps (hmember.leadsTo_first hgap _) hpiece
        (htext.ends (by decide) rest) hlengths.1 h
    obtain ⟨hleft, members, hothers, hadmitted⟩ :=
      admits_of_continued htext hkeeps hpieces hlengths.2 hread
    exact ⟨hleft, member :: members, .cons hnames hothers, hadmits members hadmitted⟩

/-- Nothing is left of the members when a record has been written as an array of its fields. -/
lemma eq_of_closeArray {gap : List Char} (hgap : AllBlank gap)
    (h : closeArray (gap ++ ']' :: rest) = .ok left) : left = rest := by
  rw [closeArray, skipBlank_append hgap, skipBlank_cons (by decide)] at h
  exact (Except.ok.inj h).symm

lemma not_closeArray {c : Char} (hblank : isBlank c = false) (hc : c ≠ ']') {gap : List Char}
    (hgap : AllBlank gap) : closeArray (gap ++ c :: rest) ≠ .ok left := by
  intro h
  rw [closeArray, skipBlank_append hgap, skipBlank_cons hblank] at h
  split at h
  · cases h
  · exact hc (List.cons.inj ‹_›).1
  · split at h <;> cases h
  · cases h

/-- A field whose text is next is read, and so are those behind it. -/
lemma exists_readFields {field : Field α} {fields : List (Field α)} {piece : List Char}
    {count : Nat} (hkeeps : ∀ record, Keeps (field.read record))
    (hnext : nextElement (count == 0) text = .ok (true, piece ++ rest)) (hpiece : Valid piece)
    (hrest : Ends rest) (hbound : piece.length ≤ bound)
    (h : shape.readFields bound count (field :: fields) record text = .ok (filled, left)) :
    ∃ record', shape.readFields bound (count + 1) fields record' rest = .ok (filled, left) := by
  simp only [readFields, hnext] at h
  cases hread : field.read record bound (piece ++ rest) with
  | error failure =>
    rw [hread] at h
    cases h
  | ok found =>
    rw [hread] at h
    have hsucceeds : Succeeds (field.read record) piece rest found.2 :=
      ⟨bound, [], found.1, allBlank_nil, hrest, hbound, hread⟩
    rw [← hkeeps record _ _ _ hpiece hsucceeds]
    exact ⟨found.1, h⟩

lemma eq_of_readFields_close {fields : List (Field α)} {count : Nat} {gap : List Char}
    (hgap : AllBlank gap)
    (h : shape.readFields bound count fields record (gap ++ ']' :: rest) = .ok (filled, left)) :
    left = rest := by
  cases fields with
  | nil =>
    rw [readFields] at h
    cases hclose : closeArray (gap ++ ']' :: rest) with
    | error failure =>
      rw [hclose] at h
      cases h
    | ok behind =>
      rw [hclose] at h
      obtain ⟨-, rfl⟩ := Prod.mk.inj (Except.ok.inj h)
      exact eq_of_closeArray hgap hclose
  | cons field fields =>
    simp only [readFields, nextElement_close _ hgap] at h
    split at h
    · cases h
    · exact (Prod.mk.inj (Except.ok.inj h)).2.symm

lemma eq_of_readFields_continued {fields : List (Field α)} {pieces : List (List Char)}
    {count : Nat} (hkeeps : ∀ field ∈ fields, ∀ record, Keeps (field.read record))
    (htext : Continued ']' (· = ·) pieces text) (hvalid : ∀ piece ∈ pieces, Valid piece)
    (hbound : text.length ≤ bound)
    (h : shape.readFields bound (count + 1) fields record (text ++ rest) = .ok (filled, left)) :
    left = rest := by
  induction htext generalizing fields count record with
  | nil hgap =>
    rw [List.append_assoc, List.singleton_append] at h
    exact eq_of_readFields_close hgap h
  | @cons piece pieces gap gap' _ text hgap hgap' heq htext ih =>
    subst heq
    obtain ⟨hpiece, hpieces⟩ := List.forall_mem_cons.mp hvalid
    have hlengths : piece.length ≤ bound ∧ text.length ≤ bound := by
      simp only [List.length_append, List.length_cons] at hbound
      omega
    simp only [List.append_assoc, List.cons_append] at h
    cases fields with
    | nil =>
      -- No field is left but a piece is, and a bracket cannot be found where a comma stands.
      rw [readFields] at h
      cases hclose : closeArray (gap ++ ',' :: (gap' ++ (piece ++ (text ++ rest)))) with
      | error failure =>
        rw [hclose] at h
        cases h
      | ok behind => exact absurd hclose (not_closeArray (by decide) (by decide) hgap)
    | cons field fields =>
      obtain ⟨hfield, hfields⟩ := List.forall_mem_cons.mp hkeeps
      have hnext : nextElement (count + 1 == 0)
          (gap ++ ',' :: (gap' ++ (piece ++ (text ++ rest)))) = .ok (true, piece ++ (text ++ rest)) :=
        StartsItem.nextElement_comma hpiece.exists_cons hgap hgap' _
      obtain ⟨record', h⟩ := exists_readFields hfield hnext hpiece
        (htext.ends (by decide) rest) hlengths.1 h
      exact ih hfields hpieces hlengths.2 h

/-- A record that is written as an array of its fields is read up to the closing bracket. -/
lemma eq_of_readFields {fields : List (Field α)} {pieces : List (List Char)}
    (hkeeps : ∀ field ∈ fields, ∀ record, Keeps (field.read record))
    (htext : Listed ']' (· = ·) pieces text) (hvalid : ∀ piece ∈ pieces, Valid piece)
    (hbound : text.length ≤ bound)
    (h : shape.readFields bound 0 fields record (text ++ rest) = .ok (filled, left)) :
    left = rest := by
  cases htext with
  | nil hgap =>
    rw [List.append_assoc, List.singleton_append] at h
    exact eq_of_readFields_close hgap h
  | @cons piece pieces gap _ text hgap heq htext =>
    subst heq
    obtain ⟨hpiece, hpieces⟩ := List.forall_mem_cons.mp hvalid
    have hlengths : piece.length ≤ bound ∧ text.length ≤ bound := by
      simp only [List.length_append] at hbound
      omega
    simp only [List.append_assoc] at h
    cases fields with
    | nil =>
      obtain ⟨c, chars, rfl, hblank, hc⟩ := hpiece.exists_cons
      -- No field is left but a piece is, and a bracket cannot be found where a piece starts.
      rw [readFields] at h
      cases hclose : closeArray (gap ++ (c :: chars ++ (text ++ rest))) with
      | error failure =>
        rw [hclose] at h
        cases h
      | ok behind => exact absurd hclose (not_closeArray hblank hc hgap)
    | cons field fields =>
      obtain ⟨hfield, hfields⟩ := List.forall_mem_cons.mp hkeeps
      have hnext : nextElement (0 == 0) (gap ++ (piece ++ (text ++ rest))) =
          .ok (true, piece ++ (text ++ rest)) :=
        StartsItem.nextElement_first hpiece.exists_cons hgap _
      obtain ⟨record', h⟩ := exists_readFields hfield hnext hpiece
        (htext.ends (by decide) rest) hlengths.1 h
      exact eq_of_readFields_continued hfields htext hpieces hlengths.2 h

end

lemma keeps_record (hkeeps : shape.FieldsKeep) : Keeps shape.read := by
  intro text rest left hvalid h
  obtain ⟨c, chars, rfl, hblank, -⟩ := hvalid.exists_cons
  by_cases hc : c = '\x7b'
  · subst hc
    obtain ⟨labels, htext, hvalues⟩ := hvalid.exists_members
    exact (admits_of_succeeds htext hkeeps hvalues h).1
  · obtain ⟨bound, gap, a, hgap, -, hbound, h⟩ := h
    rw [Shape.read, skipBlank_append hgap, List.cons_append, skipBlank_cons hblank] at h
    split at h
    · obtain ⟨rfl, rfl⟩ := List.cons.inj ‹_›
      obtain ⟨pieces, htext, hpieces⟩ := hvalid.exists_pieces
      rw [List.length_cons] at hbound
      exact eq_of_readFields hkeeps htext hpieces (by omega) h
    · exact absurd (List.cons.inj ‹_›).1 hc
    · cases h

/-- The members behind the labels that spell them are the ones that the labels name. -/
lemma eq_of_names {labels : List (List Char × List Char)}
    {members members' : List (String × List Char)} (hlabels : List.Forall₂ Labels members labels)
    (hnames : List.Forall₂ Names labels members') : members = members' := by
  induction hlabels generalizing members' with
  | nil =>
    cases hnames
    rfl
  | cons hlabel _ ih =>
    cases hnames with
    | cons hname hnames =>
      have hfirst := Prod.ext (hname.1 _ hlabel.1) (hlabel.2.trans hname.2)
      rw [hfirst, ih hnames]

/-- An object is accepted as a record only when its members are admitted. -/
lemma admits_of_isObject {members : List (String × List Char)} {text : List Char}
    (htext : IsObject members text) (hkeeps : shape.FieldsKeep)
    (hvalid : ∀ member ∈ members, Valid member.2) (h : Accepts shape.read text) :
    Admits shape [] members := by
  obtain ⟨hlisted⟩ := htext
  obtain ⟨rest, left, hsucceeds⟩ := h
  obtain ⟨labels, hlabels, hlisted⟩ := hlisted.exists_items fun _ _ => Member.exists_isMember
  have hvalues : ∀ labelled ∈ labels, Valid labelled.2 := by
    intro labelled hmem
    obtain ⟨member, hmember, -, heq⟩ := exists_of_forall₂ hlabels hmem
    exact heq ▸ hvalid member hmember
  obtain ⟨-, members', hnames, hadmits⟩ := admits_of_succeeds hlisted hkeeps hvalues hsucceeds
  exact eq_of_names hlabels hnames ▸ hadmits

end Shape

end PlanChart.Json
