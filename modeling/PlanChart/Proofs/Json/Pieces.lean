import PlanChart.Json.Record
import PlanChart.Proofs.Json.Skipping

/-!
# Arrays and objects are read piece by piece

What a reader makes of an array or an object depends on what is made of its pieces alone. The pieces
of a list are read by one reader, those of a map as texts. Of the members of a record the known ones
are read by their fields, in whatever order they come, and all others are passed over.
-/

namespace PlanChart.Json

section

variable {α : Type} {read : Reader α} {a : α}

/-- A reader reads something at the start of a text, whatever blank space stands before it and
whatever follows. -/
def Reads (read : Reader α) (text : List Char) (a : α) : Prop :=
  ∀ bound gap rest, AllBlank gap → text.length ≤ bound →
    read bound (gap ++ (text ++ rest)) = .ok (a, rest)

/-- What is read from a text is read when the text stands alone. -/
lemma Reads.readWhole {piece gap gap' : List Char} (h : Reads read piece a) (hgap : AllBlank gap)
    (hgap' : AllBlank gap') {text : String} (htext : text.toList = gap ++ (piece ++ gap')) :
    readWhole read text = .ok a := by
  have hlength : piece.length ≤ (gap ++ (piece ++ gap')).length := by
    simp only [List.length_append]
    omega
  have hread := h _ gap gap' hgap hlength
  unfold Json.readWhole
  dsimp only
  rw [htext, hread]
  simp [skipBlank_of_allBlank hgap']

lemma SpellsText.reads {text : String} {spelling : List Char} (h : SpellsText text spelling) :
    Reads readText spelling text := by
  intro bound gap rest hgap _
  obtain ⟨chars, rfl, hscan⟩ := h.exists_scanString
  rw [readText, skipBlank_append hgap, List.cons_append, skipBlank_cons (by decide)]
  exact hscan rest

lemma reads_bool (value : Bool) : Reads readBool (toString value).toList value := by
  intro bound gap rest hgap _
  rw [readBool, skipBlank_append hgap]
  cases value with
  | false => rfl
  | true => rfl

lemma reads_none (read : Reader α) : Reads (readOptional read) "null".toList none := by
  intro bound gap rest hgap _
  rw [readOptional, skipBlank_append hgap]
  rfl

/-- What is read is read by an optional reader too, unless it starts like null. -/
lemma Reads.some {c : Char} {chars : List Char} (h : Reads read (c :: chars) a)
    (hblank : isBlank c = false) (hc : c ≠ 'n') : Reads (readOptional read) (c :: chars) (some a) := by
  intro bound gap rest hgap hbound
  have hread := h bound gap rest hgap hbound
  rw [readOptional, skipBlank_append hgap, hread, List.cons_append, skipBlank_cons hblank]
  simp [hc, Except.map]

/-! ### Lists -/

lemma StartsItem.nextElement_first {piece gap : List Char} (h : StartsItem .array piece)
    (hgap : AllBlank gap) (rest : List Char) :
    nextElement true (gap ++ (piece ++ rest)) = .ok (true, piece ++ rest) := by
  obtain ⟨c, chars, rfl, hblank, hclose⟩ := h
  exact Json.nextElement_first hgap hblank hclose (chars ++ rest)

lemma StartsItem.nextElement_comma {piece gap gap' : List Char} (h : StartsItem .array piece)
    (hgap : AllBlank gap) (hgap' : AllBlank gap') (rest : List Char) :
    nextElement false (gap ++ ',' :: (gap' ++ (piece ++ rest))) = .ok (true, piece ++ rest) := by
  obtain ⟨c, chars, rfl, hblank, hclose⟩ := h
  exact Json.nextElement_comma hgap hgap' hblank hclose (chars ++ rest)

/-- An element is read and put in front of those before it. -/
lemma readElements_cons {piece : List Char} (h : Reads read piece a) (done : List α)
    {text rest : List Char}
    (hnext : nextElement done.isEmpty text = .ok (true, piece ++ rest)) {bound : Nat}
    (hbound : piece.length ≤ bound) (limit : Nat) :
    readElements (read bound) (limit + 1) done text =
      readElements (read bound) limit (a :: done) rest := by
  have hread : read bound (piece ++ rest) = .ok (a, rest) := h bound [] rest allBlank_nil hbound
  rw [readElements, hnext]
  simp only [hread]

/-- The elements behind the first are read one after another. -/
lemma readElements_continued {pieces : List (List Char)} {elements : List α}
    (h : List.Forall₂ (Reads read) pieces elements)
    (hstarts : ∀ piece ∈ pieces, StartsItem .array piece) {text : List Char}
    (htext : Continued ']' (· = ·) pieces text) {bound limit : Nat} (hbound : text.length ≤ bound)
    (hlimit : elements.length ≤ limit) {done : List α} (hdone : done ≠ []) (rest : List Char) :
    readElements (read bound) (limit + 1) done (text ++ rest) =
      .ok (done.reverse ++ elements, rest) := by
  -- The induction is on the values; the pieces of the text are matched with them one by one.
  induction h generalizing text limit done with
  | nil =>
    cases htext with
    | nil hgap =>
      rw [readElements, List.append_assoc, List.singleton_append, nextElement_close _ hgap,
        List.append_nil]
  | @cons piece element pieces elements hpiece _ ih =>
    cases htext with
    | @cons _ _ gap gap' _ text hgap hgap' heq htext =>
      subst heq
      obtain ⟨hstart, hstarts⟩ := List.forall_mem_cons.mp hstarts
      have hlengths : piece.length ≤ bound ∧ text.length ≤ bound := by
        simp only [List.length_append, List.length_cons] at hbound
        omega
      rw [List.length_cons] at hlimit
      obtain ⟨limit, rfl⟩ : ∃ n, limit = n + 1 := ⟨limit - 1, by omega⟩
      have hnext := hstart.nextElement_comma hgap hgap' (text ++ rest)
      have hempty : done.isEmpty = false := by simpa using hdone
      have hothers := ih hstarts htext hlengths.2 (by omega : _ ≤ limit)
        (List.cons_ne_nil element done)
      simp only [List.append_assoc, List.cons_append]
      rw [readElements_cons hpiece done (hempty ▸ hnext) hlengths.1, hothers]
      simp

/-- A list is read from the pieces of an array. -/
lemma IsArray.reads {pieces : List (List Char)} {elements : List α} {text : List Char}
    (h : IsArray pieces text) (hpieces : List.Forall₂ (Reads read) pieces elements)
    (hstarts : ∀ piece ∈ pieces, StartsItem .array piece) :
    Reads (readList read) text elements := by
  intro bound gap rest hgap hbound
  obtain ⟨htext⟩ := h
  obtain ⟨bound, rfl⟩ := exists_bound hbound
  rw [readList, skipBlank_append hgap, List.cons_append, skipBlank_cons (by decide)]
  rw [List.length_cons] at hbound
  cases hpieces with
  | nil =>
    cases htext with
    | nil hgap =>
      simp only [List.append_assoc, List.singleton_append]
      rw [readElements, nextElement_close _ hgap]
      rfl
  | @cons piece element pieces elements hpiece hpieces =>
    cases htext with
    | @cons _ _ gap _ text hgap heq htext =>
      subst heq
      obtain ⟨hstart, hstarts⟩ := List.forall_mem_cons.mp hstarts
      have hlengths : piece.length ≤ bound ∧ text.length ≤ bound := by
        simp only [List.length_append] at hbound
        omega
      -- Every piece has a character, so the rounds of the loop suffice for all the elements.
      have hlimit : elements.length ≤ bound := by
        have hcount := hpieces.length_eq
        have hlength := htext.length_le
        omega
      have hnext := hstart.nextElement_first hgap (text ++ rest)
      have hothers := readElements_continued hpieces hstarts htext (Nat.le_succ_of_le hlengths.2)
        hlimit (List.cons_ne_nil element []) rest
      simp only [List.append_assoc]
      rw [readElements_cons hpiece [] hnext (Nat.le_succ_of_le hlengths.1), hothers]
      rfl

/-! ### Members -/

/-- A member is next in an object: its name is found, and behind a colon the text of its value. -/
inductive NextMember (isFirst : Bool) (text : List Char) (name : String) (piece : List Char)
    (bound : Nat) (rest : List Char) : Prop
  | intro {behind gap : List Char} (hname : nextName isFirst text = .ok (some name, behind))
      (hcolon : skipColon behind = .ok (gap ++ (piece ++ rest))) (hgap : AllBlank gap)
      (hbound : piece.length ≤ bound)

variable {name : String} {value piece gap gap' : List Char} {bound : Nat}

lemma Member.next_first (h : Member (· = ·) (name, value) piece) (hgap : AllBlank gap)
    (hbound : piece.length ≤ bound) (rest : List Char) :
    NextMember true (gap ++ (piece ++ rest)) name value bound rest := by
  cases h with
  | @mk _ _ label before behind _ hlabel hbefore hbehind heq =>
    subst heq
    have hname := nextName_first hgap hlabel (before ++ ':' :: (behind ++ (value ++ rest)))
    have hcolon := skipColon_colon hbefore (behind ++ (value ++ rest))
    refine .intro (by simpa using hname) hcolon hbehind ?_
    simp only [List.length_append, List.length_cons] at hbound
    omega

lemma Member.next_comma (h : Member (· = ·) (name, value) piece) (hgap : AllBlank gap)
    (hgap' : AllBlank gap') (hbound : piece.length ≤ bound) (rest : List Char) :
    NextMember false (gap ++ ',' :: (gap' ++ (piece ++ rest))) name value bound rest := by
  cases h with
  | @mk _ _ label before behind _ hlabel hbefore hbehind heq =>
    subst heq
    have hname := nextName_comma hgap hgap' hlabel (before ++ ':' :: (behind ++ (value ++ rest)))
    have hcolon := skipColon_colon hbefore (behind ++ (value ++ rest))
    refine .intro (by simpa using hname) hcolon hbehind ?_
    simp only [List.length_append, List.length_cons] at hbound
    omega

end

/-! ### Maps -/

section

/-- A member is the written form of an entry of a map. -/
def SpellsEntry (member : String × List Char) (entry : String × String) : Prop :=
  member.1 = entry.1 ∧ SpellsText entry.2 member.2

variable {isFirst : Bool} {text rest piece : List Char} {name value : String} {bound : Nat}

lemma readEntries_cons (h : NextMember isFirst text name piece bound rest)
    (hvalue : SpellsText value piece) (limit : Nat) (map : Std.ExtTreeMap String String) :
    readEntries isFirst (limit + 1) map text =
      readEntries false limit (map.insert name value) rest := by
  obtain ⟨hname, hcolon, hgap, -⟩ := h
  -- No bound is needed to read a text.
  have hread : readText limit _ = .ok (value, rest) := hvalue.reads piece.length _ rest hgap le_rfl
  rw [readEntries, hname]
  simp only [hcolon, hread]

lemma readEntries_continued {members : List (String × List Char)}
    {entries : List (String × String)} (h : List.Forall₂ SpellsEntry members entries)
    (htext : Continued '\x7d' (Member (· = ·)) members text) {limit : Nat}
    (hlimit : entries.length ≤ limit) (map : Std.ExtTreeMap String String) (rest : List Char) :
    readEntries false (limit + 1) map (text ++ rest) =
      .ok (entries.foldl (fun map (name, value) => map.insert name value) map, rest) := by
  induction h generalizing text limit map with
  | nil =>
    cases htext with
    | nil hgap =>
      rw [readEntries, List.append_assoc, List.singleton_append, nextName_close _ hgap]
      rfl
  | @cons member entry members entries hentry _ ih =>
    obtain ⟨name, piece⟩ := member
    obtain ⟨rfl, hvalue⟩ := hentry
    cases htext with
    | @cons _ _ gap gap' piece text hgap hgap' hpiece htext =>
      rw [List.length_cons] at hlimit
      obtain ⟨limit, rfl⟩ : ∃ n, limit = n + 1 := ⟨limit - 1, by omega⟩
      have hnext := hpiece.next_comma hgap hgap' le_rfl (text ++ rest)
      simp only [List.append_assoc, List.cons_append]
      rw [readEntries_cons hnext hvalue, ih htext (by omega)]
      rfl

/-- A map is read from the members of an object. Of entries with the same name the last one counts.
-/
lemma IsObject.reads_map {members : List (String × List Char)} {entries : List (String × String)}
    (h : IsObject members text) (hentries : List.Forall₂ SpellsEntry members entries) :
    Reads readMap text (entries.foldl (fun map (name, value) => map.insert name value) ∅) := by
  intro bound gap rest hgap hbound
  obtain ⟨htext⟩ := h
  obtain ⟨bound, rfl⟩ := exists_bound hbound
  rw [readMap, skipBlank_append hgap, List.cons_append, skipBlank_cons (by decide)]
  rw [List.length_cons] at hbound
  cases hentries with
  | nil =>
    cases htext with
    | nil hgap =>
      simp only [List.append_assoc, List.singleton_append]
      rw [readEntries, nextName_close _ hgap]
      rfl
  | @cons member entry members entries hentry hentries =>
    obtain ⟨name, piece⟩ := member
    obtain ⟨rfl, hvalue⟩ := hentry
    cases htext with
    | @cons _ _ gap piece text hgap hpiece htext =>
      -- Every member has a character, so the rounds of the loop suffice for all the entries.
      have hlimit : entries.length ≤ bound := by
        have hcount := hentries.length_eq
        have hlength := htext.length_le
        simp only [List.length_append] at hbound
        omega
      have hnext := hpiece.next_first hgap le_rfl (text ++ rest)
      simp only [List.append_assoc]
      rw [readEntries_cons hnext hvalue, readEntries_continued hentries htext hlimit]
      rfl

end

/-! ### Records -/

namespace Shape

variable {α : Type} {shape : Shape α} {seen : List String} {record record' filled : α}
  {name : String} {piece : List Char} {members : List (String × List Char)} {field : Field α}

/-- Members are collected into a record one after another. A known one must not have been seen, and
its text is read by its field; of any other one the text must be that of a value. At the end no
field that must be written is missing. -/
inductive Collects (shape : Shape α) :
    List String → α → List (String × List Char) → α → Prop
  | nil {seen : List String} {record : α} (h : shape.missing? seen = none) :
      Collects shape seen record [] record
  | known {seen : List String} {record record' filled : α} {name : String} {piece : List Char}
      {members : List (String × List Char)} {field : Field α}
      (hfield : shape.fields.find? (·.name = name) = some field) (hnew : name ∉ seen)
      (hpiece : Reads (field.read record) piece record')
      (hmembers : Collects shape (name :: seen) record' members filled) :
      Collects shape seen record ((name, piece) :: members) filled
  | unknown {seen : List String} {record filled : α} {name : String} {piece : List Char}
      {members : List (String × List Char)}
      (hfield : shape.fields.find? (·.name = name) = none) (hpiece : Valid piece)
      (hmembers : Collects shape seen record members filled) :
      Collects shape seen record ((name, piece) :: members) filled

section

variable {isFirst : Bool} {text rest : List Char} {bound : Nat}

lemma readMembers_known (hfield : shape.fields.find? (·.name = name) = some field)
    (hnew : name ∉ seen) (hpiece : Reads (field.read record) piece record')
    (h : NextMember isFirst text name piece bound rest) (limit : Nat) :
    shape.readMembers bound isFirst (limit + 1) seen record text =
      shape.readMembers bound false limit (name :: seen) record' rest := by
  obtain ⟨hname, hcolon, hgap, hbound⟩ := h
  have hread := hpiece bound _ rest hgap hbound
  have hseen : seen.contains name = false := by simpa using hnew
  rw [readMembers, hname]
  simp only [hfield, hseen, hcolon, hread, Bool.false_eq_true, if_false]

lemma readMembers_unknown (hfield : shape.fields.find? (·.name = name) = none)
    (hpiece : Valid piece) (h : NextMember isFirst text name piece bound rest) (hrest : Ends rest)
    (limit : Nat) :
    shape.readMembers bound isFirst (limit + 1) seen record text =
      shape.readMembers bound false limit seen record rest := by
  obtain ⟨hname, hcolon, hgap, hbound⟩ := h
  have hskip := hpiece.skipValue hgap hrest hbound
  rw [readMembers, hname]
  simp only [hfield, hcolon, hskip]

lemma readMembers_close (h : shape.missing? seen = none) {gap : List Char} (hgap : AllBlank gap)
    (isFirst : Bool) (bound limit : Nat) (rest : List Char) :
    shape.readMembers bound isFirst (limit + 1) seen record (gap ++ '\x7d' :: rest) =
      .ok (record, rest) := by
  rw [readMembers, nextName_close _ hgap]
  simp only [h]

/-- The first member is collected when it is next. -/
lemma Collects.readMembers_cons (h : Collects shape seen record ((name, piece) :: members) filled)
    (hnext : NextMember isFirst text name piece bound rest) (hrest : Ends rest) (limit : Nat) :
    ∃ seen' record', Collects shape seen' record' members filled ∧
      shape.readMembers bound isFirst (limit + 1) seen record text =
        shape.readMembers bound false limit seen' record' rest := by
  cases h with
  | known hfield hnew hpiece hmembers =>
    exact ⟨_, _, hmembers, readMembers_known hfield hnew hpiece hnext limit⟩
  | unknown hfield hpiece hmembers =>
    exact ⟨_, _, hmembers, readMembers_unknown hfield hpiece hnext hrest limit⟩

lemma Collects.readMembers_continued (h : Collects shape seen record members filled)
    (htext : Continued '\x7d' (Member (· = ·)) members text) {limit : Nat}
    (hbound : text.length ≤ bound) (hlimit : members.length ≤ limit) (rest : List Char) :
    shape.readMembers bound false (limit + 1) seen record (text ++ rest) = .ok (filled, rest) := by
  induction htext generalizing seen record limit with
  | nil hgap =>
    cases h with
    | nil hmissing =>
      rw [List.append_assoc, List.singleton_append, readMembers_close hmissing hgap]
  | @cons member members gap gap' piece text hgap hgap' hpiece htext ih =>
    obtain ⟨name, value⟩ := member
    have hlengths : piece.length ≤ bound ∧ text.length ≤ bound := by
      simp only [List.length_append, List.length_cons] at hbound
      omega
    rw [List.length_cons] at hlimit
    obtain ⟨limit, rfl⟩ : ∃ n, limit = n + 1 := ⟨limit - 1, by omega⟩
    have hnext := hpiece.next_comma hgap hgap' hlengths.1 (text ++ rest)
    obtain ⟨seen', record', hmembers, hread⟩ :=
      h.readMembers_cons hnext (htext.ends (by decide) rest) (limit + 1)
    simp only [List.append_assoc, List.cons_append]
    rw [hread, ih hmembers hlengths.2 (by omega)]

end

/-- A record is read from members that can be collected into it. -/
lemma Collects.reads {text : List Char} (h : Collects shape [] shape.blank members filled)
    (htext : IsObject members text) : Reads shape.read text filled := by
  intro bound gap rest hgap hbound
  obtain ⟨htext⟩ := htext
  obtain ⟨bound, rfl⟩ := exists_bound hbound
  rw [Shape.read, skipBlank_append hgap, List.cons_append, skipBlank_cons (by decide)]
  rw [List.length_cons] at hbound
  cases htext with
  | nil hgap =>
    cases h with
    | nil hmissing =>
      simp only [List.append_assoc, List.singleton_append]
      exact readMembers_close hmissing hgap true _ _ rest
  | @cons member members gap piece text hgap hpiece htext =>
    obtain ⟨name, value⟩ := member
    have hlengths : piece.length ≤ bound ∧ text.length ≤ bound := by
      simp only [List.length_append] at hbound
      omega
    -- Every member has a character, so the rounds of the loop suffice for all of them.
    have hlimit := htext.length_le
    have hnext := hpiece.next_first hgap (Nat.le_succ_of_le hlengths.1) (text ++ rest)
    obtain ⟨seen, record, hmembers, hread⟩ :=
      h.readMembers_cons hnext (htext.ends (by decide) rest) (bound + 1)
    simp only [List.append_assoc]
    rw [hread]
    exact hmembers.readMembers_continued htext (Nat.le_succ_of_le hlengths.2) (by omega) rest

end Shape

/-- A field is read when its value is. -/
lemma Reads.field {α β : Type} {read : Reader β} {piece : List Char} {b : β}
    (h : Reads read piece b) {name : String} {required : Bool} {put : α → β → α} {record : α} :
    Reads ((Field.of name required read put).read record) piece (put record b) := by
  intro bound gap rest hgap hbound
  have hread := h bound gap rest hgap hbound
  simp only [Field.of, hread, Except.map]

end PlanChart.Json
