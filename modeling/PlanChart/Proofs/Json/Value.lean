import Mathlib
import PlanChart.Proofs.Json.Spacing

/-!
# Printed values are read back

The program prints any JSON value, but reads only values of the forms that it expects. To say what
another program finds in its output, a reader of any value is put together from the same parts. It
gives back what has been printed, provided that no number has a fraction.
-/

namespace PlanChart.Json

/-! ### Reading any value -/

/-- Read the digits of an integer. They must be the ones that the integer is written with. -/
def readDigits (text : List Char) : Reading Nat :=
  let digits := text.takeWhile Char.isDigit
  let value := Nat.ofDigitChars 10 digits 0
  if digits = Nat.toDigits 10 value then .ok (value, text.dropWhile Char.isDigit)
  else .error (.here .invalidNumber text)

/-- Read an integer. -/
def readInteger : List Char → Reading Int
  | '-' :: rest => (readDigits rest).map fun (value, rest) => (-(value : Int), rest)
  | text => (readDigits text).map fun (value, rest) => ((value : Int), rest)

/-- Read the members of an object after the opening brace, fewer of them than the limit says. The
members so far are given, the last one first. -/
def readMembers (read : List Char → Reading Json) :
    Nat → List (String × Json) → List Char → Reading (List (String × Json))
  | 0, _, text => .error (.before .endInObject text)
  | limit + 1, members, text =>
    match nextName members.isEmpty text with
    | .error failure => .error failure
    | .ok (none, rest) => .ok (members.reverse, rest)
    | .ok (some name, rest) =>
      match skipColon rest with
      | .error failure => .error failure
      | .ok rest =>
        match read rest with
        | .error failure => .error failure
        | .ok (value, rest) => readMembers read limit ((name, value) :: members) rest

/-- Read a value whose numbers are integers. -/
def readValue : Reader Json
  | 0, text => .error (.before .endInValue text)
  | bound + 1, text =>
    match skipBlank text with
    | 'n' :: rest => (scanWord "ull".toList rest).map ((.null, ·))
    | 't' :: rest => (scanWord "rue".toList rest).map ((.bool true, ·))
    | 'f' :: rest => (scanWord "alse".toList rest).map ((.bool false, ·))
    | '"' :: rest => (scanString .plain [] rest).map fun (text, rest) => (.string text, rest)
    | '[' :: rest =>
      (readElements (readValue bound) (bound + 1) [] rest).map fun (elements, rest) =>
        (.array elements, rest)
    | '\x7b' :: rest =>
      (readMembers (readValue bound) (bound + 1) [] rest).map fun (members, rest) =>
        (.object members, rest)
    | rest => (readInteger rest).map fun (value, rest) => (.integer value, rest)

/-- The value of a text. -/
def decode (text : String) : Except ReadError Json :=
  readWhole readValue text

/-- A value in which all numbers are integers. -/
inductive Plain : Json → Prop where
  | null : Plain .null
  | bool (value : Bool) : Plain (.bool value)
  | integer (value : Int) : Plain (.integer value)
  | string (value : String) : Plain (.string value)
  | array {elements : List Json} (h : ∀ element ∈ elements, Plain element) :
      Plain (.array elements)
  | object {members : List (String × Json)} (h : ∀ member ∈ members, Plain member.2) :
      Plain (.object members)

lemma plain_ofText? (text : Option String) : Plain (.ofText? text) := by
  cases text with
  | none => exact .null
  | some text => exact .string text

lemma plain_map {α : Type} {write : α → Json} (h : ∀ item, Plain (write item)) (items : List α) :
    Plain (.array (items.map write)) := by
  refine .array fun element helement => ?_
  obtain ⟨item, -, rfl⟩ := List.mem_map.mp helement
  exact h item

lemma plain_ofTexts (texts : List String) : Plain (.ofTexts texts) :=
  plain_map .string texts

/-! ### Integers -/

lemma isBlank_of_isDigit {c : Char} (h : c.isDigit = true) : isBlank c = false := by
  by_contra hblank
  simp only [isBlank, Bool.not_eq_false, Bool.or_eq_true, decide_eq_true_eq] at hblank
  rcases hblank with ((rfl | rfl) | rfl) | rfl <;> exact absurd h (by decide)

lemma span_toDigits (value : Nat) {rest : List Char} (h : startsWithDigit rest = false) :
    (Nat.toDigits 10 value ++ rest).takeWhile Char.isDigit = Nat.toDigits 10 value ∧
      (Nat.toDigits 10 value ++ rest).dropWhile Char.isDigit = rest := by
  have hdigits : ∀ c ∈ Nat.toDigits 10 value, c.isDigit = true :=
    fun c hc => Nat.isDigit_of_mem_toDigits (by decide) (by decide) hc
  rw [List.takeWhile_append_of_pos hdigits, List.dropWhile_append_of_pos hdigits]
  cases rest with
  | nil => simp
  | cons c rest => simp [show c.isDigit = false from h]

lemma readDigits_toDigits (value : Nat) {rest : List Char} (h : startsWithDigit rest = false) :
    readDigits (Nat.toDigits 10 value ++ rest) = .ok (value, rest) := by
  obtain ⟨htake, hdrop⟩ := span_toDigits value h
  have hvalue : Nat.ofDigitChars 10 (Nat.toDigits 10 value) 0 = value :=
    Nat.ofDigitChars_toDigits (by decide) (by decide)
  unfold readDigits
  dsimp only
  rw [htake, hdrop, hvalue]
  exact if_pos rfl

/-- The digits of a number do not start with a sign. -/
lemma exists_toDigits_eq_cons (value : Nat) :
    ∃ c digits, Nat.toDigits 10 value = c :: digits ∧ c.isDigit = true := by
  obtain ⟨c, digits, heq⟩ := List.exists_cons_of_ne_nil (Nat.toDigits_ne_nil (n := value) (b := 10))
  exact ⟨c, digits, heq,
    Nat.isDigit_of_mem_toDigits (by decide) (by decide) (heq ▸ List.mem_cons_self)⟩

lemma toList_toString_negSucc (value : Nat) :
    (toString (Int.negSucc value)).toList = '-' :: Nat.toDigits 10 (value + 1) := by
  change ("-" ++ Nat.repr (value + 1)).toList = _
  rw [String.toList_append, Nat.toList_repr]
  rfl

lemma isDigit_or_eq_of_mem_toString {value : Int} {c : Char} (h : c ∈ (toString value).toList) :
    c.isDigit = true ∨ c = '-' := by
  cases value with
  | ofNat value =>
    have hmem : c ∈ Nat.toDigits 10 value := Nat.toList_repr ▸ h
    exact Or.inl (Nat.isDigit_of_mem_toDigits (by decide) (by decide) hmem)
  | negSucc value =>
    rw [toList_toString_negSucc] at h
    rcases List.mem_cons.mp h with rfl | hmem
    · exact Or.inr rfl
    · exact Or.inl (Nat.isDigit_of_mem_toDigits (by decide) (by decide) hmem)

/-- A printed integer starts with a digit or with a sign. -/
lemma exists_toList_toString (value : Int) :
    ∃ c chars, (toString value).toList = c :: chars ∧ (c.isDigit = true ∨ c = '-') := by
  have hne : (toString value).toList ≠ [] := by
    cases value with
    | ofNat value => exact Nat.toList_repr ▸ Nat.toDigits_ne_nil
    | negSucc value => exact toList_toString_negSucc value ▸ List.cons_ne_nil _ _
  obtain ⟨c, chars, heq⟩ := List.exists_cons_of_ne_nil hne
  exact ⟨c, chars, heq, isDigit_or_eq_of_mem_toString (heq ▸ List.mem_cons_self)⟩

lemma readInteger_toString (value : Int) {rest : List Char} (h : startsWithDigit rest = false) :
    readInteger ((toString value).toList ++ rest) = .ok (value, rest) := by
  cases value with
  | ofNat value =>
    have hread := readDigits_toDigits value h
    obtain ⟨c, digits, heq, hdigit⟩ := exists_toDigits_eq_cons value
    have hsign : c ≠ '-' := by
      rintro rfl
      cases hdigit
    have hprint : (toString (Int.ofNat value)).toList = c :: digits := Nat.toList_repr.trans heq
    rw [hprint, List.cons_append, readInteger]
    · rw [← List.cons_append, ← heq, hread]
      rfl
    · simpa using hsign
  | negSucc value =>
    rw [toList_toString_negSucc, List.cons_append, readInteger,
      readDigits_toDigits (value + 1) h]
    rfl

/-! ### Elements and members -/

/-- A value is read back wherever it is printed, if no digit follows. -/
def ReadsBack (value : Json) : Prop :=
  ∀ depth bound rest, (printAt depth value).toList.length ≤ bound →
    startsWithDigit rest = false →
    readValue bound ((printAt depth value).toList ++ rest) = .ok (value, rest)

/-- Nothing that is printed starts with blank space or with a closing bracket. -/
lemma Plain.exists_toList_printAt {value : Json} (h : value.Plain) (depth : Nat) :
    ∃ c chars, (printAt depth value).toList = c :: chars ∧ isBlank c = false ∧ c ≠ ']' := by
  cases h with
  | null => exact ⟨'n', "ull".toList, by simp [printAt], by decide, by decide⟩
  | bool value =>
    cases value with
    | false => exact ⟨'f', "alse".toList, by simp [printAt], by decide, by decide⟩
    | true => exact ⟨'t', "rue".toList, by simp [printAt], by decide, by decide⟩
  | integer value =>
    obtain ⟨c, chars, heq, hc⟩ := exists_toList_toString value
    refine ⟨c, chars, by rw [printAt, heq], ?_⟩
    rcases hc with hdigit | rfl
    · exact ⟨isBlank_of_isDigit hdigit, by rintro rfl; exact absurd hdigit (by decide)⟩
    · exact ⟨by decide, by decide⟩
  | string value =>
    obtain ⟨chars, heq, -⟩ := exists_toList_quote value
    exact ⟨'"', chars, by rw [printAt, heq], by decide, by decide⟩
  | @array elements =>
    refine ⟨'[', (printAt depth (.array elements)).toList.tail, ?_, by decide, by decide⟩
    cases elements <;> simp [printAt]
  | @object members =>
    refine ⟨'\x7b', (printAt depth (.object members)).toList.tail, ?_, by decide, by decide⟩
    cases members <;> simp [printAt]

lemma startsWithDigit_printElements (depth outer : Nat) (elements : List Json)
    (rest : List Char) :
    startsWithDigit ((printElements depth elements).toList ++ ((newline outer).toList ++ rest)) =
      false := by
  cases elements <;> simp [printElements, newline, startsWithDigit]

/-- The elements of an array are read back one after another. -/
lemma readElements_printElements {elements : List Json}
    (hplain : ∀ element ∈ elements, Plain element)
    (hback : ∀ element ∈ elements, ReadsBack element) (depth outer : Nat) {bound limit : Nat}
    (hbound : (printElements depth elements).toList.length ≤ bound)
    (hlimit : elements.length < limit) {read : List Json} (hread : read ≠ []) (rest : List Char) :
    readElements (readValue bound) limit read
        ((printElements depth elements).toList ++ ((newline outer).toList ++ ']' :: rest)) =
      .ok (read.reverse ++ elements, rest) := by
  induction elements generalizing read limit with
  | nil =>
    obtain ⟨limit, rfl⟩ : ∃ n, limit = n + 1 := ⟨limit - 1, by omega⟩
    rw [printElements, readElements]
    simp [nextElement_close _ (allBlank_newline outer)]
  | cons element elements ih =>
    obtain ⟨limit, rfl⟩ : ∃ n, limit = n + 1 := ⟨limit - 1, by omega⟩
    obtain ⟨helement, helements⟩ := List.forall_mem_cons.mp hplain
    obtain ⟨hfirst, hothers⟩ := List.forall_mem_cons.mp hback
    -- The comma is seen only by peeking at the element, so its first character is needed by itself.
    obtain ⟨c, chars, heq, hblank, hclose⟩ := helement.exists_toList_printAt depth
    have hempty : read.isEmpty = false := by simpa using hread
    have hprint : (printElements depth (element :: elements)).toList =
        ',' :: ((newline depth).toList ++ (c :: chars ++ (printElements depth elements).toList)) := by
      rw [← heq]
      simp [printElements]
    rw [hprint] at hbound ⊢
    have hlength : (c :: chars).length ≤ bound ∧
        (printElements depth elements).toList.length ≤ bound := by
      simp only [List.length_cons, List.length_append] at hbound ⊢
      omega
    -- What follows an element is a comma or a line break, so no digit can be taken for part of it.
    have hvalue := hfirst depth bound _ (heq ▸ hlength.1)
      (startsWithDigit_printElements depth outer elements (']' :: rest))
    rw [heq] at hvalue
    have hnext := ih helements hothers hlength.2 (by simpa using hlimit)
      (List.cons_ne_nil element read)
    have hcomma (text : List Char) :
        nextElement false (',' :: ((newline depth).toList ++ c :: text)) = .ok (true, c :: text) :=
      nextElement_comma allBlank_nil (allBlank_newline depth) hblank hclose text
    rw [readElements, hempty]
    simp only [List.cons_append, List.append_assoc, hcomma] at hvalue ⊢
    rw [hvalue]
    simp [hnext]

lemma readValue_space {bound : Nat} (h : 0 < bound) (text : List Char) :
    readValue bound (' ' :: text) = readValue bound text := by
  obtain ⟨bound, rfl⟩ : ∃ n, bound = n + 1 := ⟨bound - 1, by omega⟩
  rw [readValue, readValue]
  rfl

lemma startsWithDigit_printMembers (depth outer : Nat) (members : List (String × Json))
    (rest : List Char) :
    startsWithDigit ((printMembers depth members).toList ++ ((newline outer).toList ++ rest)) =
      false := by
  cases members <;> simp [printMembers, newline, startsWithDigit]

/-- The members of an object are read back one after another. -/
lemma readMembers_printMembers {members : List (String × Json)}
    (hplain : ∀ member ∈ members, Plain member.2)
    (hback : ∀ member ∈ members, ReadsBack member.2) (depth outer : Nat) {bound limit : Nat}
    (hbound : (printMembers depth members).toList.length ≤ bound)
    (hlimit : members.length < limit) {read : List (String × Json)} (hread : read ≠ [])
    (rest : List Char) :
    readMembers (readValue bound) limit read
        ((printMembers depth members).toList ++ ((newline outer).toList ++ '\x7d' :: rest)) =
      .ok (read.reverse ++ members, rest) := by
  induction members generalizing read limit with
  | nil =>
    obtain ⟨limit, rfl⟩ : ∃ n, limit = n + 1 := ⟨limit - 1, by omega⟩
    rw [printMembers, readMembers]
    simp [nextName_close _ (allBlank_newline outer)]
  | cons member members ih =>
    obtain ⟨name, value⟩ := member
    obtain ⟨limit, rfl⟩ : ∃ n, limit = n + 1 := ⟨limit - 1, by omega⟩
    obtain ⟨-, hmembers⟩ := List.forall_mem_cons.mp hplain
    obtain ⟨hfirst, hothers⟩ := List.forall_mem_cons.mp hback
    -- Members have been read before this one, so a comma has to stand in front of it.
    have hempty : read.isEmpty = false := by simpa using hread
    have hprint : (printMembers depth ((name, value) :: members)).toList =
        ',' :: ((newline depth).toList ++ ((quote name).toList ++ (':' :: ' ' ::
          ((printAt depth value).toList ++ (printMembers depth members).toList)))) := by
      simp [printMembers]
    rw [hprint] at hbound ⊢
    -- The reader gives every value the same bound, so a bound for the text has to bound its parts.
    have hlength : (printAt depth value).toList.length ≤ bound ∧
        (printMembers depth members).toList.length ≤ bound ∧ 0 < bound := by
      simp only [List.length_cons, List.length_append] at hbound ⊢
      omega
    -- What follows a value is a comma or a line break, so no digit can be taken for part of it.
    have hvalue := hfirst depth bound _ hlength.1
      (startsWithDigit_printMembers depth outer members ('\x7d' :: rest))
    have hnext := ih hmembers hothers hlength.2.1 (by simpa using hlimit)
      (List.cons_ne_nil (name, value) read)
    have hcomma (text : List Char) : nextName false
        (',' :: ((newline depth).toList ++ ((quote name).toList ++ text))) = .ok (some name, text) :=
      nextName_comma allBlank_nil (allBlank_newline depth) (spellsText_quote name) text
    have hcolon (text : List Char) : skipColon (':' :: text) = .ok text :=
      skipColon_colon allBlank_nil text
    -- One round of the loop: comma, name, colon and the blank behind it, value, the other members.
    rw [readMembers, hempty]
    simp only [List.cons_append, List.append_assoc, hcomma, hcolon,
      readValue_space hlength.2.2] at hvalue ⊢
    rw [hvalue]
    simp [hnext]

/-! ### Values -/

lemma length_le_printElements (depth : Nat) (elements : List Json) :
    elements.length ≤ (printElements depth elements).toList.length := by
  induction elements with
  | nil => exact Nat.zero_le _
  | cons element elements ih =>
    simp only [printElements, String.toList_append, List.length_append, List.length_cons]
    have hcomma : ",".toList.length = 1 := by decide
    omega

lemma length_le_printMembers (depth : Nat) (members : List (String × Json)) :
    members.length ≤ (printMembers depth members).toList.length := by
  induction members with
  | nil => exact Nat.zero_le _
  | cons member members ih =>
    simp only [printMembers, String.toList_append, List.length_append, List.length_cons]
    have hcomma : ",".toList.length = 1 := by decide
    omega

lemma exists_bound {c : Char} {chars : List Char} {bound : Nat}
    (h : (c :: chars).length ≤ bound) : ∃ n, bound = n + 1 := by
  rw [List.length_cons] at h
  exact ⟨bound - 1, by omega⟩

lemma readsBack_word (value : Json) (h : value ∈ [.null, .bool true, .bool false]) :
    ReadsBack value := by
  intro depth bound rest hbound _
  simp only [List.mem_cons, List.not_mem_nil, or_false] at h
  rcases h with rfl | rfl | rfl <;>
    · rw [printAt] at hbound ⊢
      obtain ⟨bound, rfl⟩ := exists_bound hbound
      rfl

lemma readsBack_integer (value : Int) : ReadsBack (.integer value) := by
  intro depth bound rest hbound hrest
  obtain ⟨c, chars, heq, hc⟩ := exists_toList_toString value
  have hread := readInteger_toString value hrest
  rw [printAt] at hbound ⊢
  rw [heq] at hbound hread ⊢
  obtain ⟨bound, rfl⟩ := exists_bound hbound
  have hblank : isBlank c = false := by
    rcases hc with hdigit | rfl
    · exact isBlank_of_isDigit hdigit
    · decide
  have hletter : c ≠ 'n' ∧ c ≠ 't' ∧ c ≠ 'f' ∧ c ≠ '"' ∧ c ≠ '[' ∧ c ≠ '\x7b' := by
    refine ⟨?_, ?_, ?_, ?_, ?_, ?_⟩ <;> rintro rfl <;> revert hc <;> decide
  rw [List.cons_append] at hread ⊢
  rw [readValue, skipBlank_cons hblank]
  simp [hletter, hread, Except.map]

lemma readsBack_string (value : String) : ReadsBack (.string value) := by
  intro depth bound rest hbound _
  obtain ⟨chars, heq, hscan⟩ := exists_toList_quote value
  rw [printAt] at hbound ⊢
  rw [heq] at hbound ⊢
  obtain ⟨bound, rfl⟩ := exists_bound hbound
  rw [readValue, List.cons_append, skipBlank_cons (by decide)]
  simp [hscan, Except.map]

lemma readsBack_array {elements : List Json} (hplain : ∀ element ∈ elements, Plain element)
    (hback : ∀ element ∈ elements, ReadsBack element) : ReadsBack (.array elements) := by
  intro depth bound rest hbound _
  cases elements with
  | nil =>
    rw [printAt] at hbound ⊢
    obtain ⟨bound, rfl⟩ := exists_bound hbound
    rfl
  | cons element elements =>
    obtain ⟨helement, helements⟩ := List.forall_mem_cons.mp hplain
    obtain ⟨hfirst, hothers⟩ := List.forall_mem_cons.mp hback
    obtain ⟨c, chars, heq, hblank, hclose⟩ := helement.exists_toList_printAt (depth + 1)
    have hprint : (printAt depth (.array (element :: elements))).toList =
        '[' :: ((newline (depth + 1)).toList ++ (c :: chars ++
          ((printElements (depth + 1) elements).toList ++ ((newline depth).toList ++ [']'])))) := by
      rw [← heq]
      simp [printAt]
    rw [hprint] at hbound ⊢
    obtain ⟨bound, rfl⟩ := exists_bound hbound
    -- The bound also limits the rounds of the loop, and each element has a character at least.
    have hcount := length_le_printElements (depth + 1) elements
    have hlength : (c :: chars).length ≤ bound ∧
        (printElements (depth + 1) elements).toList.length ≤ bound ∧
        elements.length < bound := by
      simp only [List.length_cons, List.length_append] at hbound ⊢
      omega
    have hvalue := hfirst (depth + 1) bound _ (heq ▸ hlength.1)
      (startsWithDigit_printElements (depth + 1) depth elements (']' :: rest))
    rw [heq] at hvalue
    have hnext := readElements_printElements helements hothers (depth + 1) depth hlength.2.1
      hlength.2.2 (List.cons_ne_nil element []) rest
    rw [List.cons_append, readValue, skipBlank_cons (by decide)]
    simp only [List.cons_append, List.append_assoc, List.nil_append] at hvalue ⊢
    rw [readElements, List.isEmpty_nil,
      nextElement_first (allBlank_newline (depth + 1)) hblank hclose]
    simp [hvalue, hnext, Except.map]

lemma readsBack_object {members : List (String × Json)}
    (hplain : ∀ member ∈ members, Plain member.2)
    (hback : ∀ member ∈ members, ReadsBack member.2) : ReadsBack (.object members) := by
  intro depth bound rest hbound _
  cases members with
  | nil =>
    rw [printAt] at hbound ⊢
    obtain ⟨bound, rfl⟩ := exists_bound hbound
    rfl
  | cons member members =>
    obtain ⟨name, value⟩ := member
    obtain ⟨-, hmembers⟩ := List.forall_mem_cons.mp hplain
    obtain ⟨hfirst, hothers⟩ := List.forall_mem_cons.mp hback
    have hprint : (printAt depth (.object ((name, value) :: members))).toList =
        '\x7b' :: ((newline (depth + 1)).toList ++ ((quote name).toList ++ (':' :: ' ' ::
          ((printAt (depth + 1) value).toList ++
            ((printMembers (depth + 1) members).toList ++
              ((newline depth).toList ++ ['\x7d'])))))) := by
      simp [printAt]
    rw [hprint] at hbound ⊢
    obtain ⟨bound, rfl⟩ := exists_bound hbound
    -- The bound also limits the rounds of the loop, and each member has a character at least.
    have hcount := length_le_printMembers (depth + 1) members
    have hlength : (printAt (depth + 1) value).toList.length ≤ bound ∧
        (printMembers (depth + 1) members).toList.length ≤ bound ∧
        members.length < bound ∧ 0 < bound := by
      simp only [List.length_cons, List.length_append] at hbound ⊢
      omega
    have hvalue := hfirst (depth + 1) bound _ hlength.1
      (startsWithDigit_printMembers (depth + 1) depth members ('\x7d' :: rest))
    have hnext := readMembers_printMembers hmembers hothers (depth + 1) depth hlength.2.1
      hlength.2.2.1 (List.cons_ne_nil (name, value) []) rest
    have hcolon (text : List Char) : skipColon (':' :: text) = .ok text :=
      skipColon_colon allBlank_nil text
    rw [List.cons_append, readValue, skipBlank_cons (by decide)]
    simp only [List.cons_append, List.append_assoc, List.nil_append] at hvalue ⊢
    rw [readMembers, List.isEmpty_nil,
      nextName_first (allBlank_newline (depth + 1)) (spellsText_quote name)]
    simp [hcolon, readValue_space hlength.2.2.2, hvalue, hnext, Except.map]

/-- Every plain value is read back. -/
lemma Plain.readsBack {value : Json} (h : value.Plain) : ReadsBack value := by
  induction h with
  | null => exact readsBack_word .null (by simp)
  | bool value => exact readsBack_word (.bool value) (by cases value <;> simp)
  | integer value => exact readsBack_integer value
  | string value => exact readsBack_string value
  | array h ih => exact readsBack_array h ih
  | object h ih => exact readsBack_object h ih

lemma startsWithDigit_of_allBlank {gap : List Char} (hgap : AllBlank gap) :
    startsWithDigit gap = false := by
  cases gap with
  | nil => rfl
  | cons blank gap =>
    have hblank := hgap blank List.mem_cons_self
    cases hdigit : blank.isDigit with
    | false => exact hdigit
    | true =>
      rw [isBlank_of_isDigit hdigit] at hblank
      cases hblank

/-- A plain value is the value of the text that it is printed as, with blank space behind it. -/
lemma Plain.decode_print_append {value : Json} (h : value.Plain) {gap : List Char}
    (hgap : AllBlank gap) : decode (value.print ++ String.ofList gap) = .ok value := by
  have hchars : (value.print ++ String.ofList gap).toList = (printAt 0 value).toList ++ gap := by
    rw [print, String.toList_append, String.toList_ofList]
  have hread := h.readsBack 0 ((printAt 0 value).toList ++ gap).length gap (by simp)
    (startsWithDigit_of_allBlank hgap)
  unfold decode readWhole
  dsimp only
  rw [hchars, hread]
  simp [skipBlank_of_allBlank hgap]

/-- A plain value that is printed on lines of its own is the value of the text. -/
theorem Plain.decode_print {value : Json} (h : value.Plain) :
    decode (value.print ++ "\n") = .ok value :=
  h.decode_print_append (List.forall_mem_singleton.mpr rfl)

end PlanChart.Json
