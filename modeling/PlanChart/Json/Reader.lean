import PlanChart.Json.Skip
import Std.Data.ExtTreeMap

/-!
# Reading values of a known form

A reader expects a value of one form: a text, a truth value, a list, a map of texts. Anything else
is a fault, which says what was found instead.

Elements and members are read one after another. After an opening bracket `nextElement` and
`nextName` tell whether there is another one and where it starts.
-/

namespace PlanChart.Json

/-- The failure of a reader that expects something else than what starts here. A scalar is read
before it is refused. -/
def refuse (expected : String) (text : List Char) : Failure :=
  let found (reading : Reading Found) : Failure :=
    match reading with
    | .error failure => failure
    | .ok (found, rest) => .before (.invalidType found expected) rest
  match text with
  | [] => .before .endInValue []
  | 'n' :: rest => found ((scanWord "ull".toList rest).map ((.null, ·)))
  | 't' :: rest => found ((scanWord "rue".toList rest).map ((.bool true, ·)))
  | 'f' :: rest => found ((scanWord "alse".toList rest).map ((.bool false, ·)))
  | '-' :: rest => found (scanNumber true rest)
  | '"' :: rest => found ((scanString .plain [] rest).map fun (text, rest) => (.text text, rest))
  | '[' :: _ => .before (.invalidType .sequence expected) text
  | '\x7b' :: _ => .before (.invalidType .map expected) text
  | c :: _ => if c.isDigit then found (scanNumber false text) else .here .expectedValue text

/-- Read a text. -/
def readText : Reader String := fun _ text =>
  match skipBlank text with
  | '"' :: rest => scanString .plain [] rest
  | rest => .error (refuse "a string" rest)

/-- Read a truth value. -/
def readBool : Reader Bool := fun _ text =>
  match skipBlank text with
  | 't' :: rest => (scanWord "rue".toList rest).map ((true, ·))
  | 'f' :: rest => (scanWord "alse".toList rest).map ((false, ·))
  | rest => .error (refuse "a boolean" rest)

/-- Read null or what the given reader reads. -/
def readOptional {α : Type} (read : Reader α) : Reader (Option α) := fun bound text =>
  match skipBlank text with
  | 'n' :: rest => (scanWord "ull".toList rest).map ((none, ·))
  | _ => (read bound text).map fun (value, rest) => (some value, rest)

/-! ### Elements and members -/

/-- Whether another element follows in an array, and what is left of the text: from the element on,
or after the closing bracket. The first element has no comma in front. -/
def nextElement (isFirst : Bool) (text : List Char) : Reading Bool :=
  match skipBlank text with
  | [] => .error (.before .endInArray [])
  | ']' :: rest => .ok (false, rest)
  | c :: rest =>
    if isFirst then .ok (true, c :: rest)
    else if c = ',' then
      match skipBlank rest with
      | [] => .error (.before .endInValue [])
      | ']' :: rest => .error (.here .trailingComma (']' :: rest))
      | rest => .ok (true, rest)
    else .error (.here .expectedArrayEnd (c :: rest))

/-- The name of the next member of an object, if there is one. The rest of the text starts after the
name or after the closing brace. The first member has no comma in front. -/
def nextName (isFirst : Bool) (text : List Char) : Reading (Option String) :=
  let name (rest : List Char) : Reading (Option String) :=
    (scanString .plain [] rest).map fun (name, rest) => (some name, rest)
  match skipBlank text with
  | [] => .error (.before .endInObject [])
  | '\x7d' :: rest => .ok (none, rest)
  | c :: rest =>
    if isFirst then
      if c = '"' then name rest else .error (.here .keyNotText (c :: rest))
    else if c = ',' then
      match skipBlank rest with
      | [] => .error (.before .endInValue [])
      | '"' :: rest => name rest
      | '\x7d' :: rest => .error (.here .trailingComma ('\x7d' :: rest))
      | rest => .error (.here .keyNotText rest)
    else .error (.here .expectedObjectEnd (c :: rest))

/-- Pass over the colon between a name and a value. -/
def skipColon (text : List Char) : Except Failure (List Char) :=
  match skipBlank text with
  | [] => .error (.before .endInObject [])
  | ':' :: rest => .ok rest
  | rest => .error (.here .expectedColon rest)

/-- Read the elements of an array after the opening bracket, fewer of them than the limit says. The
elements so far are given, the last one first. -/
def readElements {α : Type} (read : List Char → Reading α) :
    Nat → List α → List Char → Reading (List α)
  | 0, _, text => .error (.before .endInArray text)
  | limit + 1, elements, text =>
    match nextElement elements.isEmpty text with
    | .error failure => .error failure
    | .ok (false, rest) => .ok (elements.reverse, rest)
    | .ok (true, rest) =>
      match read rest with
      | .error failure => .error failure
      | .ok (element, rest) => readElements read limit (element :: elements) rest

/-- Read an array of values of one form. Every element takes at least one character. -/
def readList {α : Type} (read : Reader α) : Reader (List α) := fun bound text =>
  match skipBlank text with
  | '[' :: rest => readElements (read bound) (bound + 1) [] rest
  | rest => .error (refuse "a sequence" rest)

/-- Read the members of a map after the opening brace, fewer of them than the limit says. -/
def readEntries (isFirst : Bool) :
    Nat → Std.ExtTreeMap String String → List Char → Reading (Std.ExtTreeMap String String)
  | 0, _, text => .error (.before .endInObject text)
  | limit + 1, map, text =>
    match nextName isFirst text with
    | .error failure => .error failure
    | .ok (none, rest) => .ok (map, rest)
    | .ok (some name, rest) =>
      match skipColon rest with
      | .error failure => .error failure
      | .ok rest =>
        match readText limit rest with
        | .error failure => .error failure
        | .ok (value, rest) => readEntries false limit (map.insert name value) rest

/-- Read an object whose values are texts. Of values with the same name the last one counts. -/
def readMap : Reader (Std.ExtTreeMap String String) := fun bound text =>
  match skipBlank text with
  | '\x7b' :: rest => readEntries true (bound + 1) ∅ rest
  | rest => .error (refuse "a map" rest)

/-- Read a whole text: after the value nothing but blank space may follow. -/
def readWhole {α : Type} (read : Reader α) (text : String) : Except ReadError α :=
  let chars := text.toList
  let failed (failure : Failure) : Except ReadError α :=
    .error ⟨failure.fault, failure.position chars⟩
  match read chars.length chars with
  | .error failure => failed failure
  | .ok (value, rest) =>
    match skipBlank rest with
    | [] => .ok value
    | rest => failed (.here .trailingCharacters rest)

end PlanChart.Json
