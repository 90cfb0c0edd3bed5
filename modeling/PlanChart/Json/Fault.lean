import PlanChart.Decimal.Shortest
import PlanChart.Text.Literal

/-!
# Faults of a JSON text

What can be wrong with a JSON text that is read as a value of a known form, and where. A reader
keeps no position. It hands on the part of the text that it has not read, and the position of a
fault follows from the length of that part.
-/

namespace PlanChart.Json

/-- What stands where something else was expected. -/
inductive Found
  | null
  | bool (value : Bool)
  | integer (value : Int)
  | real (value : Float)
  | text (value : String)
  | sequence
  | map
  deriving Repr

/-- How a message calls what was found. -/
def Found.name : Found → String
  | .null => "null"
  | .bool value => "boolean `" ++ (if value then "true" else "false") ++ "`"
  | .integer value => "integer `" ++ toString value ++ "`"
  | .real value => "floating point `" ++ Decimal.showFloat .even Decimal.concise value ++ "`"
  | .text value => "string " ++ Literal.quote value
  | .sequence => "sequence"
  | .map => "map"

/-- What is wrong with a text. -/
inductive Fault
  /-- The text ends where a value must start. -/
  | endInValue
  /-- The text ends inside an array. -/
  | endInArray
  /-- The text ends inside an object. -/
  | endInObject
  /-- The text ends inside a string. -/
  | endInString
  | expectedColon
  | expectedArrayEnd
  | expectedObjectEnd
  | expectedWord
  | expectedValue
  | invalidEscape
  | invalidNumber
  | numberOutOfRange
  | controlCharacter
  | keyNotText
  | loneSurrogate
  | unfinishedSurrogate
  | trailingComma
  | trailingCharacters
  /-- A record lacks a member. -/
  | missingField (name : String)
  /-- A record has a member twice. -/
  | duplicateField (name : String)
  /-- A value is not of the form that is expected. -/
  | invalidType (found : Found) (expected : String)
  /-- A record written as an array is too short. -/
  | invalidLength (length : Nat) (expected : String)
  deriving Repr

namespace Fault

/-- The kinds of faults. -/
inductive Kind
  /-- The text is no JSON text. -/
  | form
  /-- The text is a JSON text of another form than the one expected. -/
  | content
  /-- The text ends too early. -/
  | ending
  deriving DecidableEq, Repr

/-- The kind of a fault. -/
def kind : Fault → Kind
  | endInValue | endInArray | endInObject | endInString => .ending
  | missingField _ | duplicateField _ | invalidType .. | invalidLength .. => .content
  | _ => .form

/-- What is said of a fault. -/
def message : Fault → String
  | endInValue => "EOF while parsing a value"
  | endInArray => "EOF while parsing a list"
  | endInObject => "EOF while parsing an object"
  | endInString => "EOF while parsing a string"
  | expectedColon => "expected `:`"
  | expectedArrayEnd => "expected `,` or `]`"
  | expectedObjectEnd => "expected `,` or `\x7d`"
  | expectedWord => "expected ident"
  | expectedValue => "expected value"
  | invalidEscape => "invalid escape"
  | invalidNumber => "invalid number"
  | numberOutOfRange => "number out of range"
  | controlCharacter => "control character (\\u0000-\\u001F) found while parsing a string"
  | keyNotText => "key must be a string"
  | loneSurrogate => "lone leading surrogate in hex escape"
  | unfinishedSurrogate => "unexpected end of hex escape"
  | trailingComma => "trailing comma"
  | trailingCharacters => "trailing characters"
  | missingField name => "missing field `" ++ name ++ "`"
  | duplicateField name => "duplicate field `" ++ name ++ "`"
  | invalidType found expected => "invalid type: " ++ found.name ++ ", expected " ++ expected
  | invalidLength length expected =>
    "invalid length " ++ toString length ++ ", expected " ++ expected

end Fault

/-- A fault with its place: what has not been read, and how many bytes of that belong to what is
wrong. -/
structure Failure where
  fault : Fault
  rest : List Char
  ahead : Nat := 0
  deriving Repr

namespace Failure

/-- A fault in what has been read last. -/
def before (fault : Fault) (rest : List Char) : Failure :=
  ⟨fault, rest, 0⟩

/-- A fault in the first byte of what has not been read. -/
def here (fault : Fault) (rest : List Char) : Failure :=
  ⟨fault, rest, if rest.isEmpty then 0 else 1⟩

end Failure

/-- The number of bytes of a text in UTF-8. -/
def byteCount (text : List Char) : Nat :=
  text.foldl (fun bytes c => bytes + c.utf8Size) 0

/-- A place in a text: a line, counted from one, and a number of bytes of this line. -/
structure Position where
  line : Nat
  column : Nat
  deriving DecidableEq, Repr

namespace Position

/-- The place that lies a number of bytes behind another, of which a text follows. -/
def advance (position : Position) (bytes : Nat) : List Char → Position
  | [] => position
  | c :: text =>
    if bytes = 0 then position
    else if c = '\n' then advance ⟨position.line + 1, 0⟩ (bytes - 1) text
    else if bytes ≤ c.utf8Size then ⟨position.line, position.column + bytes⟩
    else advance ⟨position.line, position.column + c.utf8Size⟩ (bytes - c.utf8Size) text

/-- The place a number of bytes behind the start of a text. -/
def ofBytes (bytes : Nat) (text : List Char) : Position :=
  advance ⟨1, 0⟩ bytes text

end Position

/-- The place of a failure to read a text. -/
def Failure.position (failure : Failure) (text : List Char) : Position :=
  .ofBytes (byteCount text - byteCount failure.rest + failure.ahead) text

/-- Why a text could not be read. -/
structure ReadError where
  fault : Fault
  position : Position
  deriving Repr

/-- The fault and its place in words. -/
def ReadError.message (error : ReadError) : String :=
  error.fault.message ++ " at line " ++ toString error.position.line ++ " column " ++
    toString error.position.column

end PlanChart.Json
