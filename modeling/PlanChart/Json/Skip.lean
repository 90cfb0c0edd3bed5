import PlanChart.Json.Number

/-!
# Passing over values

The value of a member that a record does not know is passed over. It must be well formed, however
deep it is. The brackets that are open are kept in a stack, so no part of the text is read twice and
no depth is too great.
-/

namespace PlanChart.Json

/-- A bracket that has not been closed. -/
inductive Bracket
  | array
  | object
  deriving DecidableEq, Repr

/-- The fault of a text that ends inside a bracket. -/
def Bracket.endFault : Bracket → Fault
  | .array => .endInArray
  | .object => .endInObject

/-- The fault of a character that neither goes on nor closes a bracket. -/
def Bracket.separatorFault : Bracket → Fault
  | .array => .expectedArrayEnd
  | .object => .expectedObjectEnd

/-- The character that closes a bracket. -/
def Bracket.close : Bracket → Char
  | .array => ']'
  | .object => '\x7d'

/-- What is passed over next. -/
inductive SkipStep
  /-- A value. -/
  | value
  /-- The name of a member, the colon and the member's value. -/
  | member
  /-- What comes after a value. -/
  | separator
  /-- What comes after an opening bracket. -/
  | content
  deriving DecidableEq, Repr

/-- Pass over the name of a member and the colon after it. -/
def skipName (text : List Char) : Except Failure (List Char) :=
  match skipBlank text with
  | [] => .error (.before .endInObject [])
  | '"' :: rest =>
    match skipString .plain rest with
    | .error failure => .error failure
    | .ok rest =>
      match skipBlank rest with
      | [] => .error (.before .endInObject [])
      | ':' :: rest => .ok rest
      | rest => .error (.here .expectedColon rest)
  | rest => .error (.here .keyNotText rest)

/-- Pass over a value that is neither an array nor an object, from its first character on. -/
def skipScalar (c : Char) (rest : List Char) : Except Failure (List Char) :=
  match c with
  | 'n' => scanWord "ull".toList rest
  | 't' => scanWord "rue".toList rest
  | 'f' => scanWord "alse".toList rest
  | '-' => skipNumber rest
  | '"' => skipString .plain rest
  | _ => if c.isDigit then skipNumber (c :: rest) else .error (.here .expectedValue (c :: rest))

/-- Pass over what is left of a value inside the given open brackets, the innermost first. Every
step but the closing one reads a character or is followed by one that does, so twice as many steps
as there are characters are enough. -/
def skipSteps : Nat → SkipStep → List Bracket → List Char → Except Failure (List Char)
  | 0, _, _, text => .error (.before .endInValue text)
  | limit + 1, .value, brackets, text =>
    match skipBlank text with
    | [] => .error (.before .endInValue [])
    | '[' :: rest => skipSteps limit .content (.array :: brackets) rest
    | '\x7b' :: rest => skipSteps limit .content (.object :: brackets) rest
    | c :: rest =>
      match skipScalar c rest with
      | .error failure => .error failure
      | .ok rest => skipSteps limit .separator brackets rest
  | limit + 1, .member, brackets, text =>
    match skipName text with
    | .error failure => .error failure
    | .ok rest => skipSteps limit .value brackets rest
  | _ + 1, .separator, [], text => .ok text
  | limit + 1, .separator, bracket :: brackets, text =>
    match skipBlank text with
    | [] => .error (.before bracket.endFault [])
    | c :: rest =>
      if c = ',' then
        skipSteps limit (if bracket = .array then .value else .member) (bracket :: brackets) rest
      else if c = bracket.close then skipSteps limit .separator brackets rest
      else .error (.here bracket.separatorFault (c :: rest))
  | _ + 1, .content, [], text => .ok text
  | limit + 1, .content, bracket :: brackets, text =>
    match skipBlank text with
    | [] => .error (.before bracket.endFault [])
    | c :: rest =>
      if c = bracket.close then skipSteps limit .separator brackets rest
      else
        skipSteps limit (if bracket = .array then .value else .member) (bracket :: brackets)
          (c :: rest)

/-- Pass over a value of a text that is not longer than the bound. -/
def skipValue (bound : Nat) (text : List Char) : Except Failure (List Char) :=
  skipSteps (2 * bound + 2) .value [] text

end PlanChart.Json
