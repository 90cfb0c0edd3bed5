import PlanChart.Json.Basic
import PlanChart.Text.Hex

/-!
# Printing JSON

A value is printed over several lines: every element and every member has a line of its own, two
spaces further in than the brackets around it. Arrays and objects without content are printed as a
pair of brackets.
-/

namespace PlanChart.Json

/-- A character as it is written in a JSON text: double quotes, backslashes and the characters
below the space are escaped, the most common of them by a letter. -/
def escapeChar (c : Char) : List Char :=
  if c = '"' then ['\\', '"']
  else if c = '\\' then ['\\', '\\']
  else if c = '\x08' then ['\\', 'b']
  else if c = '\t' then ['\\', 't']
  else if c = '\n' then ['\\', 'n']
  else if c = '\x0c' then ['\\', 'f']
  else if c = '\r' then ['\\', 'r']
  else if c < ' ' then ['\\', 'u', '0', '0', Hex.digit (c.toNat / 16), Hex.digit (c.toNat % 16)]
  else [c]

/-- A text as it is written in a JSON text. -/
def quote (text : String) : String :=
  String.ofList ('"' :: text.toList.flatMap escapeChar ++ ['"'])

/-- A line break and the space at the start of the line after it. -/
def newline (depth : Nat) : String :=
  String.ofList ('\n' :: List.replicate (2 * depth) ' ')

mutual

/-- A value as it is printed inside the given number of brackets. -/
def printAt (depth : Nat) : Json → String
  | .null => "null"
  | .bool true => "true"
  | .bool false => "false"
  | .integer value => toString value
  | .decimal negative value => (if negative then "-" else "") ++ value.concise
  | .string value => quote value
  | .array [] => "[]"
  | .array (element :: elements) =>
    "[" ++ newline (depth + 1) ++ printAt (depth + 1) element ++
      printElements (depth + 1) elements ++ newline depth ++ "]"
  | .object [] => "\x7b\x7d"
  | .object ((name, value) :: members) =>
    "\x7b" ++ newline (depth + 1) ++ quote name ++ ": " ++ printAt (depth + 1) value ++
      printMembers (depth + 1) members ++ newline depth ++ "\x7d"

/-- The elements of an array after the first. -/
def printElements (depth : Nat) : List Json → String
  | [] => ""
  | element :: elements =>
    "," ++ newline depth ++ printAt depth element ++ printElements depth elements

/-- The members of an object after the first. -/
def printMembers (depth : Nat) : List (String × Json) → String
  | [] => ""
  | (name, value) :: members =>
    "," ++ newline depth ++ quote name ++ ": " ++ printAt depth value ++
      printMembers depth members

end

/-- A value as it is printed on its own. -/
def print (value : Json) : String :=
  printAt 0 value

end PlanChart.Json
