import PlanChart.Text.Hex

/-!
# Colours

A colour literal is `#rgb` or `#rrggbb`, with hexadecimal digits in either letter case. Documents
hold only the long form; the short one stands for the long one with every digit doubled.
-/

namespace PlanChart.Color

/-- A literal that is neither `#rgb` nor `#rrggbb`. -/
structure Malformed where
  literal : String
  deriving DecidableEq, Repr

/-- What is said of a malformed literal. -/
def Malformed.message (malformed : Malformed) : String :=
  "Invalid color literal '" ++ malformed.literal ++ "': expected '#rgb' or '#rrggbb'"

/-- The digits of the long form for the characters that follow the `#`. -/
def longDigits? (digits : List Char) : Option (List Char) :=
  if !digits.all Hex.isDigit then none
  else if digits.length = 3 then some (digits.flatMap fun c => [c, c])
  else if digits.length = 6 then some digits
  else none

/-- The long form of a literal. -/
def normalize (literal : String) : Except Malformed String :=
  match literal.toList with
  | '#' :: digits =>
    match longDigits? digits with
    | some long => .ok (String.ofList ('#' :: long))
    | none => .error ⟨literal⟩
  | _ => .error ⟨literal⟩

end PlanChart.Color
