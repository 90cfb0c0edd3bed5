import PlanChart.Text.Hidden

/-!
# Text in messages

A message that is about a text shows it in double quotes, so that it is clear where the text starts
and ends and what it holds. Characters that do not show are written as their code point.
-/

namespace PlanChart.Literal

/-- A character as it is shown in a message. -/
def showChar (c : Char) : String :=
  if c = '\x00' then "\\0"
  else if c = '\t' then "\\t"
  else if c = '\n' then "\\n"
  else if c = '\r' then "\\r"
  else if c = '"' then "\\\""
  else if c = '\\' then "\\\\"
  else if Hidden.isHidden c then
    "\\u\x7b" ++ String.ofList (Nat.toDigits 16 c.toNat) ++ "\x7d"
  else String.singleton c

/-- A text as it is shown in a message. -/
def quote (text : String) : String :=
  "\"" ++ String.join (text.toList.map showChar) ++ "\""

end PlanChart.Literal
