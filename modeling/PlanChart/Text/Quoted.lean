/-!
# Quoted values

An attribute value of the document may stand in double quotes. Inside them a backslash makes the
next character stand for itself, so backslashes and double quotes are written with one in front.
-/

namespace PlanChart.Quoted

/-- A character as it is written between double quotes. -/
def escapeChar (c : Char) : List Char :=
  if c == '\\' || c == '"' then ['\\', c] else [c]

/-- A text as it is written between double quotes. -/
def escape (text : String) : String :=
  String.ofList (text.toList.flatMap escapeChar)

end PlanChart.Quoted
