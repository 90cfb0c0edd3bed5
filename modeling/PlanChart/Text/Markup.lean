/-!
# Text inside a label

A label of the document is a piece of markup between angle brackets. Plain text inside it is kept
apart from tags and entities by replacing five characters with their entities.
-/

namespace PlanChart.Markup

/-- A character as it is written inside a label. -/
def escapeChar : Char → List Char
  | '&' => "&amp;".toList
  | '<' => "&lt;".toList
  | '>' => "&gt;".toList
  | '"' => "&quot;".toList
  | '\x27' => "&#039;".toList
  | c => [c]

/-- A text as it is written inside a label. -/
def escape (text : String) : String :=
  String.ofList (text.toList.flatMap escapeChar)

end PlanChart.Markup
