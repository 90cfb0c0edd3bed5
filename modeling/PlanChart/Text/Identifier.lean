/-!
# Identifiers

A node of the drawn document is named by an identifier: ASCII letters, digits and underscores, not
starting with a digit. Any text is turned into one by replacing what does not fit. The language of
the document also has keywords, which no letter case makes usable as names.
-/

namespace PlanChart.Identifier

/-- The characters that may stand in an identifier. -/
def isPart (c : Char) : Bool :=
  c.isAlphanum || c == '_'

/-- A character as it stands in an identifier: an underscore takes the place of all others. -/
def part (c : Char) : Char :=
  if isPart c then c else '_'

/-- Whether a text needs an underscore in front: when it is empty or starts with a digit. -/
def needsLead : List Char → Bool
  | [] => true
  | c :: _ => c.isDigit

/-- The identifier's characters for a text's characters. -/
def chars (text : List Char) : List Char :=
  if needsLead text then '_' :: text.map part else text.map part

/-- The identifier derived from a text. -/
def ofText (text : String) : String :=
  String.ofList (chars text.toList)

/-- The words of the document's language that cannot name a node. -/
def keywords : List String :=
  ["node", "edge", "graph", "digraph", "subgraph", "strict"]

/-- Whether an identifier is a keyword in some letter case. -/
def isKeyword (identifier : String) : Bool :=
  keywords.any fun keyword => keyword.toList == identifier.toList.map Char.toLower

end PlanChart.Identifier
