import PlanChart.Color
import PlanChart.Forest.Basic
import PlanChart.PlanError
import PlanChart.Text.Markup
import PlanChart.Text.Quoted

/-!
# The text of a node

A leaf is declared as a node of the document and a group as a cluster. Both begin with the same
attributes: the label, the link to the issue and the colours. The text of a group's children comes
between its attributes and its closing brace.
-/

namespace PlanChart

/-- The colour of a node in a role: the one its category sets, and else the default. -/
def Node.color (node : Node) (role : ColorRole) : Except PlanError String :=
  let literal := (node.category.bind (·.color? role)).getD role.defaultColor
  match Color.normalize literal with
  | .ok color => .ok color
  | .error malformed =>
    .error (.invalidColor ((node.category.map Category.id).getD "") role malformed.literal)

namespace Document

/-- The space at the start of a line, for the number of siblings' lists around it. -/
def indent (depth : Nat) : String :=
  String.ofList (List.replicate (2 * depth) ' ')

/-- The markup of a node's label: the issue's id and summary, struck through when the issue is
resolved, and the assignee's name in small print on a line of its own. -/
def label (node : Node) : String :=
  let title := Markup.escape node.externalId ++ ": " ++ node.label
  let line := if node.resolved then "<s>" ++ title ++ "</s>" else title
  match node.assigneeName with
  | none => line
  | some name => line ++ "<br/><font point-size=\"12\">" ++ Markup.escape name ++ "</font>"

/-- The link to a node's issue, as it is written between double quotes. -/
def link (baseUrl : String) (node : Node) : String :=
  Quoted.escape baseUrl ++ "issue/" ++ Quoted.escape node.externalId

/-- The line that starts a node's declaration. -/
def openLine (node : Node) (depth : Nat) : String :=
  if node.isGroup then indent depth ++ "subgraph cluster_" ++ node.id ++ " \x7b\n"
  else indent depth ++ node.id ++ " [\n"

/-- The line that ends a node's declaration. -/
def closeLine (node : Node) (depth : Nat) : String :=
  indent depth ++ if node.isGroup then "\x7d\n" else "]\n"

/-- A line that sets an attribute. -/
def attributeLine (depth : Nat) (name value : String) : String :=
  indent depth ++ name ++ " = " ++ value ++ ";\n"

/-- A node's declaration up to the end of its attributes. -/
def opening (baseUrl : String) (node : Node) (depth : Nat) : Except PlanError String := do
  let foreground ← node.color .foreground
  let background ← node.color .background
  return openLine node depth ++
    attributeLine (depth + 1) "label" ("<" ++ label node ++ ">") ++
    attributeLine (depth + 1) "href" ("\"" ++ link baseUrl node ++ "\"") ++
    attributeLine (depth + 1) "fillcolor" ("\"" ++ background ++ "\"") ++
    attributeLine (depth + 1) "fontcolor" ("\"" ++ foreground ++ "\"") ++
    attributeLine (depth + 1) "color" ("\"" ++ foreground ++ "\"") ++
    (if node.isGroup then "\n" else "")

end Document

end PlanChart
