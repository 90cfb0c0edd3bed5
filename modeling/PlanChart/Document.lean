import PlanChart.Document.Walk
import PlanChart.Forest.Build
import PlanChart.Plan

/-!
# Documents

The document of a plan, in the language of the layout program: what is common to all documents,
then the nodes, then the edges.
-/

namespace PlanChart

namespace Document

/-- The start of every document: the defaults of clusters, nodes and edges, and how they are laid
out. -/
def preamble : String :=
  "digraph ProjectPlan \x7b
  graph [
    fontname = \"helvetica\";
    style = \"rounded,filled\";
    target = \"_blank\";
  ];
  node [
    fontname = \"helvetica\";
    shape = box;
    style = \"rounded,filled\";
    target = \"_blank\";
  ];
  edge [
    fontname = \"helvetica\";
  ];

  rankdir = LR;
  compound = true;
  newrank = true;
  ranksep = 1;

"

/-- A document around the texts of its nodes and its edges. A blank line stands between the two if
there is an edge. -/
def assemble (nodes edges : String) : String :=
  preamble ++ nodes ++ (if edges.isEmpty then "" else "\n" ++ edges) ++ "\x7d\n"

/-- The document of a forest. The base URL stands in front of the links. -/
def ofForest (forest : Forest) (baseUrl : String) : Except PlanError String := do
  let walk ← Walk.whole forest baseUrl
  return assemble walk.nodes walk.edges

end Document

/-- What a document depends on besides the plan. -/
structure DrawOptions where
  /-- What stands in front of the links to the issues. -/
  baseUrl : String := ""
  /-- The custom field that gives the category of an issue without one. -/
  categoryField : Option String := none
  missingDependencies : MissingPolicy := .reject
  deriving DecidableEq, Repr, Inhabited

/-- The document of a list of issues, or why there is none. -/
def draw (issues : List Issue) (directory : Directory) (options : DrawOptions) :
    Except PlanError String := do
  let forest ← Forest.build issues directory options.categoryField options.missingDependencies
  Document.ofForest forest options.baseUrl

end PlanChart
