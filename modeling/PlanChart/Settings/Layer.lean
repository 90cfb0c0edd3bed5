import PlanChart.MissingPolicy

/-!
# Layers of settings

Settings come from up to three configuration files, each of which may set any of them. For each
setting the file that comes first among those that set it counts.
-/

namespace PlanChart

/-- What one configuration file sets. -/
structure Layer where
  /-- What stands in front of the links to the issues. -/
  baseUrl : Option String := none
  /-- What becomes of dependencies on unknown issues. -/
  missingDependencies : Option MissingPolicy := none
  /-- The custom field that gives the category of an issue without one. -/
  categoryField : Option String := none
  deriving DecidableEq, Repr, Inhabited

/-- Where a configuration file comes from. -/
inductive LayerSource
  /-- The user's own configuration. -/
  | user
  /-- The configuration of the working directory. -/
  | project
  /-- A file that is named explicitly. -/
  | named
  deriving DecidableEq, Repr

/-- The layers from all sources. -/
structure Layers where
  user : Layer := {}
  project : Layer := {}
  named : Layer := {}
  deriving DecidableEq, Repr, Inhabited

namespace Layers

/-- Put a layer in the place of the one from the same source. -/
def set (layers : Layers) (source : LayerSource) (layer : Layer) : Layers :=
  match source with
  | .user => { layers with user := layer }
  | .project => { layers with project := layer }
  | .named => { layers with named := layer }

/-- The layers, those that count first in front. -/
def byRank (layers : Layers) : List Layer :=
  [layers.named, layers.project, layers.user]

/-- The base URL, if a layer sets one. -/
def baseUrl? (layers : Layers) : Option String :=
  layers.byRank.findSome? Layer.baseUrl

/-- What becomes of dependencies on unknown issues. -/
def missingDependencies (layers : Layers) : MissingPolicy :=
  (layers.byRank.findSome? Layer.missingDependencies).getD .reject

/-- The custom field for categories, if a layer sets one. -/
def categoryField? (layers : Layers) : Option String :=
  layers.byRank.findSome? Layer.categoryField

end Layers

end PlanChart
