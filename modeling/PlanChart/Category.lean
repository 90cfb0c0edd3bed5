/-!
# Categories

A category sorts issues into kinds and says in which colours issues of the kind are drawn. Either
colour may be left open; then a default takes its place.
-/

namespace PlanChart

/-- Which of a category's two colours is meant. -/
inductive ColorRole
  /-- The colour of the text and of the outline. -/
  | foreground
  /-- The colour of the filling. -/
  | background
  deriving DecidableEq, Repr

/-- The name of a colour's role, as messages and details use it. -/
def ColorRole.name : ColorRole → String
  | .foreground => "foreground"
  | .background => "background"

/-- The colour drawn where a category leaves this one open: black on white. -/
def ColorRole.defaultColor : ColorRole → String
  | .foreground => "#000000"
  | .background => "#ffffff"

/-- A pair of colour literals, each of which may be missing. -/
structure ColorPair where
  foreground : Option String := none
  background : Option String := none
  deriving DecidableEq, Repr, Inhabited

/-- A kind of issue. -/
structure Category where
  id : String
  name : String := ""
  colors : Option ColorPair := none
  deriving DecidableEq, Repr, Inhabited

/-- The colour literal a category sets for a role. -/
def Category.color? (category : Category) (role : ColorRole) : Option String :=
  category.colors.bind fun colors =>
    match role with
    | .foreground => colors.foreground
    | .background => colors.background

end PlanChart
