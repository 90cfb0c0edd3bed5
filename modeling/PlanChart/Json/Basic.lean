import PlanChart.Decimal.Shortest
import Std.Data.ExtTreeMap

/-!
# JSON values

A value of a JSON text. The members of an object stand in the order in which they are written.
-/

namespace PlanChart

/-- A JSON value. -/
inductive Json
  | null
  | bool (value : Bool)
  | integer (value : Int)
  /-- A number with a fraction, and whether it is negative. -/
  | decimal (negative : Bool) (value : Decimal)
  | string (value : String)
  | array (elements : List Json)
  | object (members : List (String × Json))
  deriving Repr, Inhabited

namespace Json

/-- The text if there is one, and else null. -/
def ofText? (text : Option String) : Json :=
  (text.map Json.string).getD .null

/-- An array of texts. -/
def ofTexts (texts : List String) : Json :=
  .array (texts.map Json.string)

/-- The shortest decimal of a floating-point number; null if it has none. -/
def ofFloat (x : Float) : Json :=
  match Magnitude.ofFloat x with
  | (negative, .finite significand exponent) =>
    .decimal negative (Decimal.shortest .even significand exponent)
  | _ => .null

/-- The object with the last value of each name, the names in the order of their characters. -/
def ofMembers (members : List (String × Json)) : Json :=
  .object (members.foldl (fun (map : Std.ExtTreeMap String Json) (name, value) =>
    map.insert name value) ∅).toList

end Json

end PlanChart
