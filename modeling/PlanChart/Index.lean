import Std.Data.HashMap

/-!
# Positions of ids

An index answers at which position of a list an id stands. When an id occurs more than once, its
first position counts.
-/

namespace PlanChart

/-- The position of each id. -/
abbrev Index := Std.HashMap String Nat

namespace Index

/-- Add the ids of a list, the first of which stands at the given position. -/
def addFrom (index : Index) (position : Nat) : List String → Index
  | [] => index
  | id :: ids => addFrom (index.insertIfNew id position) (position + 1) ids

/-- The index of a list of ids. -/
def ofIds (ids : List String) : Index :=
  addFrom ∅ 0 ids

end Index

end PlanChart
