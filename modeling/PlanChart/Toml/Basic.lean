/-!
# TOML values

A value of a TOML text. Tables come about in four ways, which decide what may be added to them
later. Dates and times are told apart from other values but not from each other.
-/

namespace PlanChart

/-- How a table came about. -/
inductive TableOrigin
  /-- By a header of its own. -/
  | header
  /-- By the header of a table inside it. -/
  | outerHeader
  /-- By a dotted key. -/
  | dottedKey
  /-- By a value in braces. -/
  | braces
  deriving DecidableEq, Repr

/-- A TOML value. -/
inductive Toml
  | string (value : String)
  | integer (value : Int)
  | real (value : Float)
  | bool (value : Bool)
  /-- A date, a time or both. -/
  | moment
  | array (elements : List Toml)
  | table (origin : TableOrigin) (entries : List (String × Toml))
  /-- The tables whose headers stand in double brackets. -/
  | tables (elements : List (List (String × Toml)))
  deriving Repr, Inhabited

namespace Toml

/-- The entries of a table, in the order in which they came about. -/
abbrev Entries := List (String × Toml)

namespace Entries

/-- The value of a key. -/
def value? (entries : Entries) (key : String) : Option Toml :=
  entries.lookup key

/-- Put a value in the place of a key's value. -/
def replace (entries : Entries) (key : String) (value : Toml) : Entries :=
  entries.map fun entry => if entry.1 = key then (key, value) else entry

/-- Add an entry after the others. -/
def append (entries : Entries) (key : String) (value : Toml) : Entries :=
  entries ++ [(key, value)]

/-- Take the entry of a key away. -/
def erase (entries : Entries) (key : String) : Entries :=
  entries.filter fun entry => entry.1 != key

end Entries

end Toml

end PlanChart
