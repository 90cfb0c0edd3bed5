import PlanChart.Toml.Basic

/-!
# Building tables

The statements of a TOML text add to a tree of tables. A header says to which table the entries
after it belong. A key may be dotted; then all but its last part name tables on the way. Every table
and every value may be defined once only, and a statement that breaks this rule makes the text
invalid.
-/

namespace PlanChart.Toml

/-- A statement of a TOML text. -/
inductive Statement
  /-- A header in single brackets. -/
  | table (path : List String)
  /-- A header in double brackets. -/
  | element (path : List String)
  /-- A key with its value. -/
  | entry (key : List String) (value : Toml)
  deriving Repr

/-- Change the last entry of a list of tables. -/
def changeLast (change : Entries → Option Entries) : List Entries → Option (List Entries)
  | [] => none
  | [last] => (change last).map ([·])
  | first :: others => (changeLast change others).map (first :: ·)

namespace Entries

/-- Add a value under a dotted key. The tables on the way must have come about by dotted keys too,
at least the last one: that is what the flag tells of the given entries. -/
def insertDotted (value : Toml) (canHold : Bool) : List String → Entries → Option Entries
  | [], _ => none
  | [key], entries =>
    if canHold && (entries.value? key).isNone then some (entries.append key value) else none
  | key :: next :: keys, entries =>
    match entries.value? key with
    | none =>
      (insertDotted value true (next :: keys) []).map fun inner =>
        entries.append key (.table .dottedKey inner)
    | some (.table .dottedKey inner) =>
      (insertDotted value true (next :: keys) inner).map fun inner =>
        entries.replace key (.table .dottedKey inner)
    | some (.table .outerHeader inner) =>
      (insertDotted value false (next :: keys) inner).map fun inner =>
        entries.replace key (.table .outerHeader inner)
    | some (.tables elements) =>
      (changeLast (insertDotted value false (next :: keys)) elements).map fun elements =>
        entries.replace key (.tables elements)
    | some _ => none

/-- Change the table that a path names. Missing tables on the way come about; a list of tables
stands for its last one. -/
def changeAt (change : Entries → Option Entries) : List String → Entries → Option Entries
  | [], entries => change entries
  | key :: keys, entries =>
    match entries.value? key with
    | none =>
      (changeAt change keys []).map fun inner => entries.append key (.table .outerHeader inner)
    | some (.table .braces _) => none
    | some (.table origin inner) =>
      (changeAt change keys inner).map fun inner => entries.replace key (.table origin inner)
    | some (.tables elements) =>
      (changeLast (changeAt change keys) elements).map fun elements =>
        entries.replace key (.tables elements)
    | some _ => none

/-- Define a table by its header. It may have come about by the header of a table inside it; then
it moves behind the other entries. -/
def openTable (key : String) (entries : Entries) : Option Entries :=
  match entries.value? key with
  | none => some (entries.append key (.table .header []))
  | some (.table .outerHeader inner) =>
    some ((entries.erase key).append key (.table .header inner))
  | some _ => none

/-- Add an empty table to a list of tables. -/
def openElement (key : String) (entries : Entries) : Option Entries :=
  match entries.value? key with
  | none => some (entries.append key (.tables [[]]))
  | some (.tables elements) => some (entries.replace key (.tables (elements ++ [[]])))
  | some _ => none

/-- Change the table around the one that a header names. -/
def changeAround (change : String → Entries → Option Entries) (path : List String)
    (entries : Entries) : Option Entries :=
  path.getLast?.bind fun key => entries.changeAt (change key) path.dropLast

/-- The table of the given entries, each under a dotted key. -/
def ofDotted (entries : List (List String × Toml)) : Option Entries :=
  entries.foldlM (fun table (key, value) => table.insertDotted value true key) []

/-- Carry out statements. The path is that of the last header. -/
def run (path : List String) (entries : Entries) : List Statement → Option Entries
  | [] => some entries
  | .table header :: statements =>
    (entries.changeAround openTable header).bind fun entries => run header entries statements
  | .element header :: statements =>
    (entries.changeAround openElement header).bind fun entries => run header entries statements
  | .entry key value :: statements =>
    (entries.changeAt (insertDotted value true key) path).bind fun entries =>
      run path entries statements

/-- The table that statements describe. -/
def ofStatements (statements : List Statement) : Option Entries :=
  run [] [] statements

end Entries

end PlanChart.Toml
