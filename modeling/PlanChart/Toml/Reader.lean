import PlanChart.Toml.Number
import PlanChart.Toml.Table

/-!
# Reading TOML

A TOML text is a list of statements, each on a line of its own. Only the values of arrays may run
over several lines.
-/

namespace PlanChart.Toml

/-- Read the elements of an array after the opening bracket, fewer of them than the limit says. The
elements so far are given, the last one first. -/
def scanElements (scan : Scan Toml) : Nat → List Toml → Scan Toml
  | 0, _, _ => none
  | limit + 1, elements, text =>
    match skipFiller false text with
    | ']' :: rest => some (.array elements.reverse, rest)
    | text => do
      let (element, rest) ← scan text
      match skipFiller false rest with
      | ',' :: rest => scanElements scan limit (element :: elements) rest
      | ']' :: rest => some (.array (element :: elements).reverse, rest)
      | _ => none

/-- Read the entries of a table in braces, of which there is at least one. The entries so far are
given, the last one first. -/
def scanPairs (scan : Scan Toml) : Nat → List (List String × Toml) → Scan Toml
  | 0, _, _ => none
  | limit + 1, pairs, text => do
    let (key, rest) ← scanKey text
    let (value, rest) ← scan (skipSpace (← skipChar '=' rest))
    match skipSpace rest with
    | ',' :: rest => scanPairs scan limit ((key, value) :: pairs) rest
    | '\x7d' :: rest =>
      let entries ← Entries.ofDotted ((key, value) :: pairs).reverse
      some (.table .braces entries, rest)
    | _ => none

/-- Read a value in which brackets are nested at most so deep. -/
def scanValueWithin : Nat → Scan Toml
  | 0, '[' :: _ => none
  | 0, '\x7b' :: _ => none
  | depth + 1, '[' :: rest => scanElements (scanValueWithin depth) (rest.length + 1) [] rest
  | depth + 1, '\x7b' :: rest =>
    match skipSpace rest with
    | '\x7d' :: rest => some (.table .braces [], rest)
    | rest => scanPairs (scanValueWithin depth) (rest.length + 1) [] rest
  | _, 't' :: 'r' :: 'u' :: 'e' :: rest => some (.bool true, rest)
  | _, 'f' :: 'a' :: 'l' :: 's' :: 'e' :: rest => some (.bool false, rest)
  | _, text =>
    match scanString text with
    | some (value, rest) => some (.string value, rest)
    | none => scanQuantity text

/-- Read a value. -/
def scanValue : Scan Toml :=
  scanValueWithin depthLimit

/-- Read a statement with the end of its line. -/
def scanStatement : Scan Statement
  | '[' :: '[' :: rest => do
    let (path, rest) ← scanKey rest
    let rest ← skipLineEnd (← skipChar ']' (← skipChar ']' rest))
    some (.element path, rest)
  | '[' :: rest => do
    let (path, rest) ← scanKey rest
    let rest ← skipLineEnd (← skipChar ']' rest)
    some (.table path, rest)
  | text => do
    let (key, rest) ← scanKey text
    let (value, rest) ← scanValue (skipSpace (← skipChar '=' rest))
    let rest ← skipLineEnd rest
    some (.entry key value, rest)

/-- Read the statements of a text, which has fewer lines than the limit says. -/
def scanStatements : Nat → List Char → Option (List Statement)
  | 0, _ => none
  | limit + 1, text =>
    match skipSpace text with
    | [] => some []
    | c :: rest =>
      if c = '#' || c = '\n' then
        (skipLineEnd (c :: rest)).bind (scanStatements limit)
      else do
        let (statement, rest) ← scanStatement (c :: rest)
        let statements ← scanStatements limit rest
        some (statement :: statements)

/-- The text without the mark of its encoding at its start. -/
def dropMark : List Char → List Char
  | '\uFEFF' :: rest => rest
  | text => text

/-- The entries of the table that a text describes. -/
def read? (text : String) : Option Entries := do
  let chars := joinBreaks (dropMark text.toList)
  let statements ← scanStatements (chars.length + 1) chars
  Entries.ofStatements statements

end PlanChart.Toml
