import PlanChart.Decimal.Shortest
import PlanChart.Settings.Layer
import PlanChart.Text.Literal
import PlanChart.Toml.Reader

/-!
# Reading configurations

A configuration is a TOML text. Its settings are the entries of the table `render`; all other
entries are passed over. The table may also be written as an array of the settings in their order.
-/

namespace PlanChart.Layer

/-- What is wrong with the entries of a configuration. -/
inductive Mismatch
  /-- A value is not of the form that is expected. -/
  | invalidType (found expected : String)
  /-- An array does not have an element for each setting. -/
  | invalidLength (length : Nat)
  /-- A word is not the name of a policy. -/
  | unknownPolicy (word : String)
  /-- A table in place of a policy has no entry. -/
  | noEntry
  /-- A table in place of a policy has more than one entry. -/
  | moreEntries
  /-- A policy is neither a word nor a table. -/
  | notWordOrTable
  /-- A table in place of a policy holds something else than an empty table. -/
  | notEmptyTable
  /-- A table in place of a policy holds a list of tables. -/
  | notEmptyArray
  /-- A table in place of a policy holds no table. -/
  | notTable (found : String)
  deriving DecidableEq, Repr

/-- What is said of a mismatch. -/
def Mismatch.message : Mismatch → String
  | invalidType found expected => "invalid type: " ++ found ++ ", expected " ++ expected
  | invalidLength length =>
    "invalid length " ++ toString length ++ ", expected struct RenderConfig with 3 elements"
  | unknownPolicy word => "unknown variant `" ++ word ++ "`, expected `reject` or `drop`"
  | noEntry => "wanted exactly 1 element, found 0 elements"
  | moreEntries => "wanted exactly 1 element, more than 1 element"
  | notWordOrTable => "wanted string or table"
  | notEmptyTable => "expected empty table"
  | notEmptyArray => "expected empty array"
  | notTable found => "expected table, found " ++ found

/-- How a message calls a value of the wrong form. -/
def describe : Toml → String
  | .string value => "string " ++ Literal.quote value
  | .integer value => "integer `" ++ toString value ++ "`"
  | .real value => "floating point `" ++ Decimal.showFloat .up Decimal.plain value ++ "`"
  | .bool value => "boolean `" ++ (if value then "true" else "false") ++ "`"
  | .moment => "map"
  | .array _ => "sequence"
  | .table .. => "map"
  | .tables _ => "sequence"

/-- The text a value must be. -/
def textOf : Toml → Except Mismatch String
  | .string value => .ok value
  | value => .error (.invalidType (describe value) "a string")

/-- The policy a word must name. -/
def policyOfWord (word : String) : Except Mismatch MissingPolicy :=
  match MissingPolicy.ofWord? word with
  | some policy => .ok policy
  | none => .error (.unknownPolicy word)

/-- Check that nothing more is said of a policy that is written as the key of a table. -/
def checkEmpty : Toml → Except Mismatch Unit
  | .table _ [] => .ok ()
  | .table _ (_ :: _) => .error .notEmptyTable
  | .array [] => .ok ()
  | .array (_ :: _) => .error .notEmptyTable
  | .tables [] => .ok ()
  | .tables (_ :: _) => .error .notEmptyArray
  | .string _ => .error (.notTable "string")
  | .integer _ => .error (.notTable "integer")
  | .real _ => .error (.notTable "float")
  | .bool _ => .error (.notTable "boolean")
  | .moment => .error (.notTable "datetime")

/-- The policy a value must be: a word, or a table with the word as its one key. -/
def policyOf : Toml → Except Mismatch MissingPolicy
  | .string word => policyOfWord word
  | .table _ [(word, value)] => do
    let policy ← policyOfWord word
    checkEmpty value
    return policy
  | .table _ [] => .error .noEntry
  | .table _ (_ :: _ :: _) => .error .moreEntries
  | _ => .error .notWordOrTable

/-- Put a setting into a layer. -/
def putEntry (layer : Layer) (key : String) (value : Toml) : Except Mismatch Layer :=
  match key with
  | "base_url" => (textOf value).map fun url => { layer with baseUrl := some url }
  | "missing_dependencies" =>
    (policyOf value).map fun policy => { layer with missingDependencies := some policy }
  | "category_field" => (textOf value).map fun field => { layer with categoryField := some field }
  | _ => .ok layer

/-- The names of the settings, in the order in which an array gives them. -/
def keys : List String :=
  ["base_url", "missing_dependencies", "category_field"]

/-- The layer of the entries of a table. -/
def ofEntries (entries : Toml.Entries) : Except Mismatch Layer :=
  entries.foldlM (fun layer (key, value) => layer.putEntry key value) {}

/-- The layer of the elements of an array. Elements after the last setting are passed over. -/
def ofElements (elements : List Toml) : Except Mismatch Layer := do
  let layer ← ofEntries (keys.zip elements)
  if elements.length < keys.length then .error (.invalidLength elements.length) else .ok layer

/-- The layer of the value of `render`. -/
def ofRender : Toml → Except Mismatch Layer
  | .table _ entries => ofEntries entries
  | .moment => .ok {}
  | .array elements => ofElements elements
  | .tables elements => ofElements (elements.map (.table .header))
  | value => .error (.invalidType (describe value) "struct RenderConfig")

/-- Why a configuration cannot be read. -/
inductive Fault
  /-- It is no TOML text. -/
  | form
  /-- It is a TOML text with a value of the wrong form. -/
  | mismatch (mismatch : Mismatch)
  deriving DecidableEq, Repr

/-- The layer a configuration sets. -/
def read (text : String) : Except Fault Layer :=
  match Toml.read? text with
  | none => .error .form
  | some entries =>
    match entries.value? "render" with
    | none => .ok {}
    | some render => (ofRender render).mapError .mismatch

end PlanChart.Layer
