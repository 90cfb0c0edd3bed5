import PlanChart.Json.Reader

/-!
# Reading records

A record is written as an object whose members are its fields, in any order, or as an array of its
fields in their order. An object may have other members too; they are passed over. Fields that may
be left out keep their default value.
-/

namespace PlanChart.Json

/-- A field of a record: how its value is read and put into the record. -/
structure Field (α : Type) where
  name : String
  /-- Whether the field must be written. -/
  required : Bool
  read : α → Reader α

/-- The form of a record. -/
structure Shape (α : Type) where
  /-- How messages call the record. -/
  name : String
  /-- The record whose fields have their default values. -/
  blank : α
  fields : List (Field α)

/-- A field whose value is read by itself and then put into the record. -/
def Field.of {α β : Type} (name : String) (required : Bool) (read : Reader β)
    (put : α → β → α) : Field α where
  name := name
  required := required
  read := fun record bound text =>
    (read bound text).map fun (value, rest) => (put record value, rest)

namespace Shape

variable {α : Type}

/-- How messages call the form of a record. -/
def title (shape : Shape α) : String :=
  "struct " ++ shape.name

/-- How messages call the form of a record and the number of its fields. -/
def sizedTitle (shape : Shape α) : String :=
  shape.title ++ " with " ++ toString shape.fields.length ++ " elements"

/-- The first field that must be written and is not among the given names. -/
def missing? (shape : Shape α) (seen : List String) : Option (Field α) :=
  shape.fields.find? fun field => field.required && !seen.contains field.name

/-- The place at which a repeated field is noticed: after its name, and after the blank space and
the closing brace that follow it. -/
def afterRepeated (rest : List Char) : List Char :=
  match skipBlank rest with
  | '\x7d' :: rest => rest
  | rest => rest

/-- Read the members of an object after the opening brace, fewer of them than the limit says, given
the names of the fields that have been read. -/
def readMembers (shape : Shape α) (bound : Nat) (isFirst : Bool) :
    Nat → List String → α → List Char → Reading α
  | 0, _, _, text => .error (.before .endInObject text)
  | limit + 1, seen, record, text =>
    match nextName isFirst text with
    | .error failure => .error failure
    | .ok (none, rest) =>
      match shape.missing? seen with
      | some field => .error (.before (.missingField field.name) rest)
      | none => .ok (record, rest)
    | .ok (some name, rest) =>
      match shape.fields.find? (·.name = name) with
      | some field =>
        if seen.contains name then
          .error (.before (.duplicateField name) (afterRepeated rest))
        else
          match skipColon rest with
          | .error failure => .error failure
          | .ok rest =>
            match field.read record bound rest with
            | .error failure => .error failure
            | .ok (record, rest) => readMembers shape bound false limit (name :: seen) record rest
      | none =>
        match skipColon rest with
        | .error failure => .error failure
        | .ok rest =>
          match skipValue bound rest with
          | .error failure => .error failure
          | .ok rest => readMembers shape bound false limit seen record rest

/-- The end of an array that has an element for each field. -/
def closeArray (text : List Char) : Except Failure (List Char) :=
  match skipBlank text with
  | [] => .error (.before .endInArray [])
  | ']' :: rest => .ok rest
  | ',' :: rest =>
    match skipBlank rest with
    | ']' :: rest => .error (.here .trailingComma (']' :: rest))
    | rest => .error (.here .trailingCharacters rest)
  | rest => .error (.here .trailingCharacters rest)

/-- Read the elements of an array after the opening bracket, given the fields that are left and the
number of those that have been read. -/
def readFields (shape : Shape α) (bound count : Nat) :
    List (Field α) → α → List Char → Reading α
  | [], record, text => (closeArray text).map ((record, ·))
  | field :: fields, record, text =>
    match nextElement (count == 0) text with
    | .error failure => .error failure
    | .ok (false, rest) =>
      match (field :: fields).findIdx? (·.required) with
      | some skipped => .error (.before (.invalidLength (count + skipped) shape.sizedTitle) rest)
      | none => .ok (record, rest)
    | .ok (true, rest) =>
      match field.read record bound rest with
      | .error failure => .error failure
      | .ok (record, rest) => readFields shape bound (count + 1) fields record rest

/-- Read a record in either of its written forms. -/
def read (shape : Shape α) : Reader α := fun bound text =>
  match skipBlank text with
  | '[' :: rest => readFields shape bound 0 shape.fields shape.blank rest
  | '\x7b' :: rest => readMembers shape bound true (bound + 1) [] shape.blank rest
  | rest => .error (refuse shape.title rest)

end Shape

end PlanChart.Json
