import Std.Data.ExtTreeMap

/-!
# Issues

An issue is one work item of a plan. It names other things by reference: its assignee, its
category, its parent and the issues it depends on. A reference that is the empty text counts as
absent.
-/

namespace PlanChart

/-- A work item. -/
structure Issue where
  /-- The id under which other issues refer to this one. -/
  id : String
  summary : String := ""
  resolved : Bool := false
  /-- The id of the user the issue is assigned to. -/
  assignee : Option String := none
  /-- The id of the issue's category. -/
  category : Option String := none
  /-- The id of the issue this one is a part of. -/
  parent : Option String := none
  /-- Further values by field name. -/
  customFields : Std.ExtTreeMap String String := ∅
  /-- The ids of the issues this one depends on. -/
  dependencies : List String := []
  deriving Inhabited

namespace Issue

/-- A reference, unless it is the empty text. -/
def reference? (text : Option String) : Option String :=
  text.filter fun t => !t.isEmpty

/-- The id of the parent, if the issue names one. -/
def parentId? (issue : Issue) : Option String :=
  reference? issue.parent

/-- The id of the category: the issue's own, and else the value of the given custom field. -/
def categoryId? (issue : Issue) (categoryField : Option String) : Option String :=
  match reference? issue.category with
  | some category => some category
  | none => reference? (categoryField.bind fun field => issue.customFields[field]?)

end Issue

end PlanChart
