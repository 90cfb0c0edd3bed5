import PlanChart.Json.Printer
import PlanChart.Plan

/-!
# Writing plans

The JSON value of a plan. What may be left out of a plan file is written all the same, with one
exception: the custom fields of an issue that has none.
-/

namespace PlanChart

/-- The value of a user. -/
def User.toJson (user : User) : Json :=
  .object [("id", .string user.id), ("full_name", .string user.fullName)]

/-- The value of a category's colours. -/
def ColorPair.toJson (colors : ColorPair) : Json :=
  .object [("foreground", .ofText? colors.foreground), ("background", .ofText? colors.background)]

/-- The value of a category. -/
def Category.toJson (category : Category) : Json :=
  .object [
    ("id", .string category.id),
    ("name", .string category.name),
    ("color", (category.colors.map ColorPair.toJson).getD .null)]

/-- The member of an issue that holds its custom fields, unless there are none. -/
def Issue.customMember (issue : Issue) : List (String × Json) :=
  let fields := issue.customFields.toList
  if fields.isEmpty then []
  else [("custom_fields", .object (fields.map fun (name, value) => (name, .string value)))]

/-- The value of an issue. -/
def Issue.toJson (issue : Issue) : Json :=
  .object ([
    ("id", .string issue.id),
    ("summary", .string issue.summary),
    ("resolved", .bool issue.resolved),
    ("assignee", .ofText? issue.assignee),
    ("category", .ofText? issue.category),
    ("parent", .ofText? issue.parent)] ++
    issue.customMember ++
    [("dependencies", .ofTexts issue.dependencies)])

/-- The value of a plan. -/
def Plan.toJson (plan : Plan) : Json :=
  .object [
    ("base_url", .ofText? plan.baseUrl),
    ("users", .array (plan.users.map User.toJson)),
    ("categories", .array (plan.categories.map Category.toJson)),
    ("issues", .array (plan.issues.map Issue.toJson))]

/-- The text of a plan file. -/
def Plan.write (plan : Plan) : String :=
  plan.toJson.print

end PlanChart
