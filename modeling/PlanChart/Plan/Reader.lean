import PlanChart.Json.Record
import PlanChart.Plan

/-!
# Reading plans

The form of a plan file. Only the ids and the users' names must be written; what else is left out
has its default value.
-/

namespace PlanChart

open Json (Shape Field readText readBool readOptional readList readMap)

/-- The form of a user. -/
def User.shape : Shape User where
  name := "User"
  blank := ⟨"", ""⟩
  fields := [
    .of "id" true readText fun user id => { user with id := id },
    .of "full_name" true readText fun user name => { user with fullName := name }]

/-- The form of a category's colours. -/
def ColorPair.shape : Shape ColorPair where
  name := "CategoryColors"
  blank := {}
  fields := [
    .of "foreground" false (readOptional readText) fun colors color =>
      { colors with foreground := color },
    .of "background" false (readOptional readText) fun colors color =>
      { colors with background := color }]

/-- The form of a category. -/
def Category.shape : Shape Category where
  name := "Category"
  blank := { id := "" }
  fields := [
    .of "id" true readText fun category id => { category with id := id },
    .of "name" false readText fun category name => { category with name := name },
    .of "color" false (readOptional ColorPair.shape.read) fun category colors =>
      { category with colors := colors }]

/-- The form of an issue. -/
def Issue.shape : Shape Issue where
  name := "SourceItem"
  blank := { id := "" }
  fields := [
    .of "id" true readText fun issue id => { issue with id := id },
    .of "summary" false readText fun issue summary => { issue with summary := summary },
    .of "resolved" false readBool fun issue resolved => { issue with resolved := resolved },
    .of "assignee" false (readOptional readText) fun issue assignee =>
      { issue with assignee := assignee },
    .of "category" false (readOptional readText) fun issue category =>
      { issue with category := category },
    .of "parent" false (readOptional readText) fun issue parent => { issue with parent := parent },
    .of "custom_fields" false readMap fun issue fields => { issue with customFields := fields },
    .of "dependencies" false (readList readText) fun issue dependencies =>
      { issue with dependencies := dependencies }]

/-- The form of a plan. -/
def Plan.shape : Shape Plan where
  name := "PlanFile"
  blank := {}
  fields := [
    .of "base_url" false (readOptional readText) fun plan url => { plan with baseUrl := url },
    .of "users" false (readList User.shape.read) fun plan users => { plan with users := users },
    .of "categories" false (readList Category.shape.read) fun plan categories =>
      { plan with categories := categories },
    .of "issues" false (readList Issue.shape.read) fun plan issues =>
      { plan with issues := issues }]

/-- The plan a text holds. -/
def Plan.read (text : String) : Except Json.ReadError Plan :=
  Json.readWhole Plan.shape.read text

end PlanChart
