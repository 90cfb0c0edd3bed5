import PlanChart.Text.Blank

/-!
# Base URLs

A base URL stands in front of the path of an issue. Unless it is empty it ends with a slash.
-/

namespace PlanChart.BaseUrl

/-- A base URL without blank characters around it and, unless it is empty, with a slash at its
end. -/
def normalize (url : String) : String :=
  let trimmed := Blank.trim url
  if trimmed.isEmpty || trimmed.toList.getLast? == some '/' then trimmed else trimmed ++ "/"

end PlanChart.BaseUrl
