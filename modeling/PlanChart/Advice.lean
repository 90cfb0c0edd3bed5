/-!
# Advice

What a person reads when something fails: the message, what may have caused it and what can be done
about it.
-/

namespace PlanChart

/-- A message with possible causes and remedies, each in the order in which they are shown. -/
structure Advice where
  message : String
  causes : List String := []
  remedies : List String := []
  deriving DecidableEq, Repr, Inhabited

namespace Advice

/-- Add a possible cause after the others. -/
def addCause (advice : Advice) (cause : String) : Advice :=
  { advice with causes := advice.causes ++ [cause] }

/-- Add a remedy after the others. -/
def addRemedy (advice : Advice) (remedy : String) : Advice :=
  { advice with remedies := advice.remedies ++ [remedy] }

/-- The causes and then the remedies. -/
def suggestions (advice : Advice) : List String :=
  advice.causes ++ advice.remedies

/-- A heading with one bullet per entry, or nothing when there is no entry. -/
def bulletList (heading : String) (entries : List String) : String :=
  if entries.isEmpty then ""
  else "\n" ++ heading ++ ":\n" ++ String.join (entries.map fun entry => "  • " ++ entry ++ "\n")

/-- The text a person reads. -/
def text (advice : Advice) : String :=
  "Error: " ++ advice.message ++ "\n" ++ bulletList "Possible causes" advice.causes ++
    bulletList "To fix" advice.remedies

/-- The advice on a plan file that does not exist. -/
def planNotFound (path : String) : Advice where
  message := "Plan file not found: " ++ path
  causes := ["The path may be misspelled", "The path is resolved relative to the current directory"]
  remedies := ["Check the path: ls -l <plan>"]

end Advice

end PlanChart
