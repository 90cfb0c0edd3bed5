import PlanChart.MissingPolicy

/-!
# Invocations

What the command line asks for: which command is to be run on which plan file, and what is set for
it.
-/

namespace PlanChart

/-- A command, with what can be set for it alone. -/
inductive Action
  /-- Draw the plan. -/
  | render (baseUrl output : Option String)
  /-- Report what is wrong with the plan. -/
  | check
  deriving DecidableEq, Repr

/-- The name of a command. -/
def Action.name : Action → String
  | .render .. => "render"
  | .check => "check"

/-- What the command line asks for. -/
structure Invocation where
  action : Action
  /-- The path of the plan file. -/
  plan : String
  /-- Whether notes are left out. -/
  quiet : Bool := false
  /-- The path of a configuration file. -/
  config : Option String := none
  missingDependencies : Option MissingPolicy := none
  categoryField : Option String := none
  /-- Whether the output is for other programs. -/
  json : Bool := false
  deriving DecidableEq, Repr

/-- Whether notes for a person are printed. -/
def Invocation.isChatty (invocation : Invocation) : Bool :=
  !invocation.quiet && !invocation.json

/-- Why a command line asks for nothing that can be run. -/
inductive UsageError
  /-- Help is asked for. -/
  | displayHelp
  /-- The version is asked for. -/
  | displayVersion
  /-- There is nothing on the command line. -/
  | nothingGiven
  | missingCommand
  | unknownCommand
  | missingPlan
  | unknownArgument
  | invalidValue
  /-- A switch without a value is given one. -/
  | unexpectedValue
  /-- A switch is repeated. -/
  | repeatedSwitch
  deriving DecidableEq, Repr

/-- The number of the status of a program that is not run. To ask for help or for the version is no
error. -/
def UsageError.exitNumber : UsageError → Nat
  | .displayHelp => 0
  | .displayVersion => 0
  | _ => 2

end PlanChart
