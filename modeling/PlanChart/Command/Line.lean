import PlanChart.Command.Invocation

/-!
# Command lines

A command line names a command and sets switches. Words that start with a hyphen are switches: two
hyphens stand before a name and one before a letter. The value of a switch is attached or is the
next word. After the word `--` no word is a switch.

What a word gives is kept pending until the next one that gives something: a value is looked at only
then. This decides which of two faults is reported.
-/

namespace PlanChart

/-- What has been given for a command so far. -/
structure Draft where
  quiet : Bool := false
  config : Option String := none
  plan : Option String := none
  baseUrl : Option String := none
  output : Option String := none
  missingDependencies : Option MissingPolicy := none
  categoryField : Option String := none
  json : Bool := false
  deriving DecidableEq, Repr, Inhabited

/-- What a switch does. -/
inductive SwitchEffect
  | flag (set : Draft → Draft)
  /-- Set a value, unless it is not a valid one. -/
  | value (set : String → Draft → Option Draft)
  /-- Stop and tell something. -/
  | stop (reason : UsageError)

/-- A switch of a command. -/
structure Switch where
  name : String
  letter : Option Char := none
  effect : SwitchEffect

namespace Switch

/-- A path must not be empty. -/
def path? (path : String) : Option String :=
  if path.isEmpty then none else some path

/-- Set the path of the plan file. -/
def setPlan (path : String) (draft : Draft) : Option Draft :=
  (path? path).map fun path => { draft with plan := some path }

/-- The switches that may stand before and after the command. -/
def everywhere : List Switch := [
  { name := "quiet", letter := 'q', effect := .flag fun draft => { draft with quiet := true } },
  { name := "config", effect := .value fun path draft =>
      (path? path).map fun path => { draft with config := some path } },
  { name := "help", letter := 'h', effect := .stop .displayHelp }]

/-- The switches before the command. -/
def beforeCommand : List Switch :=
  everywhere ++ [{ name := "version", letter := 'V', effect := .stop .displayVersion }]

/-- The switches of a check. -/
def ofCheck : List Switch :=
  everywhere ++ [
    { name := "missing-dependencies", effect := .value fun word draft =>
        (MissingPolicy.ofWord? word).map fun policy =>
          { draft with missingDependencies := some policy } },
    { name := "category-field", effect := .value fun field draft =>
        some { draft with categoryField := some field } },
    { name := "json", effect := .flag fun draft => { draft with json := true } }]

/-- The switches of a drawing. -/
def ofRender : List Switch :=
  ofCheck ++ [
    { name := "base-url", effect := .value fun url draft =>
        some { draft with baseUrl := some url } },
    { name := "output", letter := 'o', effect := .value fun path draft =>
        (path? path).map fun path => { draft with output := some path } }]

end Switch

/-- What waits for the next word: a switch that still needs its value, or a value to be set. -/
structure Pending where
  name : String
  set : String → Draft → Option Draft
  value : Option String

/-- How far a command line has been read. -/
structure Progress where
  draft : Draft := {}
  /-- The names of the switches that have been given. -/
  given : List String := []
  pending : Option Pending := none

namespace Progress

/-- Whether the next word that is no switch is the value of a switch. -/
def needsValue (progress : Progress) : Bool :=
  progress.pending.any fun pending => pending.value.isNone

/-- Set a value. -/
def setValue (progress : Progress) (name : String) (set : String → Draft → Option Draft)
    (value : String) : Except UsageError Progress :=
  if progress.given.contains name then .error .repeatedSwitch
  else
    match set value progress.draft with
    | none => .error .invalidValue
    | some draft => .ok { progress with draft := draft, given := name :: progress.given }

/-- Set the value that is pending. -/
def settle (progress : Progress) : Except UsageError Progress :=
  match progress.pending with
  | none => .ok progress
  | some ⟨_, _, none⟩ => .error .invalidValue
  | some ⟨name, set, some value⟩ => { progress with pending := none }.setValue name set value

/-- Carry out a switch to which no value is attached. -/
def apply (progress : Progress) (switch : Switch) : Except UsageError Progress := do
  let progress ← progress.settle
  match switch.effect with
  | .flag set =>
    if progress.given.contains switch.name then .error .repeatedSwitch
    else
      .ok { progress with
        draft := set progress.draft
        given := switch.name :: progress.given }
  | .value set => .ok { progress with pending := some ⟨switch.name, set, none⟩ }
  | .stop reason => .error reason

/-- Carry out a switch to which a value is attached. -/
def applyValue (progress : Progress) (switch : Switch) (value : String) :
    Except UsageError Progress :=
  match switch.effect with
  | .value set => do (← progress.settle).setValue switch.name set value
  | _ => .error .unexpectedValue

/-- Carry out a switch that is given by its name, with a value after an equals sign if there is
one. -/
def applyNamed (switches : List Switch) (progress : Progress) (word : List Char) :
    Except UsageError Progress :=
  let name := String.ofList (word.takeWhile (· ≠ '='))
  match switches.find? (·.name = name) with
  | none => .error .unknownArgument
  | some switch =>
    match word.dropWhile (· ≠ '=') with
    | [] => progress.apply switch
    | _ :: value => progress.applyValue switch (String.ofList value)

/-- Carry out switches that are given by their letters. A switch with a value takes what is left of
the word, if anything is left. -/
def applyLetters (switches : List Switch) (progress : Progress) :
    List Char → Except UsageError Progress
  | [] => .ok progress
  | letter :: rest =>
    match switches.find? (·.letter = some letter) with
    | none => .error .unknownArgument
    | some switch =>
      match switch.effect, rest with
      | .value _, '=' :: value => progress.applyValue switch (String.ofList value)
      | .value _, c :: value => progress.applyValue switch (String.ofList (c :: value))
      | _, rest => do applyLetters switches (← progress.apply switch) rest

/-- Read a word as a switch, if it looks like one. A single hyphen does not. -/
def switch? (switches : List Switch) (progress : Progress) (word : String) :
    Option (Except UsageError Progress) :=
  match word.toList with
  | '-' :: '-' :: word => some (progress.applyNamed switches word)
  | '-' :: letter :: letters => some (progress.applyLetters switches (letter :: letters))
  | _ => none

/-- Take a word as the value of the switch that needs one. -/
def takeValue (progress : Progress) (word : String) : Progress :=
  { progress with
    pending := progress.pending.map fun pending => { pending with value := some word } }

/-- Whether the plan file has been given. -/
def hasPlan (progress : Progress) : Bool :=
  progress.draft.plan.isSome || progress.pending.any (·.name = "plan")

/-- Take a word as the path of the plan file. -/
def takePlan (progress : Progress) (word : String) : Except UsageError Progress := do
  if progress.hasPlan then .error .unknownArgument
  else .ok { ← progress.settle with pending := some ⟨"plan", Switch.setPlan, some word⟩ }

/-- Read the words after the command. The flag tells whether the word `--` has been read. -/
def readCommand (switches : List Switch) (onlyPlain : Bool) (progress : Progress) :
    List String → Except UsageError Draft
  | [] => do
    let progress ← progress.settle
    if progress.draft.plan.isNone then .error .missingPlan else .ok progress.draft
  | word :: words =>
    if !onlyPlain && word = "--" then readCommand switches true progress words
    else
      match if onlyPlain then none else progress.switch? switches word with
      | some result => do readCommand switches onlyPlain (← result) words
      | none =>
        if !onlyPlain && progress.needsValue then
          readCommand switches onlyPlain (progress.takeValue word) words
        else do readCommand switches onlyPlain (← progress.takePlan word) words

end Progress

namespace Invocation

/-- The switches of the command with a name. -/
def switches? : String → Option (List Switch)
  | "render" => some Switch.ofRender
  | "check" => some Switch.ofCheck
  | _ => none

/-- Whether a word can stand in the place of the command. -/
def isCommand (word : String) : Bool :=
  (switches? word).isSome || word = "help"

/-- What is told when help on some commands is asked for. No command has commands of its own. -/
def helpOn : List String → UsageError
  | [] => .displayHelp
  | [word] => if isCommand word then .displayHelp else .unknownCommand
  | _ :: _ :: _ => .unknownCommand

/-- The invocation of a command, from what is given before and after it. What comes later counts. -/
def ofDrafts (command : String) (before after : Draft) : Invocation where
  action := if command = "render" then .render after.baseUrl after.output else .check
  plan := after.plan.getD ""
  quiet := before.quiet || after.quiet
  config := after.config <|> before.config
  missingDependencies := after.missingDependencies
  categoryField := after.categoryField
  json := after.json

/-- Read the words before the command, and then the command and those after it. The flag tells
whether the word `--` has been read. -/
def readWords (onlyPlain : Bool) (progress : Progress) :
    List String → Except UsageError Invocation
  | [] => do
    let progress ← progress.settle
    .error (if progress.given.isEmpty then .nothingGiven else .missingCommand)
  | word :: words =>
    if onlyPlain then .error (if isCommand word then .unknownArgument else .unknownCommand)
    else if word = "--" then readWords true progress words
    else
      match progress.switch? Switch.beforeCommand word with
      | some result => do readWords false (← result) words
      | none =>
        if progress.needsValue then readWords false (progress.takeValue word) words
        else if word = "help" then .error (helpOn words)
        else
          match switches? word with
          | none => .error .unknownCommand
          | some switches => do
            let after ← Progress.readCommand switches false {} words
            let before ← progress.settle
            return ofDrafts word before.draft after

/-- What a command line asks for. -/
def read (words : List String) : Except UsageError Invocation :=
  readWords false {} words

end Invocation

end PlanChart
