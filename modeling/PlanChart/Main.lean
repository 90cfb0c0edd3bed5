import PlanChart.Command.Line
import PlanChart.Command.Run
import PlanChart.Command.Usage
import Std.Time

/-!
# The program

The outer layer: it takes the command line, the files, the environment and the time from the system
and prints what a run leaves behind.
-/

namespace PlanChart.Main

/-- The number of an error, which the system may report with the opposite sign. -/
def errorNumber (code : UInt32) : Nat :=
  min code.toNat (4294967296 - code.toNat)

/-- The error on accessing a file, as the system reports it. -/
def fileError (error : IO.Error) : FileError :=
  match error with
  | .noFileOrDirectory .. => .notFound
  | .inappropriateType _ code _ =>
    match errorNumber code with
    | 20 => .notDirectory
    | 21 => .isDirectory
    | _ => .other (toString error)
  | .invalidArgument _ code _ =>
    match errorNumber code with
    | 36 => .nameTooLong
    | _ => .other (toString error)
  | .permissionDenied .. => .other "Permission denied (os error 13)"
  | .resourceExhausted _ code _ =>
    match errorNumber code with
    | 28 => .other "No space left on device (os error 28)"
    | _ => .other (toString error)
  | error => .other (toString error)

/-- Read the file at a path. -/
def readFile (path : String) : IO (Except FileError String) := do
  try
    match String.fromUTF8? (← IO.FS.readBinFile path) with
    | some text => return .ok text
    | none => return .error .notText
  catch error => return .error (fileError error)

/-- Write a text to the file at a path. -/
def writeFile (path text : String) : IO (Except FileError Unit) := do
  try
    IO.FS.writeFile path text
    return .ok ()
  catch error => return .error (fileError error)

/-- The directory with the user's configurations, from the environment. -/
def configDirectory : IO (Option String) := do
  match ← IO.getEnv "XDG_CONFIG_HOME" with
  | some path => if path.startsWith "/" then return some path else fallback
  | none => fallback
where
  /-- The usual place below the user's home directory. -/
  fallback : IO (Option String) := do
    return (← IO.getEnv "HOME").map (· ++ "/.config")

/-- Where the program runs. -/
def surroundings : IO Surroundings := do
  let now ← Std.Time.Timestamp.now
  return {
    workingDirectory := toString (← IO.currentDir)
    configDirectory := ← configDirectory
    time := (Std.Time.DateTime.ofTimestamp now Std.Time.TimeZone.ZoneRules.UTC).toISO8601String }

/-- Print the output and the notes of a run. -/
def printResult (stdout stderr : String) : IO Unit := do
  IO.eprint stderr
  IO.print stdout

end PlanChart.Main

open PlanChart in
/-- Run the program. -/
def main (words : List String) : IO UInt32 := do
  match Invocation.read words with
  | .error error =>
    Main.printResult error.stdout error.stderr
    return UInt32.ofNat error.exitNumber
  | .ok invocation =>
    let result ← invocation.run ⟨Main.readFile, Main.writeFile⟩ (← Main.surroundings)
    Main.printResult result.stdout result.stderr
    return UInt32.ofNat result.status.number
