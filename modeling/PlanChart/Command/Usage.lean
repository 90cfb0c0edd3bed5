import PlanChart.Command.Invocation

/-!
# Telling about usage

What is printed when a command line asks for nothing that can be run.
-/

namespace PlanChart.UsageError

/-- The version of the program. -/
def version : String := "planviz 0.1.0"

/-- How the program is used. -/
def help : String :=
  "Render issue plans as Graphviz diagrams

Usage: planviz [OPTIONS] <COMMAND>

Commands:
  render <PLAN>  Compile a plan file into a DOT document
  check <PLAN>   Report every problem in a plan file without rendering it
  help           Print this message

Options:
  -q, --quiet          Suppress non-essential output (for scripting)
      --config <FILE>  Read configuration from this file instead of ./planviz.toml
  -h, --help           Print help
  -V, --version        Print version

Options of both commands:
      --missing-dependencies <reject|drop>  What to do with dependencies on unknown issues
      --category-field <FIELD>              Custom field holding the category
      --json                                Output as JSON

Options of render:
      --base-url <URL>   Tracker base URL for issue links
  -o, --output <FILE>    Output file (prints to stdout if omitted)
"

/-- What is wrong with a command line. -/
def complaint : UsageError → String
  | displayHelp => ""
  | displayVersion => ""
  | nothingGiven => ""
  | missingCommand => "error: a command is required\n\n"
  | unknownCommand => "error: unrecognized command\n\n"
  | missingPlan => "error: the path of a plan file is required\n\n"
  | unknownArgument => "error: unexpected argument\n\n"
  | invalidValue => "error: invalid or missing value\n\n"
  | unexpectedValue => "error: unexpected value\n\n"
  | repeatedSwitch => "error: an option cannot be used more than once\n\n"

/-- What is printed as output. -/
def stdout : UsageError → String
  | displayHelp => help
  | displayVersion => version ++ "\n"
  | _ => ""

/-- What is printed as an error. -/
def stderr : UsageError → String
  | displayHelp => ""
  | displayVersion => ""
  | error => error.complaint ++ help

end PlanChart.UsageError
