/-!
# Exit statuses

How a run of the program ended, as the number that the caller of the program sees. Every error code
belongs to one of them.
-/

namespace PlanChart

/-- How a run ended. -/
inductive ExitStatus
  | success
  | genericError
  /-- The command line, a configuration or a plan file cannot be read. -/
  | invalidArgument
  /-- A file does not exist. -/
  | notFound
  /-- The plan has errors. -/
  | validationFailed
  /-- A file cannot be accessed. -/
  | externalError
  deriving DecidableEq, Repr, Inhabited

namespace ExitStatus

/-- The number of a status. -/
def number : ExitStatus → Nat
  | success => 0
  | genericError => 1
  | invalidArgument => 2
  | notFound => 3
  | validationFailed => 4
  | externalError => 10

/-- The status that goes with an error code. -/
def ofCode : String → ExitStatus
  | "FILE_NOT_FOUND" => notFound
  | "INVALID_COLOR" => validationFailed
  | "UNRESOLVED_DEPENDENCY" => validationFailed
  | "PARENT_CYCLE" => validationFailed
  | "DUPLICATE_ITEM" => validationFailed
  | "IDENTIFIER_COLLISION" => validationFailed
  | "RESERVED_IDENTIFIER" => validationFailed
  | "PARSE_ERROR" => invalidArgument
  | "IO_ERROR" => externalError
  | _ => genericError

end ExitStatus

end PlanChart
