/-!
# Access to files

What a run needs of the files around it: reading a whole file as text and writing one. A path that
does not start with a slash is relative to the working directory.
-/

namespace PlanChart

/-- Why a file cannot be accessed. -/
inductive FileError
  | notFound
  /-- A part of the path before the last names a file. -/
  | notDirectory
  /-- The path names a directory. -/
  | isDirectory
  /-- The path or a name in it is too long. -/
  | nameTooLong
  /-- The path holds a null character. -/
  | nullInPath
  /-- The content of the file is no text. -/
  | notText
  /-- Any other reason, in words. -/
  | other (reason : String)
  deriving DecidableEq, Repr

namespace FileError

/-- What is said of an error. -/
def message : FileError → String
  | notFound => "No such file or directory (os error 2)"
  | notDirectory => "Not a directory (os error 20)"
  | isDirectory => "Is a directory (os error 21)"
  | nameTooLong => "File name too long (os error 36)"
  | nullInPath => "file name contained an unexpected NUL byte"
  | notText => "stream did not contain valid UTF-8"
  | other reason => reason

/-- Whether an error on reading a path shows that nothing is there. -/
def isAbsence : FileError → Bool
  | notFound => true
  | notDirectory => true
  | nameTooLong => true
  | nullInPath => true
  | _ => false

end FileError

/-- A way to access files. -/
structure FileAccess (m : Type → Type) where
  /-- Read the file at a path. -/
  read : String → m (Except FileError String)
  /-- Write a text to the file at a path, which may exist already. -/
  write : String → String → m (Except FileError Unit)

/-- Whether something is at a path. -/
def FileAccess.holds {m : Type → Type} [Monad m] (files : FileAccess m) (path : String) :
    m Bool := do
  match ← files.read path with
  | .error error => return !error.isAbsence
  | .ok _ => return true

end PlanChart
