import PlanChart.Files.Access

/-!
# Trees of files

A file system as a value: what is at each place, and which place is the working directory. A path
that starts with a slash leads from the root, any other path from the working directory. Every part
of a path but the last must name a directory, and a path that ends with a slash names a directory.
-/

namespace PlanChart

/-- What is at a place in a tree. -/
inductive FileEntry
  | file (content : ByteArray)
  | directory
  /-- A device always gives the same content, and what is written to it is lost unless it refuses
  that. -/
  | device (content : ByteArray) (refusal : Option FileError)
  deriving Inhabited

/-- A file system. A place in it is the list of the names on the way from the root to it. -/
structure FileTree where
  /-- What is at each place, in any order. -/
  entries : List (List String × FileEntry) := []
  /-- The place of the working directory. -/
  workingPlace : List String := []

namespace FileTree

/-- The largest number of bytes of a name. -/
def maxName : Nat := 255

/-- The largest number of bytes of a path. -/
def maxPath : Nat := 4095

/-- What is at a place. The root is always a directory. -/
def entry? (tree : FileTree) (place : List String) : Option FileEntry :=
  if place.isEmpty then some .directory else tree.entries.lookup place

/-- Take away what is at a place. -/
def clear (tree : FileTree) (place : List String) : FileTree :=
  { tree with entries := tree.entries.filter fun other => other.1 != place }

/-- Put an entry at a place. -/
def put (tree : FileTree) (place : List String) (entry : FileEntry) : FileTree :=
  let tree := tree.clear place
  { tree with entries := (place, entry) :: tree.entries }

/-! ### Paths -/

/-- The parts of a path between its slashes. -/
def parts (path : String) : List String :=
  (path.toList.splitOn '/').map String.ofList

/-- The place from which a path leads. -/
def start (tree : FileTree) (path : String) : List String :=
  if path.startsWith "/" then [] else tree.workingPlace

/-- The place to which a part of a path leads from a place. Nothing is above the root. -/
def next (place : List String) (part : String) : List String :=
  if part = "" ∨ part = "." then place
  else if part = ".." then place.dropLast
  else place ++ [part]

/-- The place to which the parts of a path lead from a place. Nothing need be there, but what is
passed on the way must be a directory. -/
def follow (tree : FileTree) (place : List String) : List String → Except FileError (List String)
  | [] => .ok place
  | part :: parts =>
    match tree.entry? place with
    | none => .error .notFound
    | some .directory =>
      if maxName < part.utf8ByteSize then .error .nameTooLong
      else tree.follow (next place part) parts
    | some _ => .error .notDirectory

/-- The place to which the first parts of a path lead. -/
def locateParts (tree : FileTree) (path : String) (parts : List String) :
    Except FileError (List String) :=
  if path.toList.contains '\x00' then .error .nullInPath
  else if path.isEmpty then .error .notFound
  else if maxPath < path.utf8ByteSize then .error .nameTooLong
  else tree.follow (tree.start path) parts

/-- The place to which a path leads. -/
def locate (tree : FileTree) (path : String) : Except FileError (List String) :=
  tree.locateParts path (parts path)

/-! ### Reading -/

/-- The content of the file at a path. -/
def readBytes (tree : FileTree) (path : String) : Except FileError ByteArray := do
  match tree.entry? (← tree.locate path) with
  | none => .error .notFound
  | some .directory => .error .isDirectory
  | some (.file content) => .ok content
  | some (.device content _) => .ok content

/-- The text of the file at a path. -/
def readText (tree : FileTree) (path : String) : Except FileError String := do
  match String.fromUTF8? (← tree.readBytes path) with
  | none => .error .notText
  | some text => .ok text

/-! ### Writing -/

/-- The parts of a path up to the directory around what it names, and an empty part by which that
must be a directory. -/
def outerParts (path : String) : List String :=
  ((parts path).reverse.dropWhile (· = "")).tail.reverse ++ [""]

/-- The tree after a content is written to a path. A path that ends with a slash can name only a
directory, whether something is there or not, so that its last name is not looked up. -/
def writeBytes (tree : FileTree) (path : String) (content : ByteArray) :
    Except FileError FileTree := do
  if path.endsWith "/" then
    let _ ← tree.locateParts path (outerParts path)
    .error .isDirectory
  else
    let place ← tree.locate path
    match tree.entry? place with
    | some .directory => .error .isDirectory
    | some (.device _ (some refusal)) => .error refusal
    | some (.device _ none) => .ok tree
    | some (.file _) => .ok (tree.put place (.file content))
    | none => .ok (tree.put place (.file content))

/-- The tree after a text is written to a path. -/
def writeText (tree : FileTree) (path text : String) : Except FileError FileTree :=
  tree.writeBytes path text.toUTF8

/-- The tree after the file at a path is removed. -/
def removeFile (tree : FileTree) (path : String) : Except FileError FileTree := do
  let place ← tree.locate path
  match tree.entry? place with
  | none => .error .notFound
  | some .directory => .error .isDirectory
  | some _ => .ok (tree.clear place)

/-- The tree with a directory at every place to which the parts of a path lead from a place, as far
as nothing is in the way. -/
def makeDirectories (tree : FileTree) (place : List String) : List String → FileTree
  | [] => tree
  | part :: parts =>
    if maxName < part.utf8ByteSize then tree
    else
      let inner := next place part
      match tree.entry? inner with
      | none => (tree.put inner .directory).makeDirectories inner parts
      | some .directory => tree.makeDirectories inner parts
      | some _ => tree

/-- The tree in which a path leads to a directory, as far as nothing is in the way. -/
def makeDirectory (tree : FileTree) (path : String) : FileTree :=
  tree.makeDirectories (tree.start path) (parts path)

/-- The tree in which the directory around what a path names is there, as far as nothing is in the
way. Parts of the path that lead nowhere else count for nothing. -/
def makeParent (tree : FileTree) (path : String) : FileTree :=
  let steps := (parts path).filter fun part => part != "" && part != "."
  tree.makeDirectories (tree.start path) steps.dropLast

/-- Access to the files of a tree that is kept as a state. -/
def access : FileAccess (StateM FileTree) where
  read path := return (← get).readText path
  write path text := do
    match (← get).writeText path text with
    | .error error => return .error error
    | .ok tree =>
      set tree
      return .ok ()

end FileTree

end PlanChart
