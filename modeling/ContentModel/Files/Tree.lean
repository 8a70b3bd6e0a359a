import ContentModel.Keyed
import ContentModel.Text.Split

/-
# File trees

A directory holds files and directories by name.  Reading, writing and creating directories answer as a
file system does, with its errors.  A failed operation changes nothing, except that directories created on
the way to one that cannot be created stay.

Paths are given by their names from the root down.
-/

namespace ContentModel.Files

/-! ## Entries and errors -/

/-- What stands under a name. -/
inductive Entry where
  | file (text : String)
  | directory (entries : List (String × Entry))
  deriving Repr, Inhabited

/-- Why a file system refuses an operation. -/
inductive OsError where
  | noSuchEntry
  | fileExists
  | notADirectory
  | isADirectory
  deriving DecidableEq, Repr, Inhabited

/-- The wording of an error, with its number. -/
def OsError.message : OsError → String
  | .noSuchEntry => "No such file or directory (os error 2)"
  | .fileExists => "File exists (os error 17)"
  | .notADirectory => "Not a directory (os error 20)"
  | .isADirectory => "Is a directory (os error 21)"

/-- The names that lead to an entry. -/
abbrev Path := List String

namespace Entry

/-- The empty directory. -/
def empty : Entry :=
  directory []

/-! ## Operations -/

/-- The entry at a path. -/
def at? : Path → Entry → Except OsError Entry
  | [], e => .ok e
  | _ :: _, file _ => .error .notADirectory
  | name :: path, directory entries =>
    match Keyed.get? name entries with
    | some e => at? path e
    | none => .error .noSuchEntry

/-- The text of the file at a path. -/
def read (path : Path) (root : Entry) : Except OsError String :=
  match root.at? path with
  | .ok (file text) => .ok text
  | .ok (directory _) => .error .isADirectory
  | .error e => .error e

/-- Writes a file, whose directory must be there. -/
def write (text : String) : Path → Entry → Except OsError Entry
  | [], file _ => .ok (file text)
  | [], directory _ => .error .isADirectory
  | _ :: _, file _ => .error .notADirectory
  | name :: path, directory entries =>
    match Keyed.get? name entries, path with
    | some e, path => (write text path e).map fun e => directory (Keyed.put name e entries)
    | none, [] => .ok (directory (Keyed.put name (file text) entries))
    | none, _ :: _ => .error .noSuchEntry

/-- Creates a directory and those above it, as far as they are missing. -/
def createDirectories : Path → Entry → Except OsError Entry
  | [], directory entries => .ok (directory entries)
  | [], file _ => .error .fileExists
  | _ :: _, file _ => .error .notADirectory
  | name :: path, directory entries =>
    (createDirectories path ((Keyed.get? name entries).getD empty)).map fun e =>
      directory (Keyed.put name e entries)

mutual

/-- All files with their paths, below a path. -/
def filesBelow (above : Path) : Entry → List (Path × String)
  | file text => [(above, text)]
  | directory entries => filesOf above entries

/-- All files of a list of entries. -/
def filesOf (above : Path) : List (String × Entry) → List (Path × String)
  | [] => []
  | (name, e) :: entries => filesBelow (above ++ [name]) e ++ filesOf above entries

end

/-- All files with their paths. -/
def files (root : Entry) : List (Path × String) :=
  filesBelow [] root

end Entry

/-! ## Paths as texts -/

/-- The parts of a path's text between slashes. -/
def segments (path : String) : List String :=
  (Text.splitOn '/' path.toList).map String.ofList

/-- A path as a text. -/
def joinPath (path : Path) : String :=
  "/".intercalate path

/-- The text of a path below a root; the root may be empty. -/
def below (root path : String) : String :=
  if root = "" then path
  else if root.toList.getLast? = some '/' then root ++ path
  else root ++ "/" ++ path

/-- Where the text of a path starts.  A leading slash stands for a name of its own. -/
def rootStart (path : String) : Path :=
  if path.toList.head? = some '/' then ["/"] else []

/-- The directory that a path stands in, if its text names one. -/
def parent? (path : String) : Option String :=
  match (segments path).dropLast with
  | [] => none
  | [""] => some "/"
  | names => some (joinPath names)

/-- What follows the last point of a path's last name, unless that name only starts with a point. -/
def extension? (path : String) : Option String :=
  match ((segments path).filter fun s => s ≠ "" ∧ s ≠ ".").getLast? with
  | none => none
  | some ".." => none
  | some name =>
    let reversed := name.toList.reverse
    match reversed.dropWhile (· ≠ '.') with
    | [] | ['.'] => none
    | _ :: _ => some (String.ofList (reversed.takeWhile (· ≠ '.')).reverse)

/-! ## A working directory -/

/-- The files below a working directory. -/
structure Tree where
  root : Entry
  deriving Repr, Inhabited

namespace Tree

/-- The empty working directory. -/
def empty : Tree :=
  ⟨.empty⟩

/-- Whether a path has a directory above it in the tree.  What is above the working directory is not in
the tree, and stands for a name of its own. -/
def hasParent (path : Path) : Bool :=
  path != [] && path.getLast? != some ".."

/-- One part of a path's text, after the names that lead to where it stands.  What is no name leads
back or nowhere, and only from a directory. -/
def enter (t : Tree) (path : Path) (segment : String) : Except OsError Path :=
  if segment = "" ∨ segment = "." then
    match t.root.at? path with
    | .ok (.file _) => .error .notADirectory
    | _ => .ok path
  else if segment = ".." ∧ hasParent path then
    match t.root.at? path with
    | .ok (.directory _) => .ok path.dropLast
    | .ok (.file _) => .error .notADirectory
    | .error e => .error e
  else .ok (path ++ [segment])

/-- The names that the text of a path stands for. -/
def resolve (t : Tree) (path : String) : Except OsError Path :=
  if path = "" then .error .noSuchEntry else (segments path).foldlM t.enter (rootStart path)

/-- A path, if a directory stands there. -/
def directory (t : Tree) (path : Path) : Except OsError Path :=
  match t.root.at? path with
  | .ok (.directory _) => .ok path
  | .ok (.file _) => .error .notADirectory
  | .error e => .error e

/-- The names of the file that the text of a path asks to write.  The text has to end in the name of
the file, below a directory that is there. -/
def target (t : Tree) (path : String) : Except OsError Path :=
  if path = "" then .error .noSuchEntry
  else
    match (segments path).reverse.dropWhile (· = "") with
    | [] => .error .isADirectory
    | last :: above => do
      let above ← t.directory (← above.reverse.foldlM t.enter (rootStart path))
      if last = "." ∨ last = ".." ∨ path.toList.getLast? = some '/' then .error .isADirectory
      else .ok (above ++ [last])

/-- The text of a file. -/
def read (path : String) (t : Tree) : Except OsError String := do
  t.root.read (← t.resolve path)

/-- Whether there is a file or directory. -/
def has (path : String) (t : Tree) : Bool :=
  match t.resolve path with
  | .ok p => (t.root.at? p).isOk
  | .error _ => false

/-- Writes a file. -/
def write (path text : String) (t : Tree) : Except OsError Tree := do
  (t.root.write text (← t.target path)).map Tree.mk

/-- Enters a part of a path, and creates the directory that it names if nothing stands there. -/
def enterCreating (t : Tree) (path : Path) (segment : String) : Except OsError (Path × Tree) := do
  let path ← t.enter path segment
  match t.root.at? path with
  | .ok (.directory _) => .ok (path, t)
  | .ok (.file _) => .error .fileExists
  | .error _ => (t.root.createDirectories path).map fun root => (path, ⟨root⟩)

/-- Enters the parts of a path one after the other, and creates the directories that are missing. -/
def createAlong : List String → Path → Tree → Except OsError Unit × Tree
  | [], _, t => (.ok (), t)
  | segment :: segments, path, t =>
    match t.enterCreating path segment with
    | .ok (path, t) => createAlong segments path t
    | .error e => (.error e, t)

/-- Creates a directory and those above it, as far as they are missing; the empty path needs none.  A
path that leads through a file is refused before any directory is created. -/
def createDirectories (path : String) (t : Tree) : Except OsError Unit × Tree :=
  if path = "" then (.ok (), t)
  else
    match t.resolve path >>= fun p => t.root.at? p with
    | .error .notADirectory => (.error .notADirectory, t)
    | _ => createAlong (segments path) (rootStart path) t

/-- Places a file, or a directory if no text is given, and the directories above it. -/
def place (path : String) (text : Option String) (t : Tree) : Except OsError Tree := do
  let path ← t.resolve path
  match text with
  | some text => ((← t.root.createDirectories path.dropLast).write text path).map Tree.mk
  | none => (t.root.createDirectories path).map Tree.mk

/-- All files with their paths. -/
def files (t : Tree) : List (String × String) :=
  t.root.files.map fun (path, text) => (joinPath path, text)

/-- The files that were not there before, or were there with another text. -/
def changesSince (t before : Tree) : List (String × String) :=
  let old := before.files
  t.files.filter fun f => !old.contains f

end Tree

end ContentModel.Files
