import ContentModel.Files.Tree
import ContentModel.Json.Printer
import ContentModel.Schema.Codec

/-
# Definition documents

A definition of an entity or of a component, as a JSON value, with the place where it belongs below the
root of a project.  A document whose name is no single path segment has no place.
-/

namespace ContentModel.Definition

open Notation (Node)

/-! ## Documents -/

/-- What a document defines. -/
inductive Kind where
  | entity | component
  deriving DecidableEq, Repr, Inhabited

/-- The word for a kind. -/
def Kind.tag : Kind → String
  | .entity => "entity"
  | .component => "component"

/-- A definition and its place. -/
structure Document where
  kind : Kind
  /-- The entity that the definition stems from. -/
  entity : String
  /-- The singular of the entity's name, or the name of the component's field. -/
  name : String
  fileName : String
  /-- Where the file belongs, in words. -/
  hint : String
  content : Json.Value
  deriving DecidableEq, Repr, Inhabited

/-- Why a document cannot be written. -/
inductive WriteError where
  | invalidName (name : String)
  | io (reason : Files.OsError)
  deriving DecidableEq, Repr, Inhabited

/-- The wording of an error. -/
def WriteError.message : WriteError → String
  | .invalidName name => "Invalid document name '" ++ name ++ "': not a single path segment"
  | .io reason => "IO error: " ++ reason.message

/-! ## Places -/

/-- Whether a name is a single segment of a path. -/
def isSegment (name : String) : Bool :=
  name != "" && name != "." && name != ".." &&
    name.toList.all fun c => c != '/' && c != '\\' && c != '\x00'

namespace Document

/-- A name as a segment. -/
def segment (name : String) : Except WriteError String :=
  if isSegment name then .ok name else .error (.invalidName name)

/-- The directory of a document of a given name. -/
def directory (kind : Kind) (name : String) : Files.Path :=
  match kind with
  | .entity => ["src", "api", name, "content-types", name]
  | .component => ["src", "components", name]

/-- The directory and the file name of a document, below the root of a project. -/
def place (d : Document) : Except WriteError (Files.Path × String) := do
  let name ← segment d.name
  let fileName ← segment d.fileName
  .ok (directory d.kind name, fileName)

/-- The path of a document below the root of a project. -/
def relativePath (d : Document) : Except WriteError String :=
  d.place.map fun (directory, fileName) => Files.joinPath (directory ++ [fileName])

/-- The text of a document. -/
def text (d : Document) : String :=
  d.content.pretty

/-- Creates the directories of a file and writes the file.  Directories stay when writing fails. -/
def writeFile (parent fileName text : String) (t : Files.Tree) :
    Except Files.OsError Unit × Files.Tree :=
  match t.createDirectories parent with
  | (.error e, t) => (.error e, t)
  | (.ok (), t) =>
    match t.write (Files.below parent fileName) text with
    | .error e => (.error e, t)
    | .ok t => (.ok (), t)

/-- Writes a document below a root; shows the path of its file. -/
def write (root : String) (d : Document) (t : Files.Tree) :
    Except WriteError String × Files.Tree :=
  match d.place with
  | .error e => (.error e, t)
  | .ok (directory, fileName) =>
    let parent := Files.below root (Files.joinPath directory)
    match writeFile parent fileName d.text t with
    | (.ok (), t) => (.ok (Files.below parent fileName), t)
    | (.error e, t) => (.error (.io e), t)

/-! ## Documents as JSON values -/

/-- A document as a JSON value. -/
def toValue (d : Document) : Json.Value :=
  .object [("kind", .string d.kind.tag), ("entity", .string d.entity), ("name", .string d.name),
    ("fileName", .string d.fileName), ("hint", .string d.hint), ("content", d.content)]

/-- The names of a document's fields, as declared. -/
def declared : List String :=
  ["kind", "entity", "name", "fileName", "hint", "content"]

/-- The content of a document that is given as a value. -/
def contentOf? : Json.Value → Option Json.Value
  | .object members => Keyed.get? "content" members
  | .array items => Keyed.get? "content" (declared.zip items)
  | _ => none

/-- Reads a kind. -/
def kindOfNode? (n : Node) : Option Kind :=
  n.word?.bind fun word => [Kind.entity, Kind.component].find? fun k => k.tag = word

/-- Reads a document. -/
def ofValue? (v : Json.Value) : Option Document := do
  let fields ← (Node.ofValue v).fields? declared
  some {
    kind := ← Node.required "kind" kindOfNode? fields
    entity := ← Node.required "entity" Node.text? fields
    name := ← Node.required "name" Node.text? fields
    fileName := ← Node.required "fileName" Node.text? fields
    hint := ← Node.required "hint" Node.text? fields
    content := ← contentOf? v }

end Document

end ContentModel.Definition
