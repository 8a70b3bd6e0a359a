import ContentModel.Command.Basic
import ContentModel.Command.Summary
import ContentModel.Definition.Export

/-
# Exporting definitions from the command line

Nothing is written unless every document has a place.
-/

namespace ContentModel.Command

/-- What to export. -/
structure ExportArguments where
  /-- The dataset to infer the schema from, if no schema is given. -/
  dataset : Option String
  schema : Option String
  /-- The root of the project that the definitions belong to. -/
  outDir : String
  deriving DecidableEq, Repr, Inhabited

/-- The schema to export. -/
def exportedSchema (args : ExportArguments) (env : Environment) : Except Error Schema :=
  match args.schema, args.dataset with
  | some path, _ => loadSchema path env.files
  | none, some path => (loadDataset path env.files).map (Schema.infer env.settings.inference)
  | none, none => .error .nothingToExport

/-- The first complaint about a document without a place. -/
def checkPlaces (documents : List Definition.Document) : Except Definition.WriteError Unit :=
  documents.forM fun d => d.place.map fun _ => ()

/-- Writes documents below a root, if each has a place. -/
def writeDocuments (root : String) (documents : List Definition.Document) (files : Files.Tree) :
    Except Definition.WriteError Unit × Files.Tree :=
  match checkPlaces documents with
  | .error e => (.error e, files)
  | .ok () => Definition.writeAll root documents files

/-- Exports the definitions of a schema. -/
def exportDefinitions (args : ExportArguments) (env : Environment) : Outcome :=
  match exportedSchema args env with
  | .error e => .failed e env.files
  | .ok s =>
    let documents := Definition.exportSchema env.settings.exporting s
    match writeDocuments args.outDir documents env.files with
    | (.error e, files) => .failed (.definition e) files
    | (.ok (), files) => ⟨.ok (), files, "", Definition.summary documents, [], []⟩

end ContentModel.Command
