import ContentModel.Definition.Document
import ContentModel.Http.Source
import ContentModel.Schema.Text
import ContentModel.Settings.File

/-
# Commands

A command starts from files, a network and settings.  Its outcome shows what it answers, the files
afterwards, what it writes to the terminal and logs, and the requests that it sends, with their replies.
-/

namespace ContentModel.Command

/-! ## Errors -/

/-- Why a command fails. -/
inductive Error where
  | unreadableFile (path : String) (reason : Files.OsError)
  | unwritableFile (path : String) (reason : Files.OsError)
  | unknownFormat (format : String)
  | nothingToExport
  | noRoutes
  | settings (reason : SettingsError)
  | dataset (reason : DatasetError)
  /-- The text of a file is no schema. -/
  | notASchema (path : String)
  | definition (reason : Definition.WriteError)
  | dump (reason : Http.DumpError)
  | recordsFailed (failed : Nat)
  | notMigrated
  deriving DecidableEq, Repr, Inhabited

/-- The wording of an error. -/
def Error.message : Error → String
  | unreadableFile path reason => "Failed to read " ++ path ++ ": " ++ reason.message
  | unwritableFile path reason => "Failed to write " ++ path ++ ": " ++ reason.message
  | unknownFormat format => "Invalid argument: Unknown format: " ++ format
  | nothingToExport => "Invalid argument: Either a dataset or --schema is required"
  | noRoutes => "Invalid argument: No routes given and none configured"
  | settings reason => "Config error: " ++ reason.message
  | dataset reason => "Inference error: " ++ reason.message
  | notASchema path => "Inference error: " ++ path ++ " does not hold a schema"
  | definition reason => "Export error: " ++ reason.message
  | dump reason => "Migration error: " ++ reason.message
  | recordsFailed failed => "Migration error: " ++ failedMessage failed
  | notMigrated => "Migration error: Some records were not migrated"

/-! ## Outcomes -/

/-- What a command starts from. -/
structure Environment where
  files : Files.Tree
  network : Http.Network
  settings : Settings

/-- What a command finds after some requests. -/
def Environment.after (env : Environment) (sent : List Http.Request) : Environment :=
  { env with network := env.network.after sent }

/-- What a command does. -/
structure Outcome where
  result : Except Error Unit
  files : Files.Tree
  stdout : String
  stderr : String
  log : List LogLine
  exchanges : List Http.Exchange

namespace Outcome

/-- A command that ends before it does anything. -/
def failed (e : Error) (files : Files.Tree) : Outcome :=
  ⟨.error e, files, "", "", [], []⟩

/-- A command after it wrote to the terminal. -/
def report (text : String) (o : Outcome) : Outcome :=
  { o with stderr := text ++ o.stderr }

/-- A command after it logged lines. -/
def logged (lines : List LogLine) (o : Outcome) : Outcome :=
  { o with log := lines ++ o.log }

/-- A command after it sent requests. -/
def exchanging (exchanges : List Http.Exchange) (o : Outcome) : Outcome :=
  { o with exchanges := exchanges ++ o.exchanges }

end Outcome

/-! ## Reading and writing -/

/-- Reads a dataset from a file. -/
def loadDataset (path : String) (files : Files.Tree) : Except Error Dataset :=
  match files.read path with
  | .error reason => .error (.unreadableFile path reason)
  | .ok text => (Dataset.ofText text).mapError .dataset

/-- Reads a schema from a file; the name of the file says how. -/
def loadSchema (path : String) (files : Files.Tree) : Except Error Schema :=
  match files.read path with
  | .error reason => .error (.unreadableFile path reason)
  | .ok text =>
    match Schema.ofFileText? path text with
    | some s => .ok s
    | none => .error (.notASchema path)

/-- The schema of a file if one is given, else the schema inferred from a dataset. -/
def chooseSchema (path : Option String) (d : Dataset) (env : Environment) : Except Error Schema :=
  match path with
  | some path => loadSchema path env.files
  | none => .ok (Schema.infer env.settings.inference d)

/-- Writes the output of a command to a file, or to the terminal if no file is given. -/
def writeOutput (path : Option String) (content : String) (files : Files.Tree) : Outcome :=
  match path with
  | none => ⟨.ok (), files, content ++ "\n", "", [], []⟩
  | some path =>
    match files.write path content with
    | .ok files => ⟨.ok (), files, "", "Written to: " ++ path ++ "\n", [], []⟩
    | .error reason => .failed (.unwritableFile path reason) files

end ContentModel.Command
