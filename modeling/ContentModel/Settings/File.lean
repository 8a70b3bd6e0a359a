import ContentModel.Files.Tree
import ContentModel.Settings.Basic
import ContentModel.Toml.Document
import ContentModel.Toml.Printer

/-
# Settings in files

Settings are kept as TOML text.  Where no file is, the standard settings hold.
-/

namespace ContentModel

open Files (OsError Tree)
open Notation (Node)

/-- Why settings could not be read from a file, or written to it. -/
inductive SettingsError where
  | inaccessible (path : String) (reason : OsError)
  | invalid (path : String)
  deriving DecidableEq, Repr, Inhabited

/-- The wording of an error. -/
def SettingsError.message : SettingsError → String
  | .inaccessible path reason => "Failed to read config file " ++ path ++ ": " ++ reason.message
  | .invalid path => "Invalid config file " ++ path ++ ": not the text of settings"

namespace Settings

/-! ## Text -/

/-- A list that stands for a structure of so many fields, less what follows them. -/
def firstItems (count : Nat) : Node → Node
  | .list items => .list (items.take count)
  | n => n

/-- Reads settings from a TOML text.  An array in place of the reserved names may be longer than they
are. -/
def ofText? (text : String) : Option Settings := do
  match ← Toml.parse? text with
  | .table members =>
    ofNode? (.table (members.map fun (name, n) =>
      (name, if name = "reserved" then firstItems 2 n else n)))
  | n => ofNode? n

/-- Settings as a TOML text. -/
def text (s : Settings) : String :=
  Toml.textLine "endpoint" s.endpoint ++
  Toml.textsLines "routes" s.routes ++
  Toml.textLine "migrationEndpoint" s.migrationEndpoint ++
  "\n[reserved]\n" ++
  Toml.textsLines "fields" s.reserved.fields ++
  Toml.textsLines "subFields" s.reserved.subFields

/-! ## Files -/

/-- Reads settings from a file, if it is there. -/
def load (path : String) (files : Tree) : Except SettingsError Settings :=
  if files.has path then
    match files.read path with
    | .error reason => .error (.inaccessible path reason)
    | .ok text =>
      match ofText? text with
      | some s => .ok s
      | none => .error (.invalid path)
  else .ok standard

/-- Writes settings to a file. -/
def save (s : Settings) (path : String) (files : Tree) : Except SettingsError Tree :=
  (files.write path s.text).mapError (.inaccessible path)

end Settings

end ContentModel
