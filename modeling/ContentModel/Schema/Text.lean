import ContentModel.Files.Tree
import ContentModel.Json.Printer
import ContentModel.Schema.Codec
import ContentModel.Yaml.Document
import ContentModel.Yaml.Printer

/-
# Schemas as texts

A schema is kept as JSON text or as YAML text.  In YAML, the items of a list stand at the column of its key.
-/

namespace ContentModel

/-! ## JSON -/

/-- A schema as a JSON text. -/
def Schema.json (s : Schema) : String :=
  s.toValue.pretty

/-- Reads a schema from a JSON text. -/
def Schema.ofJson? (text : String) : Option Schema :=
  (Notation.Node.ofJson? text).bind Schema.ofNode?

/-! ## YAML -/

namespace Yaml

/-- A line at a column. -/
def line (column : Nat) (text : String) : String :=
  "".pushn ' ' column ++ text ++ "\n"

/-- The line or lines of a key at a column, after a dash or spaces, and of its text. -/
def textLine (start : String) (column : Nat) (key text : String) : String :=
  "".pushn ' ' column ++ start ++ key ++ ": " ++ scalarLine (column + start.length + 2) text

/-- The word for a truth value. -/
def boolWord (b : Bool) : String :=
  if b then "true" else "false"

end Yaml

mutual

/-- The lines of a descriptor, as an item at a column. -/
def Field.yamlLines (column : Nat) : Field → String
  | ⟨name, type, required, unique, subFields⟩ =>
    Yaml.textLine "- " column "name" name ++
    Yaml.textLine "  " column "type" type.tag ++
    Yaml.line (column + 2) ("required: " ++ Yaml.boolWord required) ++
    Yaml.line (column + 2) ("unique: " ++ Yaml.boolWord unique) ++
    match subFields with
    | [] => ""
    | f :: fs => Yaml.line (column + 2) "subFields:" ++ Field.yamlItems (column + 2) (f :: fs)

/-- The lines of descriptors, as items at a column. -/
def Field.yamlItems (column : Nat) : List Field → String
  | [] => ""
  | f :: fs => Field.yamlLines column f ++ Field.yamlItems column fs

end

/-- The lines of an entity's fields, as an item of the list of entities. -/
def EntitySchema.yamlLines (e : EntitySchema) : String :=
  Yaml.textLine "- " 0 "name" e.name ++
    match e.fields with
    | [] => Yaml.line 2 "fields: []"
    | f :: fs => Yaml.line 2 "fields:" ++ Field.yamlItems 2 (f :: fs)

/-- A schema as a YAML text. -/
def Schema.yaml (s : Schema) : String :=
  match s.entities with
  | [] => "entities: []\n"
  | e :: es => "entities:\n" ++ String.join ((e :: es).map EntitySchema.yamlLines)

/-- Reads a schema from a YAML text. -/
def Schema.ofYaml? (text : String) : Option Schema :=
  (Yaml.parse? text).bind Schema.ofNode?

/-! ## Files -/

/-- Whether a path names a file of YAML text. -/
def isYamlPath (path : String) : Bool :=
  Files.extension? path = some "yaml" || Files.extension? path = some "yml"

/-- Reads a schema from the text of a file; the name of the file says how. -/
def Schema.ofFileText? (path text : String) : Option Schema :=
  if isYamlPath path then Schema.ofYaml? text else Schema.ofJson? text

end ContentModel
