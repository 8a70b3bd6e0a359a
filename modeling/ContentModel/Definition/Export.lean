import ContentModel.Definition.Document
import ContentModel.Definition.Name
import ContentModel.Settings.Basic

/-
# Exporting definitions

Each entity gives the document of its definition, followed by one document for each of its component
fields.  Fields of reserved names and fields whose type says nothing are left out, of entities and of
components alike; a component inside a component is opaque.
-/

namespace ContentModel.Definition

open ContentModel.Json (Value Members)

/-! ## Attributes -/

/-- The type of an attribute that has no properties of its own. -/
def plainType : FieldType → String
  | .date => "datetime"
  | .number => "decimal"
  | t => t.tag

/-- The properties that most attributes have. -/
def baseAttribute (type : String) (f : Field) : Members :=
  [("type", .string type), ("required", .bool f.required), ("unique", .bool f.unique)]

/-- The attribute of a field. -/
def attributeOf (settings : ExportSettings) (f : Field) : Value :=
  match f.type with
  | .relation =>
    .object [("type", .string "relation"), ("relation", .string "oneToOne"),
      ("target", .string ("api::" ++ f.name ++ "." ++ f.name))]
  | .media =>
    .object (baseAttribute "media" f ++
      [("multiple", .bool false), ("allowedTypes", textsValue settings.mediaAllowedTypes)])
  | .component =>
    .object (baseAttribute "component" f ++
      [("repeatable", .bool false), ("component", .string (componentUid f.name))])
  | t => .object (baseAttribute (plainType t) f)

/-- The attribute of a component's field. -/
def subAttributeOf (settings : ExportSettings) (f : Field) : Value :=
  match f.type with
  | .component => .object (baseAttribute "json" f)
  | _ => attributeOf settings f

/-- The attributes of fields, by name. -/
def attributes (value : Field → Value) (fields : List Field) : Members :=
  Keyed.ofWrites (fields.map fun f => (f.name, value f))

/-- The fields of an entity that are exported. -/
def exportedFields (settings : ExportSettings) (e : EntitySchema) : List Field :=
  e.fields.filter fun f => f.type.hasSignal && !settings.reserved.hasField f.name

/-- The fields of a component that are exported. -/
def exportedSubFields (settings : ExportSettings) (component : Field) : List Field :=
  component.subFields.filter fun f => f.type.hasSignal && !settings.reserved.hasSubField f.name

/-! ## Documents -/

/-- The document of an entity. -/
def entityDocument (settings : ExportSettings) (e : EntitySchema) : Document :=
  let name := singular e.name
  { kind := .entity
    entity := e.name
    name
    fileName := "schema.json"
    hint := "Place in src/api/" ++ name ++ "/content-types/" ++ name ++ "/schema.json"
    content := .object [
      ("kind", .string "collectionType"),
      ("collectionName", .string e.name),
      ("info", .object [
        ("singularName", .string name),
        ("displayName", .string (displayName name)),
        ("pluralName", .string e.name),
        ("description", .string "")]),
      ("options", .object [("draftAndPublish", .bool settings.draftAndPublish)]),
      ("pluginOptions", .object []),
      ("attributes", .object (attributes (attributeOf settings) (exportedFields settings e)))] }

/-- The document of a component field. -/
def componentDocument (settings : ExportSettings) (entity : String) (f : Field) : Document where
  kind := .component
  entity := entity
  name := f.name
  fileName := f.name ++ ".json"
  hint := "Place in src/components/" ++ f.name ++ "/" ++ f.name ++ ".json"
  content := .object [
    ("collectionName", .string (componentCollection f.name)),
    ("info", .object [
      ("displayName", .string (displayName f.name)),
      ("icon", .string settings.componentIcon)]),
    ("options", .object []),
    ("attributes", .object (attributes (subAttributeOf settings) (exportedSubFields settings f)))]

/-- The documents of an entity and of its components. -/
def exportEntity (settings : ExportSettings) (e : EntitySchema) : List Document :=
  entityDocument settings e ::
    ((exportedFields settings e).filter fun f => f.type = .component).map
      (componentDocument settings e.name)

/-- The documents of a schema, entity by entity. -/
def exportSchema (settings : ExportSettings) (s : Schema) : List Document :=
  s.entities.flatMap (exportEntity settings)

/-! ## Writing -/

/-- Writes documents below a root, in order, up to the first that fails; shows whether all were
written. -/
def writeAll (root : String) : List Document → Files.Tree → Except WriteError Unit × Files.Tree
  | [], t => (.ok (), t)
  | d :: ds, t =>
    match d.write root t with
    | (.ok _, t) => writeAll root ds t
    | (.error e, t) => (.error e, t)

end ContentModel.Definition
