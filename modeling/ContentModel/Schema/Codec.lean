import ContentModel.Notation.Node
import ContentModel.Schema.Basic
import ContentModel.Schema.Reserved

/-
# Schemas as documents

Each structure has an encoding as a JSON value and a reader of documents.  The sub-fields of a field are
left out of its encoding when there are none, and may be left out of what is read.
-/

namespace ContentModel

open Notation (Node)

/-! ## Encoding -/

mutual

/-- A descriptor as a JSON value. -/
def Field.toValue : Field → Json.Value
  | ⟨name, type, required, unique, subFields⟩ =>
    .object (
      [("name", .string name), ("type", .string type.tag), ("required", .bool required),
       ("unique", .bool unique)] ++
      match subFields with
      | [] => []
      | f :: fs => [("subFields", .array (Field.toValue f :: Field.toValues fs))])

/-- Descriptors as JSON values. -/
def Field.toValues : List Field → List Json.Value
  | [] => []
  | f :: fs => f.toValue :: Field.toValues fs

end

/-- An entity's fields as a JSON value. -/
def EntitySchema.toValue (e : EntitySchema) : Json.Value :=
  .object [("name", .string e.name), ("fields", .array (Field.toValues e.fields))]

/-- A schema as a JSON value. -/
def Schema.toValue (s : Schema) : Json.Value :=
  .object [("entities", .array (s.entities.map EntitySchema.toValue))]

/-- Texts as a JSON value. -/
def textsValue (texts : List String) : Json.Value :=
  .array (texts.map .string)

/-- Reserved names as a JSON value. -/
def Reserved.toValue (r : Reserved) : Json.Value :=
  .object [("fields", textsValue r.fields), ("subFields", textsValue r.subFields)]

/-! ## Reading -/

/-- Reads a field's type. -/
def FieldType.ofNode? (n : Node) : Option FieldType :=
  n.word?.bind FieldType.ofTag?

namespace Field

/-- The names of a descriptor's fields, as declared. -/
def declared : List String :=
  ["name", "type", "required", "unique", "subFields"]

/-- Reads a descriptor but for its sub-fields. -/
def ofParts? (fields : List (String × Node)) (subFields : List Field) : Option Field := do
  let name ← Node.required "name" Node.text? fields
  let type ← Node.required "type" FieldType.ofNode? fields
  let required ← Node.required "required" Node.bool? fields
  let unique ← Node.required "unique" Node.bool? fields
  some { name, type, required, unique, subFields }

mutual

/-- Reads a descriptor. -/
def ofNode? : Node → Option Field
  | .table members =>
    if Node.repeats declared members then none
    else (ofMembers? members).bind (ofParts? members)
  | .list [name, type, required, unique] =>
    ofParts? (declared.zip [name, type, required, unique]) []
  | .list [name, type, required, unique, subFields] =>
    (ofList? subFields).bind (ofParts? (declared.zip [name, type, required, unique]))
  | _ => none

/-- Reads the member that holds the sub-fields, if there is one. -/
def ofMembers? : List (String × Node) → Option (List Field)
  | [] => some []
  | (name, n) :: members => if name = "subFields" then ofList? n else ofMembers? members

/-- Reads a list of descriptors. -/
def ofList? : Node → Option (List Field)
  | .list items => ofItems? items
  | .leaf l => if l.isBlank then some [] else none
  | .table _ => none

/-- Reads the items of a list of descriptors. -/
def ofItems? : List Node → Option (List Field)
  | [] => some []
  | n :: ns => do
    let f ← ofNode? n
    let fs ← ofItems? ns
    some (f :: fs)

end

end Field

/-- Reads an entity's fields. -/
def EntitySchema.ofNode? (n : Node) : Option EntitySchema := do
  let fields ← n.fields? ["name", "fields"]
  some ⟨← Node.required "name" Node.text? fields, ← Node.required "fields" Field.ofList? fields⟩

/-- Reads a schema. -/
def Schema.ofNode? (n : Node) : Option Schema := do
  let fields ← n.fields? ["entities"]
  let entities ← Node.required "entities" Node.list? fields
  some ⟨← entities.mapM EntitySchema.ofNode?⟩

/-- Reads reserved names. -/
def Reserved.ofNode? (n : Node) : Option Reserved := do
  let fields ← n.fields? ["fields", "subFields"]
  some ⟨← Node.required "fields" Node.texts? fields, ← Node.required "subFields" Node.texts? fields⟩

end ContentModel
