import ContentModel.Json.Tree

/-
# Datasets

A dataset gives each entity a list of records, in order.  As a JSON value it is an object of arrays of
objects; `Dataset.ofValue` refuses any other value with its first fault.
-/

namespace ContentModel

/-- One record: the members of a JSON object. -/
abbrev Record := Json.Members

/-- The records of each entity. -/
structure Dataset where
  /-- Entity names with their records, in order. -/
  entities : List (String × List Record)
  deriving Repr, Inhabited, DecidableEq

/-- Why a value is no dataset. -/
inductive DatasetError where
  /-- The text is no JSON text. -/
  | unreadable
  | notAnObject (found : Json.Kind)
  | entityNotAnArray (entity : String) (found : Json.Kind)
  | recordNotAnObject (entity : String) (index : Nat) (found : Json.Kind)
  deriving DecidableEq, Repr, Inhabited

/-- The wording of a fault; that of an unreadable text leaves out what is wrong with it. -/
def DatasetError.message : DatasetError → String
  | .unreadable => "JSON parsing error: "
  | .notAnObject found =>
    "Invalid dataset: expected object of entities at root, found " ++ found.name
  | .entityNotAnArray entity found =>
    "Invalid data for entity '" ++ entity ++ "': expected array of records, found " ++ found.name
  | .recordNotAnObject entity index found =>
    "Invalid record " ++ Nat.repr index ++ " of entity '" ++ entity ++
      "': expected object, found " ++ found.name

namespace Dataset

/-! ## Operations -/

/-- The dataset without entities. -/
def empty : Dataset :=
  ⟨[]⟩

/-- Adds an entity, or replaces its records in place. -/
def insert (entity : String) (records : List Record) (d : Dataset) : Dataset :=
  ⟨Keyed.put entity records d.entities⟩

/-- The records of an entity. -/
def records? (entity : String) (d : Dataset) : Option (List Record) :=
  Keyed.get? entity d.entities

/-- How many entities there are. -/
def size (d : Dataset) : Nat :=
  d.entities.length

/-! ## Datasets as JSON values -/

/-- The records of an entity's items, the first of which has the given index. -/
def recordsOfItems (entity : String) : Nat → List Json.Value → Except DatasetError (List Record)
  | _, [] => .ok []
  | index, .object record :: items =>
    match recordsOfItems entity (index + 1) items with
    | .ok records => .ok (record :: records)
    | .error e => .error e
  | index, item :: _ => .error (.recordNotAnObject entity index item.kind)

/-- The records of one entity. -/
def recordsOfValue (entity : String) : Json.Value → Except DatasetError (List Record)
  | .array items => recordsOfItems entity 0 items
  | v => .error (.entityNotAnArray entity v.kind)

/-- Adds the entities of an object to a dataset. -/
def insertMembers (d : Dataset) : Json.Members → Except DatasetError Dataset
  | [] => .ok d
  | (entity, v) :: members =>
    match recordsOfValue entity v with
    | .ok records => insertMembers (d.insert entity records) members
    | .error e => .error e

/-- Reads a value as a dataset. -/
def ofValue : Json.Value → Except DatasetError Dataset
  | .object members => insertMembers empty members
  | v => .error (.notAnObject v.kind)

/-- Reads a JSON text as a dataset. -/
def ofText (text : String) : Except DatasetError Dataset :=
  match Json.Value.parse? text with
  | some v => ofValue v
  | none => .error .unreadable

/-- The records of an entity as an array. -/
def recordsValue (records : List Record) : Json.Value :=
  .array (records.map .object)

/-- A dataset as an object of arrays. -/
def toValue (d : Dataset) : Json.Value :=
  .object (d.entities.map fun (entity, records) => (entity, recordsValue records))

/-- Inserting shows the new records under the entity's name. -/
theorem records?_insert_self (entity : String) (records : List Record) (d : Dataset) :
    (d.insert entity records).records? entity = some records :=
  Keyed.get?_put_self entity records d.entities

/-- Inserting leaves all other entities as they were. -/
theorem records?_insert_of_ne {e entity : String} (h : e ≠ entity) (records : List Record)
    (d : Dataset) : (d.insert entity records).records? e = d.records? e :=
  Keyed.get?_put_of_ne h records d.entities

end Dataset

end ContentModel
