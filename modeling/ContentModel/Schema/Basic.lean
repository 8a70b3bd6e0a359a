import ContentModel.Keyed
import ContentModel.Schema.Field

/-
# Schemas

The descriptors of the fields of each entity, entities and fields in order.
-/

namespace ContentModel

/-- The fields of one entity. -/
structure EntitySchema where
  name : String
  fields : List Field
  deriving DecidableEq, Repr, Inhabited

namespace EntitySchema

/-- The first field of a name. -/
def field? (name : String) (e : EntitySchema) : Option Field :=
  e.fields.find? fun f => f.name = name

/-- The index of the first field of a name. -/
def position? (name : String) (e : EntitySchema) : Option Nat :=
  e.fields.findIdx? fun f => f.name = name

/-- The names of the fields. -/
def fieldNames (e : EntitySchema) : List String :=
  e.fields.map Field.name

end EntitySchema

/-- The fields of all entities. -/
structure Schema where
  entities : List EntitySchema
  deriving DecidableEq, Repr, Inhabited

namespace Schema

/-- The schema without entities. -/
def empty : Schema :=
  ⟨[]⟩

/-- The first entity of a name. -/
def entity? (name : String) (s : Schema) : Option EntitySchema :=
  Keyed.find? EntitySchema.name name s.entities

/-- A field of an entity. -/
def field? (entity field : String) (s : Schema) : Option Field :=
  (s.entity? entity).bind (EntitySchema.field? field)

/-- Adds an entity, or replaces the entity of its name in place. -/
def insertEntity (e : EntitySchema) (s : Schema) : Schema :=
  ⟨Keyed.upsert EntitySchema.name e s.entities⟩

/-- How many entities there are. -/
def size (s : Schema) : Nat :=
  s.entities.length

/-- Inserting shows the entity under its name. -/
theorem entity?_insertEntity_self (e : EntitySchema) (s : Schema) :
    (s.insertEntity e).entity? e.name = some e :=
  Keyed.find?_upsert_self EntitySchema.name e s.entities

/-- Inserting leaves all other names as they were. -/
theorem entity?_insertEntity_of_ne (e : EntitySchema) {n : String} (h : n ≠ e.name) (s : Schema) :
    (s.insertEntity e).entity? n = s.entity? n :=
  Keyed.find?_upsert_of_ne EntitySchema.name e h s.entities

end Schema

end ContentModel
