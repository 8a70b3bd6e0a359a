/-
# Reserved names

Names that the target system manages itself.  Fields of such names stay in an inferred schema and are
left out of definitions and payloads; sub-fields of such names are not discovered at all.
-/

namespace ContentModel

/-- The reserved names of entities' fields and of components' keys. -/
structure Reserved where
  fields : List String
  subFields : List String
  deriving DecidableEq, Repr, Inhabited

namespace Reserved

/-- The names that are reserved unless others are given. -/
def standard : Reserved where
  fields :=
    ["id", "_id", "createdAt", "updatedAt", "published_at", "__v", "created_by", "updated_by"]
  subFields := ["id", "_id", "__v"]

/-- No reserved name. -/
def none : Reserved :=
  ⟨[], []⟩

/-- Whether a field's name is reserved. -/
def hasField (r : Reserved) (name : String) : Bool :=
  r.fields.contains name

/-- Whether a component's key is reserved. -/
def hasSubField (r : Reserved) (name : String) : Bool :=
  r.subFields.contains name

end Reserved

end ContentModel
