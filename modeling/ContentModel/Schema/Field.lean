/-
# Field types and field descriptors

A descriptor says of one field of an entity its type, whether every record carries a value, whether its
texts are distinct, and, of a component, its sub-fields.
-/

namespace ContentModel

/-! ## Types -/

/-- The meaning assigned to the values of a field. -/
inductive FieldType where
  /-- Text with markup. -/
  | richText
  | string
  | date
  /-- An object with fields of its own. -/
  | component
  /-- A one-to-one relation, which only an edit assigns. -/
  | relation
  | media
  | number
  | boolean
  /-- Nothing but absent or null values. -/
  | nullish
  /-- A value of no recognised shape. -/
  | unknown
  deriving DecidableEq, Repr, Inhabited

namespace FieldType

/-- All types. -/
def all : List FieldType :=
  [richText, string, date, component, relation, media, number, boolean, nullish, unknown]

/-- The word for a type. -/
def tag : FieldType → String
  | richText => "richtext"
  | string => "string"
  | date => "date"
  | component => "component"
  | relation => "relation"
  | media => "media"
  | number => "number"
  | boolean => "boolean"
  | nullish => "nullish"
  | unknown => "unknown"

/-- The type of a word, exactly as it is written. -/
def ofTag? (word : String) : Option FieldType :=
  all.find? fun t => t.tag = word

/-- The type of a word, ASCII letters in either case. -/
def ofWord? (word : String) : Option FieldType :=
  all.find? fun t => t.tag.toList = word.toList.map Char.toLower

/-- The complaint about a word that names no type. -/
def unknownWord (word : String) : String :=
  "unknown field type '" ++ word ++ "'"

/-- Whether values of the type are texts, whose repetition is tracked. -/
def isTextual : FieldType → Bool
  | string | richText => true
  | _ => false

/-- Whether the type says enough to be exported. -/
def hasSignal : FieldType → Bool
  | nullish | unknown => false
  | _ => true

/-- Every type is found by its own word. -/
theorem ofTag?_tag (t : FieldType) : ofTag? t.tag = some t := by
  cases t <;> decide

end FieldType

/-! ## Descriptors -/

/-- What is known about one field. -/
structure Field where
  name : String
  type : FieldType
  /-- Whether every record seen carries a value. -/
  required : Bool
  /-- Whether no text was seen twice. -/
  unique : Bool
  /-- The fields of a component. -/
  subFields : List Field
  deriving Repr, Inhabited

namespace Field

/-- The descriptor of a field seen once: required, and unique if it is textual. -/
def fresh (name : String) (type : FieldType) : Field :=
  { name, type, required := true, unique := type.isTextual, subFields := [] }

/-- The descriptor of a relation, which inherits nothing. -/
def ofRelation (name : String) : Field :=
  { name, type := .relation, required := false, unique := false, subFields := [] }

/-- The first sub-field of a name. -/
def subField? (name : String) (f : Field) : Option Field :=
  f.subFields.find? fun s => s.name = name

mutual

/-- Whether two descriptors are equal. -/
def same : Field → Field → Bool
  | ⟨n, t, r, u, fs⟩, ⟨n', t', r', u', fs'⟩ =>
    decide (n = n') && decide (t = t') && r == r' && u == u' && sameAll fs fs'

/-- Whether two lists of descriptors are equal. -/
def sameAll : List Field → List Field → Bool
  | [], [] => true
  | f :: fs, g :: gs => same f g && sameAll fs gs
  | _, _ => false

end

mutual

/-- `same` decides equality. -/
theorem same_iff : ∀ f g : Field, same f g = true ↔ f = g
  | ⟨n, t, r, u, fs⟩, ⟨n', t', r', u', fs'⟩ => by simp [same, sameAll_iff fs, and_assoc]

/-- `sameAll` decides equality. -/
theorem sameAll_iff : ∀ fs gs : List Field, sameAll fs gs = true ↔ fs = gs
  | [], gs => by cases gs <;> simp [sameAll]
  | f :: fs, gs => by cases gs <;> simp [sameAll, same_iff f, sameAll_iff fs]

end

instance : DecidableEq Field := fun f g =>
  decidable_of_iff (same f g = true) (same_iff f g)

end Field

end ContentModel
