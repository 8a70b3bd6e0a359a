import ContentModel.Schema.Basic

/-
# Editing a schema

Small edits to one field of one entity.  An edit that does not fit the schema fails, or does nothing,
and leaves the schema as it was.  Of several entities or fields of one name the first is meant.
-/

namespace ContentModel

/-! ## Errors and results -/

/-- Why an edit does not fit a schema. -/
inductive EditError where
  | entityNotFound (entity : String)
  | fieldNotFound (entity field : String)
  /-- Only a change to a relation is possible. -/
  | unsupportedTypeChange (field : String) (target : FieldType)
  deriving DecidableEq, Repr, Inhabited

/-- The wording of an error. -/
def EditError.message : EditError → String
  | .entityNotFound entity => "Entity '" ++ entity ++ "' not found in schema"
  | .fieldNotFound entity field => "Field '" ++ field ++ "' not found on entity '" ++ entity ++ "'"
  | .unsupportedTypeChange field target =>
    "Cannot change field '" ++ field ++ "' to type '" ++ target.tag ++ "'"

/-- A change of a field's type, with its descriptors before and after. -/
structure TypeChange where
  entity : String
  previous : Field
  current : Field
  deriving DecidableEq, Repr, Inhabited

/-- The name of the changed field. -/
def TypeChange.field (c : TypeChange) : String :=
  c.current.name

/-! ## Places -/

/-- Replaces the first element that satisfies `p`. -/
def replaceFirst {α : Type} (p : α → Bool) (new : α) : List α → List α
  | [] => []
  | x :: xs => if p x then new :: xs else x :: replaceFirst p new xs

/-- Moves the element at one index to another. -/
def moveAt {α : Type} (source destination : Nat) (xs : List α) : List α :=
  match xs[source]? with
  | some x => (xs.eraseIdx source).insertIdx destination x
  | none => xs

namespace EntitySchema

/-- Replaces the first field of the given name. -/
def setField (name : String) (new : Field) (e : EntitySchema) : EntitySchema :=
  { e with fields := replaceFirst (fun f => f.name = name) new e.fields }

end EntitySchema

namespace Schema

/-- Replaces the first entity of the given name. -/
def setEntity (name : String) (new : EntitySchema) (s : Schema) : Schema :=
  ⟨replaceFirst (fun e => e.name = name) new s.entities⟩

/-- An entity that must be there. -/
def needEntity (entity : String) (s : Schema) : Except EditError EntitySchema :=
  match s.entity? entity with
  | some e => .ok e
  | none => .error (.entityNotFound entity)

/-- A field that must be there, and its entity. -/
def needField (entity field : String) (s : Schema) : Except EditError (EntitySchema × Field) := do
  let e ← s.needEntity entity
  match e.field? field with
  | some f => .ok (e, f)
  | none => .error (.fieldNotFound entity field)

/-- Puts a descriptor in the place of a field that must be there. -/
def replaceField (entity field : String) (change : Field → Field) (s : Schema) :
    Except EditError (Field × Schema) := do
  let (e, f) ← s.needField entity field
  .ok (f, s.setEntity entity (e.setField field (change f)))

/-! ## Edits -/

/-- Removes a field, if it is there, and shows it. -/
def removeField (entity field : String) (s : Schema) : Option Field × Schema :=
  match s.entity? entity with
  | none => (none, s)
  | some e =>
    match e.position? field with
    | none => (none, s)
    | some i => (e.fields[i]?, s.setEntity entity { e with fields := e.fields.eraseIdx i })

/-- Sets whether a field is required. -/
def setRequired (entity field : String) (required : Bool) (s : Schema) : Except EditError Schema :=
  (s.replaceField entity field fun f => { f with required }).map Prod.snd

/-- Sets whether a field is unique. -/
def setUnique (entity field : String) (unique : Bool) (s : Schema) : Except EditError Schema :=
  (s.replaceField entity field fun f => { f with unique }).map Prod.snd

/-- Moves a field to another index, and says whether it moved.  It does not when there is no
destination, when the indices are equal, or when one is past the end. -/
def reorder (entity : String) (source : Nat) (destination : Option Nat) (s : Schema) :
    Except EditError (Bool × Schema) := do
  let e ← s.needEntity entity
  match destination with
  | none => .ok (false, s)
  | some d =>
    if source = d ∨ e.fields.length ≤ source ∨ e.fields.length ≤ d then .ok (false, s)
    else .ok (true, s.setEntity entity { e with fields := moveAt source d e.fields })

/-- Makes a field a relation, which inherits nothing of what it was.  No other target is possible. -/
def changeType (entity field : String) (target : FieldType) (s : Schema) :
    Except EditError (TypeChange × Schema) :=
  if target ≠ .relation then .error (.unsupportedTypeChange field target)
  else
    (s.replaceField entity field fun _ => Field.ofRelation field).map fun (previous, s) =>
      (⟨entity, previous, Field.ofRelation field⟩, s)

end Schema

end ContentModel
