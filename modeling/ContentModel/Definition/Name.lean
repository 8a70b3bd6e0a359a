import ContentModel.Text.Uppercase

/-
# Names in definitions

How the names of definitions follow from the names of entities and of component fields.
-/

namespace ContentModel.Definition

/-- The singular of an entity's name: `ies` at the end becomes `y`, else an `s` at the end is dropped. -/
def singular (name : String) : String :=
  match name.toList.reverse with
  | 's' :: 'e' :: 'i' :: stem => String.ofList (stem.reverse ++ ['y'])
  | 's' :: stem => String.ofList stem.reverse
  | _ => name

/-- A name to show: its first character in uppercase. -/
def displayName (name : String) : String :=
  match name.toList with
  | [] => ""
  | c :: cs => String.ofList (Text.uppercase c ++ cs)

/-- The reference to the component of a field. -/
def componentUid (field : String) : String :=
  field ++ "." ++ field

/-- The name of the collection of a field's component. -/
def componentCollection (field : String) : String :=
  "components_" ++ componentUid field

end ContentModel.Definition
