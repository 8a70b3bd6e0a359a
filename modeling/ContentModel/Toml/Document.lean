import ContentModel.Toml.Statement

/-
# TOML documents

The statements of a text, one after the other, build one table.  Keys with values belong to the table of
the last header before them.
-/

namespace ContentModel.Toml

open Notation (Node)

/-- A document under construction. -/
structure Draft where
  /-- The table of the last header. -/
  path : List String
  members : Members
  deriving Repr, Inhabited

namespace Draft

/-- The empty document. -/
def empty : Draft :=
  ⟨[], []⟩

/-- One more statement. -/
def add? (d : Draft) : Statement → Option Draft
  | .assign (dots, name) n => (d.members.assign? d.path dots name n).map fun ms => { d with members := ms }
  | .table (path, name) =>
    (Members.within? false (Members.openTable? name) path .header d.members).map
      (⟨path ++ [name], ·⟩)
  | .element (path, name) =>
    (Members.within? false (Members.openElement? name) path .header d.members).map
      (⟨path ++ [name], ·⟩)

end Draft

/-- Reads a TOML text. -/
def parse? (text : String) : Option Node := do
  let statements ← statementsFrom? .lineStart (← Token.read? text.toList)
  some (← statements.foldlM Draft.add? .empty).members.toNode

end ContentModel.Toml
