import ContentModel.Json.Tree

/-
# Documents in any notation

Structures are read from JSON, from YAML and from TOML.  All three give a tree of lists, tables and
leaves; a leaf records what it can be read as, so that one reader serves all notations.  A structure is a
table of its fields, or a list of them in the order of declaration.
-/

namespace ContentModel.Notation

/-! ## Trees -/

/-- What a leaf can be read as. -/
structure Leaf where
  text? : Option String
  /-- A word out of a fixed list of words. -/
  word? : Option String
  bool? : Option Bool
  /-- An integer of 64 bits without sign. -/
  count? : Option Nat
  /-- Whether it stands for no content, after a tag. -/
  isUnit : Bool
  /-- Whether it stands for an empty list or table. -/
  isBlank : Bool
  deriving DecidableEq, Repr, Inhabited

/-- A leaf that cannot be read as anything. -/
def Leaf.unreadable : Leaf :=
  ⟨none, none, none, none, false, false⟩

/-- A leaf that is a text, if there is one, and nothing else. -/
def Leaf.ofText? (s : Option String) : Leaf :=
  { Leaf.unreadable with text? := s, word? := s }

/-- A leaf that is a truth value. -/
def Leaf.ofBool (b : Bool) : Leaf :=
  { Leaf.unreadable with bool? := some b }

/-- A document tree.  Tables keep repeated names. -/
inductive Node where
  | leaf (l : Leaf)
  | list (items : List Node)
  | table (members : List (String × Node))
  deriving Repr, Inhabited

namespace Node

/-! ## Reading a node -/

/-- A node as a text. -/
def text? : Node → Option String
  | leaf l => l.text?
  | _ => none

/-- A node as a truth value. -/
def bool? : Node → Option Bool
  | leaf l => l.bool?
  | _ => none

/-- A node as a natural number. -/
def count? : Node → Option Nat
  | leaf l => l.count?
  | _ => none

/-- A node as a list. -/
def list? : Node → Option (List Node)
  | list items => some items
  | leaf l => if l.isBlank then some [] else none
  | table _ => none

/-- A node as a list of texts. -/
def texts? (n : Node) : Option (List String) :=
  n.list?.bind (List.mapM text?)

/-- A node as a word; a table may give the word no content. -/
def word? : Node → Option String
  | leaf l => l.word?
  | table [(word, leaf l)] => if l.isUnit then some word else none
  | _ => none

/-- A node as a text that may be left out. -/
def optionalText? : Node → Option (Option String)
  | leaf l => if l.isUnit then some none else l.text?.map some
  | _ => none

/-! ## Reading a structure -/

/-- Whether one of the declared names stands twice in a table. -/
def repeats {α : Type} (declared : List String) : List (String × α) → Bool
  | [] => false
  | (n, _) :: members =>
    (declared.contains n && (members.map Prod.fst).contains n) || repeats declared members

/-- The declared fields that a node gives. -/
def fields? (declared : List String) : Node → Option (List (String × Node))
  | table members => if repeats declared members then none else some members
  | list items => if items.length ≤ declared.length then some (declared.zip items) else none
  | leaf l => if l.isBlank then some [] else none

/-- A field that must be there. -/
def required {α : Type} (name : String) (read : Node → Option α) (fields : List (String × Node)) :
    Option α :=
  (Keyed.get? name fields).bind read

/-- A field that may be left out. -/
def withDefault {α : Type} (name : String) (read : Node → Option α) (default : α)
    (fields : List (String × Node)) : Option α :=
  match Keyed.get? name fields with
  | some n => read n
  | none => some default

end Node

/-! ## JSON values and texts as documents -/

/-- A number as a leaf. -/
def Leaf.ofNumber : Json.Number → Leaf
  | .integer n => if 0 ≤ n then { Leaf.unreadable with count? := some n.toNat } else .unreadable
  | .real _ => .unreadable

mutual

/-- A JSON value as a document. -/
def Node.ofValue : Json.Value → Node
  | .null => .leaf { Leaf.unreadable with isUnit := true }
  | .bool b => .leaf (.ofBool b)
  | .number n => .leaf (Leaf.ofNumber n)
  | .string s => .leaf (.ofText? (some s))
  | .array items => .list (Node.ofValues items)
  | .object members => .table (Node.ofMembers members)

/-- A list of JSON values as documents. -/
def Node.ofValues : List Json.Value → List Node
  | [] => []
  | v :: vs => Node.ofValue v :: Node.ofValues vs

/-- The members of a JSON object as documents. -/
def Node.ofMembers : List (String × Json.Value) → List (String × Node)
  | [] => []
  | (n, v) :: ms => (n, Node.ofValue v) :: Node.ofMembers ms

end

/-- The members of a table, if every name has a text. -/
def namedMembers? (members : List (Option String × Node)) : Option (List (String × Node)) :=
  members.mapM fun (name, n) => name.map fun name => (name, n)

mutual

/-- A JSON text, taken apart, as a document.  What is nested too deep, or has a name without a text,
cannot be read as anything; that is a fault only where a structure reads it. -/
def Node.ofTree (limit : Nat) : Json.Tree → Node
  | .null => .leaf { Leaf.unreadable with isUnit := true }
  | .bool b => .leaf (.ofBool b)
  | .number n => .leaf ((n.number?.map Leaf.ofNumber).getD .unreadable)
  | .string s => .leaf (.ofText? s)
  | .array items =>
    if limit = 0 then .leaf .unreadable else .list (Node.ofTrees (limit - 1) items)
  | .object members =>
    if limit = 0 then .leaf .unreadable
    else match namedMembers? (Node.ofTreeMembers (limit - 1) members) with
      | some members => .table members
      | none => .leaf .unreadable

/-- A list of JSON texts, taken apart, as documents. -/
def Node.ofTrees (limit : Nat) : List Json.Tree → List Node
  | [] => []
  | t :: ts => Node.ofTree limit t :: Node.ofTrees limit ts

/-- The members of a JSON object, taken apart, as documents. -/
def Node.ofTreeMembers (limit : Nat) : List (Option String × Json.Tree) →
    List (Option String × Node)
  | [] => []
  | (n, t) :: ts => (n, Node.ofTree limit t) :: Node.ofTreeMembers limit ts

end

/-- A JSON text as a document. -/
def Node.ofJson? (text : String) : Option Node :=
  (Json.Tree.parse? text).map (Node.ofTree Json.nestingLimit)

end ContentModel.Notation
