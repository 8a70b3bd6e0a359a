import ContentModel.Notation.Node

/-
# TOML tables under construction

A table is opened by its header, by the longer header of a table inside it, or by a dotted key.  Each
table is opened by a header at most once, and no table is opened in two ways, except that a header may
open what a longer one implied.  An element of an array of tables is opened by a header of its own, and
names that lead on lead into the last element.
-/

namespace ContentModel.Toml

open Notation (Node)

/-- How a table came to be. -/
inductive Origin where
  | header
  /-- By the longer header of a table inside it. -/
  | implied
  /-- By a dotted key. -/
  | dotted
  deriving DecidableEq, Repr, Inhabited

/-- What stands under a name. -/
inductive Item where
  | value (n : Node)
  | table (origin : Origin) (members : List (String × Item))
  /-- An array of tables, the last one first. -/
  | tables (elements : List (List (String × Item)))
  deriving Repr, Inhabited

/-- A table's members. -/
abbrev Members := List (String × Item)

namespace Members

/-! ## Finding a table -/

/-- Changes the table at the end of a path, which is created as far as it is missing.  A dotted key does
not lead into a table that has a header. -/
def within? (isDotted : Bool) (change : Origin → Members → Option Members) :
    List String → Origin → Members → Option Members
  | [], origin, members => change origin members
  | name :: path, _, members =>
    match Keyed.get? name members with
    | none =>
      let origin := if isDotted then .dotted else .implied
      (within? isDotted change path origin []).map fun inner =>
        Keyed.put name (.table origin inner) members
    | some (.table origin inner) =>
      if isDotted ∧ origin = .header then none
      else (within? isDotted change path origin inner).map fun inner =>
        Keyed.put name (.table origin inner) members
    | some (.tables (element :: elements)) =>
      (within? isDotted change path .header element).map fun element =>
        Keyed.put name (.tables (element :: elements)) members
    | some _ => none

/-! ## Changing a table -/

/-- Sets a name that is not set.  A dotted key sets names only in tables that dotted keys opened. -/
def set? (isDotted : Bool) (name : String) (n : Node) (origin : Origin) (members : Members) :
    Option Members :=
  if isDotted ∧ origin ≠ .dotted then none
  else match Keyed.get? name members with
    | some _ => none
    | none => some (Keyed.put name (.value n) members)

/-- Opens a table by its header. -/
def openTable? (name : String) (_ : Origin) (members : Members) : Option Members :=
  match Keyed.get? name members with
  | none => some (Keyed.put name (.table .header []) members)
  | some (.table .implied inner) => some (Keyed.put name (.table .header inner) members)
  | some _ => none

/-- Opens the next element of an array of tables. -/
def openElement? (name : String) (_ : Origin) (members : Members) : Option Members :=
  match Keyed.get? name members with
  | none => some (Keyed.put name (.tables [[]]) members)
  | some (.tables elements) => some (Keyed.put name (.tables ([] :: elements)) members)
  | some _ => none

/-! ## Changing a document -/

/-- Sets a key in the table at a path. -/
def assign? (path : List String) (dots : List String) (name : String) (n : Node)
    (members : Members) : Option Members :=
  within? false (within? true (set? (!dots.isEmpty) name n) dots) path .header members

/-- The members that keys and values give, all in one table. -/
def ofPairs? (pairs : List ((List String × String) × Node)) : Option Members :=
  pairs.foldlM (fun members ((dots, name), n) => assign? [] dots name n members) []

/-! ## As a document -/

mutual

/-- What stands under a name, as a document. -/
def itemNode : Item → Node
  | .value n => n
  | .table _ members => .table (memberNodes members)
  | .tables elements => .list (elementNodes elements).reverse

/-- A table's members as documents. -/
def memberNodes : List (String × Item) → List (String × Node)
  | [] => []
  | (name, item) :: members => (name, itemNode item) :: memberNodes members

/-- The tables of an array as documents. -/
def elementNodes : List (List (String × Item)) → List Node
  | [] => []
  | members :: elements => .table (memberNodes members) :: elementNodes elements

end

/-- A table as a document. -/
def toNode (members : Members) : Node :=
  .table (memberNodes members)

end Members

end ContentModel.Toml
