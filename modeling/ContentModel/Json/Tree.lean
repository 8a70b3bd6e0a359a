import ContentModel.Json.Token

/-
# From tokens to values

The tokens of a text build one tree, whatever its depth.  A tree is evaluated to a value under a limit
on its depth: numbers must be finite, strings must have a text, and of the members of one name in an
object the first gives the place and the last the value.
-/

namespace ContentModel.Json

/-- A JSON text, taken apart and not yet evaluated. -/
inductive Tree where
  | null
  | bool (b : Bool)
  | number (n : Numeral)
  | string (s : Option String)
  | array (items : List Tree)
  | object (members : List (Option String × Tree))
  deriving Repr, Inhabited

namespace Tree

/-! ## Building a tree from tokens -/

/-- An open array or object around the place being read, its parts last one first. -/
inductive Frame where
  | array (items : List Tree)
  | object (members : List (Option String × Tree)) (name : Option String)
  deriving Repr, Inhabited

/-- What has to come next, and the open arrays and objects around it, innermost first. -/
inductive State where
  | value (around : List Frame)
  | firstItem (around : List Frame)
  | firstName (around : List Frame)
  | name (members : List (Option String × Tree)) (around : List Frame)
  | colon (members : List (Option String × Tree)) (name : Option String) (around : List Frame)
  | afterItem (items : List Tree) (around : List Frame)
  | afterMember (members : List (Option String × Tree)) (around : List Frame)
  | done (tree : Tree)
  deriving Repr, Inhabited

/-- Puts a finished tree where it belongs. -/
def put (t : Tree) : List Frame → State
  | [] => .done t
  | .array items :: around => .afterItem (t :: items) around
  | .object members name :: around => .afterMember ((name, t) :: members) around

/-- The token that starts a value. -/
def start? (around : List Frame) : Token → Option State
  | .null => some (put .null around)
  | .bool b => some (put (.bool b) around)
  | .number n => some (put (.number n) around)
  | .string s => some (put (.string s) around)
  | .openArray => some (.firstItem around)
  | .openObject => some (.firstName around)
  | _ => none

/-- One more token. -/
def step? : State → Token → Option State
  | .value around, t => start? around t
  | .firstItem around, .closeArray => some (put (.array []) around)
  | .firstItem around, t => start? (.array [] :: around) t
  | .firstName around, .closeObject => some (put (.object []) around)
  | .firstName around, .string s => some (.colon [] s around)
  | .name members around, .string s => some (.colon members s around)
  | .colon members name around, .colon => some (.value (.object members name :: around))
  | .afterItem items around, .comma => some (.value (.array items :: around))
  | .afterItem items around, .closeArray => some (put (.array items.reverse) around)
  | .afterMember members around, .comma => some (.name members around)
  | .afterMember members around, .closeObject => some (put (.object members.reverse) around)
  | _, _ => none

/-- All tokens, from a state. -/
def run? (s : State) (tokens : List Token) : Option State :=
  tokens.foldlM step? s

/-- The tree of a text. -/
def parse? (text : String) : Option Tree := do
  match run? (.value []) (← Token.read? text.toList) with
  | some (.done t) => some t
  | _ => none

/-! ## Evaluation -/

mutual

/-- The value of a tree whose arrays and objects are nested at most `limit` deep. -/
def value? (limit : Nat) : Tree → Option Value
  | null => some .null
  | bool b => some (.bool b)
  | number n => n.number?.map .number
  | string s => s.map .string
  | array items => if limit = 0 then none else (items? (limit - 1) items).map .array
  | object members =>
    if limit = 0 then none
    else (members? (limit - 1) members).map fun ms => .object (Keyed.ofWrites ms)

/-- The values of a list of items. -/
def items? (limit : Nat) : List Tree → Option (List Value)
  | [] => some []
  | t :: ts => do
    let v ← value? limit t
    let vs ← items? limit ts
    some (v :: vs)

/-- The names and values of a list of members. -/
def members? (limit : Nat) : List (Option String × Tree) → Option (List (String × Value))
  | [] => some []
  | (name, t) :: ts => do
    let n ← name
    let v ← value? limit t
    let vs ← members? limit ts
    some ((n, v) :: vs)

end

end Tree

/-- How deep arrays and objects may be nested in a text. -/
def nestingLimit : Nat := 127

/-- Reads a JSON text. -/
def Value.parse? (text : String) : Option Value :=
  (Tree.parse? text).bind (Tree.value? nestingLimit)

end ContentModel.Json
