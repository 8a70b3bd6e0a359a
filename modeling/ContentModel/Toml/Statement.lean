import ContentModel.Text.Split
import ContentModel.Toml.Scalar
import ContentModel.Toml.Table
import ContentModel.Toml.Token

/-
# The statements of TOML text

A text is a sequence of statements, one a line: a key with its value, the header of a table, or the
header of an element of an array of tables.  Only arrays and strings go on over several lines.
-/

namespace ContentModel.Toml

open Notation (Leaf Node)

/-! ## Statements -/

/-- A dotted key: the names that lead to a table, and the name in it. -/
abbrev Key := List String × String

/-- A statement. -/
inductive Statement where
  | assign (key : Key) (value : Node)
  | table (key : Key)
  | element (key : Key)
  deriving Repr, Inhabited

/-- One more than the number of names in a key, and of arrays and inline tables around each other, that
are read. -/
def depthLimit : Nat := 80

/-! ## Keys -/

/-- A part of a key. -/
inductive Piece where
  | name (s : String)
  | dot
  deriving DecidableEq, Repr, Inhabited

/-- A name between dots in a run of bare characters, if there is one. -/
def barePiece? (cs : List Char) : Option (List Piece) :=
  if cs.all Token.isBareKey then
    some (if cs.isEmpty then [] else [.name (String.ofList cs)])
  else none

/-- The parts of a key that a token gives. -/
def pieces? : Token → Option (List Piece)
  | .bare cs => ((Text.splitOn '.' cs).mapM barePiece?).map fun ps => (ps.intersperse [.dot]).flatten
  | .text s false => some [.name s]
  | _ => none

/-- The names of a key, which dots separate. -/
def names? : List Piece → Option (List String)
  | [.name s] => some [s]
  | .name s :: .dot :: pieces => (names? pieces).map (s :: ·)
  | _ => none

/-- A key from its parts. -/
def key? (pieces : List Piece) : Option Key := do
  let names ← names? pieces
  if names.length < depthLimit then some (names.dropLast, ← names.getLast?) else none

/-! ## Reading tokens one by one -/

/-- An open array or inline table around the place being read, its parts last one first. -/
inductive Frame where
  | array (items : List Node)
  | inline (pairs : List (Key × Node)) (key : Key)
  deriving Repr, Inhabited

/-- Where the reader stands.  Inside a value, it knows the key of the line and what is open around the
place, innermost first. -/
inductive Place where
  | lineStart
  | lineEnd
  | key (pieces : List Piece)
  /-- After one bracket at the start of a line. -/
  | header
  | tableKey (pieces : List Piece)
  | elementKey (pieces : List Piece)
  | elementEnd (key : Key)
  | value (line : Key) (around : List Frame)
  | item (items : List Node) (line : Key) (around : List Frame)
  | afterItem (items : List Node) (line : Key) (around : List Frame)
  | firstPair (line : Key) (around : List Frame)
  | pairKey (pairs : List (Key × Node)) (pieces : List Piece) (line : Key) (around : List Frame)
  | afterPair (pairs : List (Key × Node)) (line : Key) (around : List Frame)
  deriving Repr, Inhabited

/-- The statement that a token ends, if it ends one, and the place after it. -/
abbrev Step := Option Statement × Place

/-- Puts a finished value where it belongs. -/
def put (n : Node) (line : Key) : List Frame → Step
  | [] => (some (.assign line n), .lineEnd)
  | .array items :: around => (none, .afterItem (n :: items) line around)
  | .inline pairs key :: around => (none, .afterPair ((key, n) :: pairs) line around)

/-- The token that starts a value. -/
def startValue? (line : Key) (around : List Frame) : Token → Option Step
  | .bare cs => (scalar? cs).map fun l => put (.leaf l) line around
  | .text s _ => some (put (.leaf (.ofText? (some s))) line around)
  | .openBracket => if around.length + 1 < depthLimit then some (none, .item [] line around) else none
  | .openBrace => if around.length + 1 < depthLimit then some (none, .firstPair line around) else none
  | _ => none

/-- More of a key. -/
def extendKey? (pieces : List Piece) (place : List Piece → Place) (t : Token) : Option Step :=
  (pieces? t).map fun ps => (none, place (pieces ++ ps))

/-- One more token. -/
def step? : Place → Token → Option Step
  | .lineStart, .newline => some (none, .lineStart)
  | .lineStart, .blank => some (none, .lineStart)
  | .lineStart, .openBracket => some (none, .header)
  | .lineStart, t => extendKey? [] .key t
  | .lineEnd, .blank => some (none, .lineEnd)
  | .lineEnd, .newline => some (none, .lineStart)
  | .lineEnd, _ => none
  | .key pieces, .blank => some (none, .key pieces)
  | .key pieces, .equals => (key? pieces).map fun line => (none, .value line [])
  | .key pieces, t => extendKey? pieces .key t
  | .header, .openBracket => some (none, .elementKey [])
  | .header, .blank => some (none, .tableKey [])
  | .header, t => extendKey? [] .tableKey t
  | .tableKey pieces, .blank => some (none, .tableKey pieces)
  | .tableKey pieces, .closeBracket => (key? pieces).map fun key => (some (.table key), .lineEnd)
  | .tableKey pieces, t => extendKey? pieces .tableKey t
  | .elementKey pieces, .blank => some (none, .elementKey pieces)
  | .elementKey pieces, .closeBracket => (key? pieces).map fun key => (none, .elementEnd key)
  | .elementKey pieces, t => extendKey? pieces .elementKey t
  | .elementEnd key, .closeBracket => some (some (.element key), .lineEnd)
  | .elementEnd _, _ => none
  | .value line around, .blank => some (none, .value line around)
  | .value line around, t => startValue? line around t
  | .item items line around, .blank => some (none, .item items line around)
  | .item items line around, .newline => some (none, .item items line around)
  | .item items line around, .closeBracket => some (put (.list items.reverse) line around)
  | .item items line around, t => startValue? line (.array items :: around) t
  | .afterItem items line around, .blank => some (none, .afterItem items line around)
  | .afterItem items line around, .newline => some (none, .afterItem items line around)
  | .afterItem items line around, .comma => some (none, .item items line around)
  | .afterItem items line around, .closeBracket => some (put (.list items.reverse) line around)
  | .afterItem _ _ _, _ => none
  | .firstPair line around, .blank => some (none, .firstPair line around)
  | .firstPair line around, .closeBrace => some (put (.table []) line around)
  | .firstPair line around, t => extendKey? [] (.pairKey [] · line around) t
  | .pairKey pairs pieces line around, .blank => some (none, .pairKey pairs pieces line around)
  | .pairKey pairs pieces line around, .equals =>
    (key? pieces).map fun key => (none, .value line (.inline pairs key :: around))
  | .pairKey pairs pieces line around, t => extendKey? pieces (.pairKey pairs · line around) t
  | .afterPair pairs line around, .blank => some (none, .afterPair pairs line around)
  | .afterPair pairs line around, .comma => some (none, .pairKey pairs [] line around)
  | .afterPair pairs line around, .closeBrace =>
    (Members.ofPairs? pairs.reverse).map fun members => put members.toNode line around
  | .afterPair _ _ _, _ => none

/-- Whether a text may end at a place. -/
def Place.isFinal : Place → Bool
  | .lineStart => true
  | .lineEnd => true
  | _ => false

/-- The statements of a list of tokens, from a place. -/
def statementsFrom? : Place → List Token → Option (List Statement)
  | place, [] => if place.isFinal then some [] else none
  | place, t :: ts =>
    match step? place t with
    | none => none
    | some (ended, place) => (statementsFrom? place ts).map (ended.toList ++ ·)

end ContentModel.Toml
