import ContentModel.Number.Binary64
import ContentModel.Notation.Node
import ContentModel.Text.Code

/-
# What YAML scalars stand for

A plain scalar can stand for nothing, for a truth value or for a number, by the rules of the core schema;
every other scalar is a text.  Digits after a leading zero are a text too, though they look like a number.
-/

namespace ContentModel.Yaml

open Notation (Leaf)

/-! ## Scalars -/

/-- How a scalar is written. -/
inductive Style where
  | plain | quoted | literal | folded
  deriving DecidableEq, Repr, Inhabited

/-- A scalar, with its tag if it has one. -/
structure Scalar where
  text : String
  style : Style
  tag : Option String
  deriving DecidableEq, Repr, Inhabited

/-! ## Plain texts -/

/-- Whether a plain text stands for nothing. -/
def isNull (s : String) : Bool :=
  ["null", "Null", "NULL", "~"].contains s

/-- The truth value that a plain text stands for. -/
def bool? (s : String) : Option Bool :=
  if ["true", "True", "TRUE"].contains s then some true
  else if ["false", "False", "FALSE"].contains s then some false
  else none

/-- A text less its sign, and whether that was a minus. -/
def unsigned : List Char → Bool × List Char
  | '+' :: cs => (false, cs)
  | '-' :: cs => (true, cs)
  | cs => (false, cs)

/-- Whether a text is a zero followed by digits. -/
def isZeroPadded (cs : List Char) : Bool :=
  match (unsigned cs).2 with
  | '0' :: d :: ds => (d :: ds).all Char.isDigit
  | _ => false

/-- The value of digits of a base. -/
def natOfDigits? (base : Nat) : List Char → Option Nat
  | [] => none
  | cs => cs.foldlM (fun n c =>
      (Text.hexValue? c).bind fun d => if d < base then some (base * n + d) else none) 0

/-- The natural number that digits after the mark of their base stand for. -/
def marked? : List Char → Option Nat
  | '0' :: 'x' :: cs => natOfDigits? 16 cs
  | '0' :: 'o' :: cs => natOfDigits? 8 cs
  | '0' :: 'b' :: cs => natOfDigits? 2 cs
  | _ => none

/-- Whether a plain text is an integer of 128 bits with the mark of its base. -/
def isMarkedInteger (cs : List Char) : Bool :=
  let (negative, rest) := unsigned cs
  match marked? rest with
  | some n => if negative then n ≤ Nat.pow 2 127 else n < Nat.pow 2 128
  | none => false

/-- The exponent at the end of a number. -/
def exponent? : List Char → Option Int
  | [] => some 0
  | c :: cs =>
    let (negative, rest) := unsigned cs
    if c = 'e' ∨ c = 'E' then
      (natOfDigits? 10 rest).map fun n => if negative then -(n : Int) else n
    else none

/-- Whether a text without a sign is a finite number in decimal. -/
def isDecimal (cs : List Char) : Bool :=
  let whole := cs.takeWhile Char.isDigit
  let rest := cs.dropWhile Char.isDigit
  let (fraction, rest) :=
    match rest with
    | '.' :: cs => (cs.takeWhile Char.isDigit, cs.dropWhile Char.isDigit)
    | cs => ([], cs)
  match natOfDigits? 10 (whole ++ fraction), exponent? rest with
  | some n, some e => (Binary64.ofDecimal false n (e - fraction.length)).isSome
  | _, _ => false

/-- Whether a plain text is a number in binary64. -/
def isReal (cs : List Char) : Bool :=
  let (_, rest) := unsigned cs
  [".inf", ".Inf", ".INF"].contains (String.ofList rest) ||
    [".nan", ".NaN", ".NAN"].contains (String.ofList cs) || isDecimal rest

/-- Whether a plain text would not be read as a text, or would look like something else. -/
def isAmbiguous (s : String) : Bool :=
  let cs := s.toList
  cs.isEmpty || isNull s || (bool? s).isSome || isZeroPadded cs || isMarkedInteger cs || isReal cs

/-! ## Scalars as documents -/

/-- The tag of truth values. -/
def boolTag : String :=
  "tag:yaml.org,2002:bool"

namespace Scalar

/-- Whether nothing is written. -/
def isBlank (s : Scalar) : Bool :=
  s.style = .plain && s.text = ""

/-- A scalar as a word: the word may also be the tag of a scalar that stands for nothing. -/
def word? (s : Scalar) : Option String :=
  match s.tag with
  | none => some s.text
  | some tag =>
    if s.style = .plain ∧ (s.text = "" ∨ isNull s.text) then
      match tag.toList with
      | '!' :: word => some (String.ofList word)
      | _ => some tag
    else none

/-- A scalar as a truth value. -/
def bool? (s : Scalar) : Option Bool :=
  if s.style = .plain ∨ (s.style = .literal ∧ s.tag = some boolTag) then Yaml.bool? s.text else none

/-- What a scalar can be read as.  Every scalar can be read as a text. -/
def toLeaf (s : Scalar) : Leaf :=
  { Leaf.unreadable with
    text? := some s.text
    word? := s.word?
    bool? := s.bool?
    isBlank := s.isBlank }

end Scalar

end ContentModel.Yaml
