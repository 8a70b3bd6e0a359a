import ContentModel.Json.Value
import ContentModel.Number.Shortest

/-
# JSON text of values

Two layouts: `Value.compact` without any white space, and `Value.pretty` with one item or member per
line and two spaces for each level.
-/

namespace ContentModel.Json

/-! ## Numbers -/

/-- How a floating point number is laid out: between the two decimal exponents in positional notation,
and outside of them in scientific notation. -/
structure NumberLayout where
  least : Int
  greatest : Int

/-- Numbers from `0.00001` to below `10 ^ 16` are positional. -/
def Number.layout : NumberLayout :=
  ⟨-5, 15⟩

/-- The decimal digits of a natural number. -/
def digits (n : Nat) : List Char :=
  Nat.toDigits 10 n

/-- A decimal in positional notation, always with a fraction. -/
def positional (d : Decimal) : List Char :=
  let ds := digits d.digits
  if 0 ≤ d.scale then ds ++ List.replicate d.scale.toNat '0' ++ ['.', '0']
  else
    let places := (-d.scale).toNat
    let padded := List.replicate (places + 1 - ds.length) '0' ++ ds
    padded.take (padded.length - places) ++ ['.'] ++ padded.drop (padded.length - places)

/-- A decimal in scientific notation, with a sign in the exponent and a fraction only if needed. -/
def scientific (d : Decimal) : List Char :=
  let exponent := d.magnitude
  let sign := if 0 ≤ exponent then '+' else '-'
  let fraction := (digits d.digits).drop 1
  (digits d.digits).take 1 ++ (if fraction.isEmpty then [] else '.' :: fraction) ++
    ['e', sign] ++ digits exponent.natAbs

/-- The text of a floating point number: the fewest digits that read back. -/
def realText (x : Binary64) : List Char :=
  let d := x.shortest
  let body :=
    if x.mantissa = 0 then ['0', '.', '0']
    else if Number.layout.least ≤ d.magnitude ∧ d.magnitude ≤ Number.layout.greatest then
      positional d
    else scientific d
  if x.negative then '-' :: body else body

/-- The text of an integer. -/
def integerText (n : Int) : List Char :=
  if n < 0 then '-' :: digits n.natAbs else digits n.natAbs

/-- The text of a number. -/
def Number.text : Number → List Char
  | .integer n => integerText n
  | .real x => realText x

/-! ## Strings -/

/-- The digit of a value below sixteen, lowercase. -/
def hexDigit (n : Nat) : Char :=
  Nat.digitChar n

/-- How a character is written in a string: only the quote, the backslash and control characters are
escaped. -/
def escape (c : Char) : List Char :=
  match c with
  | '"' => ['\\', '"']
  | '\\' => ['\\', '\\']
  | '\x08' => ['\\', 'b']
  | '\x0c' => ['\\', 'f']
  | '\n' => ['\\', 'n']
  | '\r' => ['\\', 'r']
  | '\t' => ['\\', 't']
  | c =>
    if c.toNat < 0x20 then
      ['\\', 'u', '0', '0', hexDigit (c.toNat / 16), hexDigit (c.toNat % 16)]
    else [c]

/-- A string in quotes. -/
def quote (s : String) : List Char :=
  '"' :: s.toList.flatMap escape ++ ['"']

/-! ## Values -/

namespace Value

mutual

/-- The text of a value without white space. -/
def compactChars : Value → List Char
  | null => "null".toList
  | bool true => "true".toList
  | bool false => "false".toList
  | number n => n.text
  | string s => quote s
  | array items => '[' :: compactItems items ++ [']']
  | object members => '{' :: compactMembers members ++ ['}']

/-- Items, with commas between them. -/
def compactItems : List Value → List Char
  | [] => []
  | [v] => compactChars v
  | v :: w :: vs => compactChars v ++ ',' :: compactItems (w :: vs)

/-- Members, with commas between them. -/
def compactMembers : List (String × Value) → List Char
  | [] => []
  | [(n, v)] => quote n ++ ':' :: compactChars v
  | (n, v) :: m :: ms => quote n ++ ':' :: compactChars v ++ ',' :: compactMembers (m :: ms)

end

/-- A new line at a level. -/
def newline (level : Nat) : List Char :=
  '\n' :: List.replicate (2 * level) ' '

mutual

/-- The text of a value that stands at a level, with line breaks. -/
def prettyChars (level : Nat) : Value → List Char
  | null => "null".toList
  | bool true => "true".toList
  | bool false => "false".toList
  | number n => n.text
  | string s => quote s
  | array [] => ['[', ']']
  | array (v :: vs) =>
    '[' :: newline (level + 1) ++ prettyItems (level + 1) (v :: vs) ++ newline level ++ [']']
  | object [] => ['{', '}']
  | object (m :: ms) =>
    '{' :: newline (level + 1) ++ prettyMembers (level + 1) (m :: ms) ++ newline level ++ ['}']

/-- Items, each on its line. -/
def prettyItems (level : Nat) : List Value → List Char
  | [] => []
  | [v] => prettyChars level v
  | v :: w :: vs => prettyChars level v ++ ',' :: newline level ++ prettyItems level (w :: vs)

/-- Members, each on its line. -/
def prettyMembers (level : Nat) : List (String × Value) → List Char
  | [] => []
  | [(n, v)] => quote n ++ ':' :: ' ' :: prettyChars level v
  | (n, v) :: m :: ms =>
    quote n ++ ':' :: ' ' :: prettyChars level v ++ ',' :: newline level ++
      prettyMembers level (m :: ms)

end

/-- The text of a value without white space. -/
def compact (v : Value) : String :=
  String.ofList v.compactChars

/-- The text of a value with one item or member per line. -/
def pretty (v : Value) : String :=
  String.ofList (v.prettyChars 0)

end Value

end ContentModel.Json
