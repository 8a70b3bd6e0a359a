import ContentModel.Json.Value
import ContentModel.Text.Code

/-
# The tokens of JSON text

The reader of tokens takes one character at a time: it is in the middle of a word, of a numeral, of a
string, or between tokens.  Numerals and strings are checked for form here and evaluated later, since
what no structure reads has to be well formed and nothing more.
-/

namespace ContentModel.Json

/-! ## Numerals -/

/-- A number as written: `± digits * 10 ^ scale`. -/
structure Numeral where
  negative : Bool
  digits : Nat
  scale : Int
  /-- Whether the numeral has neither a fraction nor an exponent. -/
  plain : Bool
  deriving DecidableEq, Repr, Inhabited

namespace Numeral

/-- The value of a string of decimal digits. -/
def natOfDigits (cs : List Char) : Nat :=
  cs.foldl (fun n c => 10 * n + (c.toNat - '0'.toNat)) 0

/-- The digits at the start of a text, which must not be empty, and the rest. -/
def takeDigits? (cs : List Char) : Option (List Char × List Char) :=
  match cs.takeWhile Char.isDigit with
  | [] => none
  | ds => some (ds, cs.dropWhile Char.isDigit)

/-- The exponent at the end of a numeral. -/
def exponent? : List Char → Option Int
  | '+' :: cs => signed cs 1
  | '-' :: cs => signed cs (-1)
  | cs => signed cs 1
where
  /-- The digits up to the end, with a sign. -/
  signed (cs : List Char) (sign : Int) : Option Int :=
    match takeDigits? cs with
    | some (ds, []) => some (sign * natOfDigits ds)
    | _ => none

/-- What follows the digits before the point. -/
def afterWhole? (negative : Bool) (whole : List Char) : List Char → Option Numeral
  | [] => some ⟨negative, natOfDigits whole, 0, true⟩
  | '.' :: cs =>
    match takeDigits? cs with
    | none => none
    | some (fraction, rest) => afterFraction? fraction rest
  | cs => afterFraction? [] cs
where
  /-- What follows the fraction. -/
  afterFraction? (fraction : List Char) : List Char → Option Numeral
    | [] => some ⟨negative, natOfDigits (whole ++ fraction), -fraction.length, false⟩
    | c :: cs =>
      if c = 'e' ∨ c = 'E' then
        (exponent? cs).map fun e =>
          ⟨negative, natOfDigits (whole ++ fraction), e - fraction.length, false⟩
      else none

/-- Reads a numeral.  No zero precedes another digit before the point. -/
def ofChars? (cs : List Char) : Option Numeral :=
  let negative := cs.head? = some '-'
  match takeDigits? (if negative then cs.tail else cs) with
  | none => none
  | some ('0' :: _ :: _, _) => none
  | some (whole, rest) => afterWhole? negative whole rest

/-- The number that a numeral denotes, and `none` when it would be too large. -/
def number? (n : Numeral) : Option Number :=
  if n.plain ∧ ¬ n.negative ∧ n.digits < Nat.pow 2 64 then some (.integer n.digits)
  else if n.plain ∧ n.negative ∧ 0 < n.digits ∧ n.digits ≤ Nat.pow 2 63 then some (.integer (-n.digits))
  else (Binary64.ofDecimal n.negative n.digits n.scale).map .real

end Numeral

/-! ## Tokens -/

/-- A token.  A string that names half of a surrogate pair alone has no text. -/
inductive Token where
  | openArray | closeArray | openObject | closeObject | comma | colon
  | null
  | bool (b : Bool)
  | number (n : Numeral)
  | string (s : Option String)
  deriving DecidableEq, Repr, Inhabited

namespace Token

/-! ## Strings -/

/-- The part of a string read so far. -/
structure Partial where
  /-- The characters, last one first. -/
  chars : List Char
  /-- The first half of a surrogate pair, when it was read last. -/
  half : Option Nat
  /-- Whether half of a pair stood alone. -/
  broken : Bool
  deriving DecidableEq, Repr, Inhabited

namespace Partial

/-- Nothing read. -/
def empty : Partial :=
  ⟨[], none, false⟩

/-- Adds a character. -/
def push (p : Partial) (c : Char) : Partial :=
  ⟨c :: p.chars, none, p.broken || p.half.isSome⟩

/-- Adds a code unit of sixteen bits. -/
def pushUnit (p : Partial) (u : Nat) : Partial :=
  match p.half with
  | some h =>
    if 0xDC00 ≤ u ∧ u < 0xE000 then
      ⟨Char.ofNat (0x10000 + (h - 0xD800) * 0x400 + (u - 0xDC00)) :: p.chars, none, p.broken⟩
    else ⟨p.chars, none, true⟩
  | none =>
    if 0xD800 ≤ u ∧ u < 0xDC00 then ⟨p.chars, some u, p.broken⟩
    else if 0xDC00 ≤ u ∧ u < 0xE000 then ⟨p.chars, none, true⟩
    else ⟨Char.ofNat u :: p.chars, none, p.broken⟩

/-- The text of a finished string. -/
def text? (p : Partial) : Option String :=
  if p.broken || p.half.isSome then none else some (String.ofList p.chars.reverse)

end Partial

/-- The character that a short escape stands for. -/
def unescape? : Char → Option Char
  | '"' => some '"'
  | '\\' => some '\\'
  | '/' => some '/'
  | 'b' => some '\x08'
  | 'f' => some '\x0c'
  | 'n' => some '\n'
  | 'r' => some '\r'
  | 't' => some '\t'
  | _ => none

/-! ## Reading characters one by one -/

/-- Where the reader stands. -/
inductive Mode where
  | between
  /-- Inside a word, its letters last one first. -/
  | word (letters : List Char)
  /-- Inside a numeral, its characters last one first. -/
  | numeral (chars : List Char)
  | text (p : Partial)
  /-- After a backslash. -/
  | escape (p : Partial)
  /-- Inside a code unit written with `left + 1` more hexadecimal digits. -/
  | unit (p : Partial) (left : Nat) (value : Nat)
  deriving Repr, Inhabited

/-- White space between tokens. -/
def isSpace (c : Char) : Bool :=
  c = ' ' || c = '\t' || c = '\n' || c = '\r'

/-- Whether a character can stand in a numeral. -/
def isNumeral (c : Char) : Bool :=
  c.isDigit || c = '-' || c = '+' || c = '.' || c = 'e' || c = 'E'

/-- The token of a word. -/
def ofWord? (letters : List Char) : Option Token :=
  match String.ofList letters.reverse with
  | "null" => some .null
  | "true" => some (.bool true)
  | "false" => some (.bool false)
  | _ => none

/-- A character read between tokens. -/
def start? (c : Char) : Option (List Token × Mode) :=
  match c with
  | '[' => some ([openArray], .between)
  | ']' => some ([closeArray], .between)
  | '{' => some ([openObject], .between)
  | '}' => some ([closeObject], .between)
  | ',' => some ([comma], .between)
  | ':' => some ([colon], .between)
  | '"' => some ([], .text .empty)
  | c =>
    if isSpace c then some ([], .between)
    else if c.isDigit || c = '-' then some ([], .numeral [c])
    else if c.isAlpha then some ([], .word [c])
    else none

/-- One more character: the tokens that it ends, and where the reader stands then. -/
def step? : Mode → Char → Option (List Token × Mode)
  | .between, c => start? c
  | .word letters, c =>
    if c.isAlpha then some ([], .word (c :: letters))
    else do
      let token ← ofWord? letters
      let (tokens, mode) ← start? c
      some (token :: tokens, mode)
  | .numeral chars, c =>
    if isNumeral c then some ([], .numeral (c :: chars))
    else do
      let n ← Numeral.ofChars? chars.reverse
      let (tokens, mode) ← start? c
      some (.number n :: tokens, mode)
  | .text p, c =>
    if c = '"' then some ([.string p.text?], .between)
    else if c = '\\' then some ([], .escape p)
    else if c.toNat < 0x20 then none
    else some ([], .text (p.push c))
  | .escape p, c =>
    if c = 'u' then some ([], .unit p 3 0)
    else (unescape? c).map fun e => ([], .text (p.push e))
  | .unit p left value, c =>
    (Text.hexValue? c).map fun d =>
      match left with
      | 0 => ([], .text (p.pushUnit (16 * value + d)))
      | left + 1 => ([], .unit p left (16 * value + d))

/-- What the end of the text ends. -/
def finish? : Mode → Option (List Token)
  | .between => some []
  | .word letters => (ofWord? letters).map ([·])
  | .numeral chars => (Numeral.ofChars? chars.reverse).map fun n => [.number n]
  | _ => none

/-- The tokens of a text read from a given mode. -/
def readFrom? : Mode → List Char → Option (List Token)
  | mode, [] => finish? mode
  | mode, c :: cs =>
    match step? mode c with
    | none => none
    | some (tokens, mode) => (readFrom? mode cs).map (tokens ++ ·)

/-- The tokens of a text. -/
def read? (cs : List Char) : Option (List Token) :=
  readFrom? .between cs

end Token

end ContentModel.Json
