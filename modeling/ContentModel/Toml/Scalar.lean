import ContentModel.Json.Token
import ContentModel.Notation.Node
import ContentModel.Text.Calendar

/-
# TOML values without quotes

A run of bare characters is a value if it is a truth value, an integer of 64 bits, a number in binary64,
or a date, a time or both.
-/

namespace ContentModel.Toml

open Notation (Leaf)

/-! ## Digits -/

/-- A run of digits, in which one underscore may stand between two digits, without the underscores. -/
def digits? (isDigit : Char → Bool) : List Char → Option (List Char)
  | [] => none
  | [c] => if isDigit c then some [c] else none
  | c :: '_' :: cs => if isDigit c then (digits? isDigit cs).map (c :: ·) else none
  | c :: cs => if isDigit c then (digits? isDigit cs).map (c :: ·) else none

/-- Decimal digits, which start with zero only if there is no other. -/
def wholeDigits? (cs : List Char) : Option (List Char) :=
  match cs with
  | '0' :: _ :: _ => none
  | cs => digits? Char.isDigit cs

/-- A text less its sign, and whether that was a minus. -/
def unsigned : List Char → Bool × List Char
  | '+' :: cs => (false, cs)
  | '-' :: cs => (true, cs)
  | cs => (false, cs)

/-! ## Integers -/

/-- The value of digits of a base. -/
def natOfDigits (base : Nat) (cs : List Char) : Nat :=
  cs.foldl (fun n c => base * n + (Text.hexValue? c).getD 0) 0

/-- A natural number with the mark of its base, which takes no sign. -/
def marked? : List Char → Option Nat
  | '0' :: 'x' :: cs => (digits? (fun c => (Text.hexValue? c).isSome) cs).map (natOfDigits 16)
  | '0' :: 'o' :: cs => (digits? (fun c => '0' ≤ c ∧ c ≤ '7') cs).map (natOfDigits 8)
  | '0' :: 'b' :: cs => (digits? (fun c => c = '0' ∨ c = '1') cs).map (natOfDigits 2)
  | _ => none

/-- An integer. -/
def integer? (cs : List Char) : Option Int :=
  match marked? cs with
  | some n => some n
  | none =>
    let (negative, rest) := unsigned cs
    (wholeDigits? rest).map fun ds =>
      if negative then -(natOfDigits 10 ds : Int) else natOfDigits 10 ds

/-- Whether an integer has 64 bits. -/
def fits (n : Int) : Bool :=
  -(Nat.pow 2 63 : Int) ≤ n && n < (Nat.pow 2 63 : Int)

/-! ## Numbers -/

/-- The exponent of a number. -/
def exponent? (cs : List Char) : Option Int :=
  let (negative, rest) := unsigned cs
  (digits? Char.isDigit rest).map fun ds =>
    if negative then -(natOfDigits 10 ds : Int) else natOfDigits 10 ds

/-- Whether a character starts an exponent. -/
def isExponentMark (c : Char) : Bool :=
  c = 'e' || c = 'E'

/-- The digits and the exponent of a number that has a fraction, an exponent or both. -/
def decimal? (cs : List Char) : Option (List Char × Int) := do
  let beforeExponent := cs.takeWhile fun c => !isExponentMark c
  let e ← match cs.dropWhile fun c => !isExponentMark c with
    | [] => some 0
    | _ :: cs => exponent? cs
  let whole ← wholeDigits? (beforeExponent.takeWhile (· ≠ '.'))
  match beforeExponent.dropWhile (· ≠ '.') with
  | [] => some (whole, e)
  | _ :: cs =>
    let fraction ← digits? Char.isDigit cs
    some (whole ++ fraction, e - fraction.length)

/-- Whether a text is a number in binary64.  A negative one may be too large. -/
def isNumber (cs : List Char) : Bool :=
  let (negative, rest) := unsigned cs
  rest = ['i', 'n', 'f'] || rest = ['n', 'a', 'n'] ||
    match decimal? rest with
    | some (ds, e) => negative || (Binary64.ofDecimal false (natOfDigits 10 ds) e).isSome
    | none => false

/-! ## Dates and times -/

/-- Whether the rest of a text, after a time, is an optional zone. -/
def isZone : List Char → Bool
  | [] => true
  | [z] => z = 'Z' || z = 'z'
  | [sign, h₁, h₂, ':', m₁, m₂] => (sign = '+' || sign = '-') && Text.isOffsetText h₁ h₂ m₁ m₂
  | _ => false

/-- Whether a text is a time with an optional fraction, after which `isRest` holds. -/
def isTime (isRest : List Char → Bool) : List Char → Bool
  | h₁ :: h₂ :: ':' :: m₁ :: m₂ :: ':' :: s₁ :: s₂ :: cs =>
    Text.isClockText h₁ h₂ m₁ m₂ s₁ s₂ &&
      match cs with
      | '.' :: d :: cs => d.isDigit && isRest (cs.dropWhile Char.isDigit)
      | cs => isRest cs
  | _ => false

/-- Whether a text is a date, a time or both. -/
def isDateOrTime : List Char → Bool
  | y₁ :: y₂ :: y₃ :: y₄ :: '-' :: m₁ :: m₂ :: '-' :: d₁ :: d₂ :: cs =>
    Text.isDayText y₁ y₂ y₃ y₄ m₁ m₂ d₁ d₂ &&
      match cs with
      | [] => true
      | mark :: cs => (mark = 'T' || mark = 't' || mark = ' ') && isTime isZone cs
  | cs => isTime List.isEmpty cs

/-! ## Values -/

/-- What a run of bare characters can be read as, if it is a value. -/
def scalar? (cs : List Char) : Option Leaf :=
  if cs = ['t', 'r', 'u', 'e'] then some (.ofBool true)
  else if cs = ['f', 'a', 'l', 's', 'e'] then some (.ofBool false)
  else match integer? cs with
    | some n => if fits n then some (.ofNumber (.integer n)) else none
    | none => if isNumber cs || isDateOrTime cs then some .unreadable else none

end ContentModel.Toml
