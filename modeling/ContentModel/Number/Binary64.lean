/-
# Binary floating point numbers of 64 bits

A finite number is a sign, a mantissa and a binary exponent.  `Binary64.ofRatio` rounds a quotient of
natural numbers to the nearest of them, a half going to the even neighbour; `Binary64.ofDecimal` does
so for a decimal numeral.
-/

namespace ContentModel

/-- The finite number `± mantissa * 2 ^ exponent`.  The mantissa has 53 bits, or fewer when the
exponent is the least one, so each number has one form. -/
structure Binary64 where
  /-- Whether the sign is minus; zero carries a sign too. -/
  negative : Bool
  /-- Below `2 ^ 53`. -/
  mantissa : Nat
  /-- Between `-1074` and `971`. -/
  exponent : Int
  deriving DecidableEq, Repr, Inhabited

namespace Binary64

/-- The least binary exponent. -/
def leastExponent : Int := -1074

/-- The greatest binary exponent. -/
def greatestExponent : Int := 971

/-! ## Rounding -/

/-- Zero with a sign. -/
def zero (negative : Bool) : Binary64 :=
  ⟨negative, 0, leastExponent⟩

/-- The quotient rounded to the nearest integer, a half to the even one. -/
def roundQuotient (num den : Nat) : Nat :=
  let q := num / den
  let twice := 2 * (num % den)
  if twice < den then q
  else if den < twice then q + 1
  else if q % 2 = 0 then q else q + 1

/-- The quotient of `num` by `den * 2 ^ e`, as a pair of natural numbers. -/
def unscale (num den : Nat) (e : Int) : Nat × Nat :=
  if 0 ≤ e then (num, den * Nat.pow 2 e.toNat) else (num * Nat.pow 2 (-e).toNat, den)

/-- The exponent at which a positive quotient has a mantissa of 53 bits, or the least exponent if
that is greater. -/
def exponentOfRatio (num den : Nat) : Int :=
  let e : Int := (num.log2 : Int) - (den.log2 : Int) - 53
  let (n, d) := unscale num den e
  max leastExponent (if Nat.pow 2 53 ≤ n / d then e + 1 else e)

/-- The number nearest to `num / den`, and `none` when it would be too large. -/
def ofRatio (negative : Bool) (num den : Nat) : Option Binary64 :=
  if num = 0 then some (zero negative)
  else
    let e := exponentOfRatio num den
    let (n, d) := unscale num den e
    let m := roundQuotient n d
    let (m, e) := if m = Nat.pow 2 53 then (Nat.pow 2 52, e + 1) else (m, e)
    if greatestExponent < e then none else some ⟨negative, m, e⟩

/-- The number nearest to an integer. -/
def ofInt? (n : Int) : Option Binary64 :=
  ofRatio (decide (n < 0)) n.natAbs 1

/-! ## Decimal numerals -/

/-- How many decimal digits a natural number has. -/
def digitCount (n : Nat) : Nat :=
  (Nat.toDigits 10 n).length

/-- The number nearest to `± digits * 10 ^ scale`, and `none` when it would be too large.  Scales far
outside the range are answered without computing the power. -/
def ofDecimal (negative : Bool) (digits : Nat) (scale : Int) : Option Binary64 :=
  if digits = 0 then some (zero negative)
  else
    let magnitude : Int := digitCount digits + scale
    if 310 < magnitude then none
    else if magnitude < -330 then some (zero negative)
    else if 0 ≤ scale then ofRatio negative (digits * Nat.pow 10 scale.toNat) 1
    else ofRatio negative digits (Nat.pow 10 (-scale).toNat)

end Binary64

end ContentModel
