import ContentModel.Number.Binary64

/-
# The fewest digits that read back

A decimal reads back as a floating point number when it lies in the interval of reals that round to
that number.  `Binary64.shortest` takes the least count of digits for which the interval holds a
decimal of that many digits, and of two such decimals the nearer one.
-/

namespace ContentModel

/-- The decimal `digits * 10 ^ scale`. -/
structure Decimal where
  /-- The digits, as one natural number. -/
  digits : Nat
  /-- The power of ten. -/
  scale : Int
  deriving DecidableEq, Repr, Inhabited

namespace Decimal

/-- The exponent in scientific notation. -/
def magnitude (d : Decimal) : Int :=
  Binary64.digitCount d.digits - 1 + d.scale

/-- Removes zeros from the end of the digits, at most `fuel` of them. -/
def trimZeros : Nat → Decimal → Decimal
  | 0, d => d
  | fuel + 1, d =>
    if d.digits ≠ 0 ∧ d.digits % 10 = 0 then trimZeros fuel ⟨d.digits / 10, d.scale + 1⟩ else d

end Decimal

namespace Binary64

/-! ## The interval that rounds to a number

All quantities are natural numbers over one common denominator. -/

/-- A positive number and the ends of its rounding interval, as numerators over `den`. -/
structure Interval where
  low : Nat
  value : Nat
  high : Nat
  den : Nat
  /-- Whether the ends themselves round to the number. -/
  closed : Bool

/-- The rounding interval of the absolute value.  Below a power of two the neighbours stand closer. -/
def interval (x : Binary64) : Interval :=
  let below := if x.mantissa = Nat.pow 2 52 ∧ leastExponent < x.exponent then 1 else 2
  let up := Nat.pow 2 x.exponent.toNat
  { low := (4 * x.mantissa - below) * up
    value := 4 * x.mantissa * up
    high := (4 * x.mantissa + 2) * up
    den := 4 * Nat.pow 2 (-x.exponent).toNat
    closed := x.mantissa % 2 = 0 }

/-- Whether `n * 10 ^ k` lies in the interval. -/
def Interval.holds (i : Interval) (n : Nat) (k : Int) : Bool :=
  let point := n * Nat.pow 10 k.toNat * i.den
  let unit := Nat.pow 10 (-k).toNat
  if i.closed then decide (i.low * unit ≤ point ∧ point ≤ i.high * unit)
  else decide (i.low * unit < point ∧ point < i.high * unit)

/-- The decimal exponent of the value in scientific notation. -/
def Interval.magnitude (i : Interval) : Int :=
  if i.den ≤ i.value then (digitCount (i.value / i.den) : Int) - 1
  else
    let count := digitCount (i.den / i.value)
    if i.den ≤ i.value * Nat.pow 10 (count - 1) then -((count : Int) - 1) else -(count : Int)

/-! ## Candidates of a given number of digits -/

/-- The decimal of `count` digits nearest to the value among those in the interval, of two equally
near ones the even one. -/
def Interval.candidate? (i : Interval) (count : Nat) : Option Decimal :=
  let k := i.magnitude - ((count : Int) - 1)
  let num := i.value * Nat.pow 10 (-k).toNat
  let den := i.den * Nat.pow 10 k.toNat
  let floor := num / den
  let twice := 2 * (num % den)
  let lowFirst := decide (twice < den) || (decide (twice = den) && decide (floor % 2 = 0))
  let lower := i.holds floor k
  let upper := i.holds (floor + 1) k
  if lower && (lowFirst || !upper) then some ⟨floor, k⟩
  else if upper then some ⟨floor + 1, k⟩
  else none

/-- The shortest decimal that reads back as the absolute value; seventeen digits always do. -/
def shortest (x : Binary64) : Decimal :=
  if x.mantissa = 0 then ⟨0, 0⟩
  else
    let i := x.interval
    let found := (List.range 17).findSome? fun n => i.candidate? (n + 1)
    Decimal.trimZeros 17 (found.getD ⟨0, 0⟩)

end Binary64

end ContentModel
