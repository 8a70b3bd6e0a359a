/-
# Days and two-digit numbers

The Gregorian calendar, and the numbers of two ASCII digits that dates and times are written with.
-/

namespace ContentModel.Text

/-! ## The calendar -/

/-- Whether a year has a 29th of February. -/
def isLeapYear (year : Nat) : Bool :=
  year % 4 == 0 && (year % 100 != 0 || year % 400 == 0)

/-- How many days a month has; zero if there is no such month. -/
def daysInMonth (year month : Nat) : Nat :=
  if month = 2 then (if isLeapYear year then 29 else 28)
  else if month = 4 ∨ month = 6 ∨ month = 9 ∨ month = 11 then 30
  else if 1 ≤ month ∧ month ≤ 12 then 31
  else 0

/-- Whether a day exists. -/
def isDay (year month day : Nat) : Bool :=
  1 ≤ day && day ≤ daysInMonth year month

/-! ## Digits -/

/-- The value of a digit. -/
def digitValue? (c : Char) : Option Nat :=
  if c.isDigit then some (c.toNat - '0'.toNat) else none

/-- The value of two digits. -/
def twoDigits? (a b : Char) : Option Nat :=
  match digitValue? a, digitValue? b with
  | some m, some n => some (10 * m + n)
  | _, _ => none

/-- Whether two digits have a value of at most `limit`. -/
def twoDigitsUpTo (limit : Nat) (a b : Char) : Bool :=
  match twoDigits? a b with
  | some n => n ≤ limit
  | none => false

/-! ## Days and times as text -/

/-- Whether eight digits, in groups of four, two and two, are a day. -/
def isDayText (y₁ y₂ y₃ y₄ m₁ m₂ d₁ d₂ : Char) : Bool :=
  match twoDigits? y₁ y₂, twoDigits? y₃ y₄, twoDigits? m₁ m₂, twoDigits? d₁ d₂ with
  | some century, some year, some month, some day => isDay (100 * century + year) month day
  | _, _, _, _ => false

/-- Whether six digits are hours, minutes and seconds.  A minute may have a second 60. -/
def isClockText (h₁ h₂ m₁ m₂ s₁ s₂ : Char) : Bool :=
  twoDigitsUpTo 23 h₁ h₂ && twoDigitsUpTo 59 m₁ m₂ && twoDigitsUpTo 60 s₁ s₂

/-- Whether four digits are hours and minutes. -/
def isOffsetText (h₁ h₂ m₁ m₂ : Char) : Bool :=
  twoDigitsUpTo 23 h₁ h₂ && twoDigitsUpTo 59 m₁ m₂

end ContentModel.Text
