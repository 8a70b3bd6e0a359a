import ContentModel.Text.Blank
import ContentModel.Text.Calendar
import ContentModel.Text.DigitTable

/-
# Texts that are dates

A text is date-like if, after removing white space from its ends, it has the layout of a date, alone or with
a time, and a format for such texts reads all of it as a day and a time that exist.  Layouts fix where digits
and marks stand, and take digits of any script.  Formats read numbers, in ASCII digits only, and leave more
room: some allow white space, signs and fewer digits.
-/

namespace ContentModel.Recognition

/-! ## Layouts -/

/-- What stands somewhere in a layout. -/
inductive Place where
  /-- So many decimal digits. -/
  | digits (count : Nat)
  /-- One of some characters. -/
  | mark (marks : List Char)
  deriving DecidableEq, Repr

/-- What follows a place at the start of a text. -/
def Place.drop? : Place → List Char → Option (List Char)
  | .digits count, cs =>
    if count ≤ cs.length ∧ (cs.take count).all Text.isDecimal then some (cs.drop count) else none
  | .mark _, [] => none
  | .mark marks, c :: cs => if c ∈ marks then some cs else none

/-- What follows some places at the start of a text. -/
def dropPlaces? (places : List Place) (cs : List Char) : Option (List Char) :=
  places.foldlM (fun cs place => place.drop? cs) cs

/-- The layout of a date. -/
def dateLayout : List Place := [.digits 4, .mark ['-'], .digits 2, .mark ['-'], .digits 2]

/-- The layout of a time, with the mark before it. -/
def timeLayout : List Place :=
  [.mark ['T', ' '], .digits 2, .mark [':'], .digits 2, .mark [':'], .digits 2]

/-- The layouts of a zone. -/
def zoneLayouts : List (List Place) := [
  [], [.mark ['Z']], [.mark ['+', '-'], .digits 2, .digits 2],
  [.mark ['+', '-'], .digits 2, .mark [':'], .digits 2]]

/-- What follows a fraction, if there is one, at the start of a text. -/
def dropFraction : List Char → List Char
  | '.' :: c :: cs => if Text.isDecimal c then cs.dropWhile Text.isDecimal else '.' :: c :: cs
  | cs => cs

/-- Whether a text has the layout of a date. -/
def hasDateLayout (cs : List Char) : Bool :=
  dropPlaces? dateLayout cs == some []

/-- Whether a text has the layout of a date with a time, and perhaps a fraction and a zone. -/
def hasDateTimeLayout (cs : List Char) : Bool :=
  match dropPlaces? (dateLayout ++ timeLayout) cs with
  | some rest => zoneLayouts.any fun layout => dropPlaces? layout (dropFraction rest) == some []
  | none => false

/-! ## Readings -/

/-- The numbers of a date and a time. -/
inductive Part where
  | year | month | day | hour | minute | second
  deriving DecidableEq, Repr

/-- How many digits a number has. -/
def Part.width : Part → Nat
  | .year => 4
  | _ => 2

/-- What was read of a date and a time. -/
abbrev Reading := Part → Int

/-- What was read before, and one number more. -/
def Reading.set (r : Reading) (part : Part) (n : Int) : Reading :=
  fun p => if p = part then n else r p

/-- Whether what was read is a day.  Years are limited, and the calendar repeats itself every 400 years. -/
def Reading.isDay (r : Reading) : Bool :=
  decide (-262143 ≤ r .year) && decide (r .year ≤ 262142) &&
    Text.isDay (r .year % 400).toNat (r .month).toNat (r .day).toNat

/-- Whether what was read is a time of the day.  A minute may have a second 60. -/
def Reading.isTime (r : Reading) : Bool :=
  decide (r .hour ≤ 23) && decide (r .minute ≤ 59) && decide (r .second ≤ 60)

/-! ## Formats -/

/-- An item of a format. -/
inductive Item where
  /-- A number with all its digits. -/
  | exact (part : Part)
  /-- A number, perhaps after white space, with fewer digits or, if it is a year, with a sign. -/
  | loose (part : Part)
  /-- One of some characters. -/
  | mark (marks : List Char)
  /-- White space, if there is any. -/
  | blanks
  /-- A fraction, if there is one. -/
  | fraction
  /-- A zone. -/
  | zone
  deriving DecidableEq, Repr

/-- Reads as many digits as there are, at least and at most so many. -/
def readDigits? (least most : Nat) (cs : List Char) : Option (Nat × List Char) :=
  let ds := (cs.take most).takeWhile Char.isDigit
  if least ≤ ds.length then some (Nat.ofDigitChars 10 ds 0, cs.drop ds.length) else none

/-- Reads a number that may have fewer digits.  After a sign, a year may have any number of them. -/
def readLoose? : Part → List Char → Option (Int × List Char)
  | .year, '-' :: cs => (readDigits? 1 cs.length cs).map fun (n, rest) => (-n, rest)
  | .year, '+' :: cs => (readDigits? 1 cs.length cs).map fun (n, rest) => (n, rest)
  | part, cs => (readDigits? 1 part.width cs).map fun (n, rest) => (n, rest)

/-- What follows a fraction, if there is one.  Of its digits, those after the ninth do not count. -/
def skipFraction? : List Char → Option (List Char)
  | '.' :: cs => (readDigits? 1 9 cs).map fun (_, rest) => rest.dropWhile Char.isDigit
  | cs => some cs

/-- What follows a zone: a `Z`, or a sign, hours, a colon and minutes. -/
def skipZone? : List Char → Option (List Char)
  | 'Z' :: cs => some cs
  | 'z' :: cs => some cs
  | sign :: h₁ :: h₂ :: ':' :: m₁ :: m₂ :: cs =>
    if sign ∈ ['+', '-', '\u2212'] ∧ Text.isOffsetText h₁ h₂ m₁ m₂ then some cs else none
  | _ => none

/-- Reads an item at the start of a text. -/
def Item.read? : Item → Reading × List Char → Option (Reading × List Char)
  | .exact part, (r, cs) =>
    (readDigits? part.width part.width cs).map fun (n, rest) => (r.set part n, rest)
  | .loose part, (r, cs) =>
    (readLoose? part (cs.dropWhile Text.isBlank)).map fun (n, rest) => (r.set part n, rest)
  | .mark _, (_, []) => none
  | .mark marks, (r, c :: cs) => if c ∈ marks then some (r, cs) else none
  | .blanks, (r, cs) => some (r, cs.dropWhile Text.isBlank)
  | .fraction, (r, cs) => (skipFraction? cs).map fun rest => (r, rest)
  | .zone, (r, cs) => (skipZone? cs).map fun rest => (r, rest)

/-- Reads some items at the start of a text. -/
def readItems? (items : List Item) (s : Reading × List Char) : Option (Reading × List Char) :=
  items.foldlM (fun s item => item.read? s) s

/-- Reads a whole text. -/
def readFormat? (format : List Item) (cs : List Char) : Option Reading :=
  match readItems? format (fun _ => 0, cs) with
  | some (r, []) => some r
  | _ => none

/-- The items of a date, its numbers read in a given way. -/
def dateItems (number : Part → Item) : List Item :=
  [number .year, .mark ['-'], number .month, .mark ['-'], number .day]

/-- The items of a time, its numbers read in a given way. -/
def timeItems (number : Part → Item) : List Item :=
  [number .hour, .mark [':'], number .minute, .mark [':'], number .second]

/-- The format of a date. -/
def dateFormat : List Item := dateItems .loose

/-- The format of a date and a time with a zone, as in RFC 3339. -/
def zonedFormat : List Item :=
  dateItems .exact ++ .mark ['T', 't', ' '] :: timeItems .exact ++ [.fraction, .zone]

/-- The formats of a date and a time without a zone. -/
def localFormats : List (List Item) := [
  dateItems .loose ++ .mark ['T'] :: timeItems .loose,
  dateItems .loose ++ .mark ['T'] :: timeItems .loose ++ [.fraction],
  dateItems .loose ++ .blanks :: timeItems .loose,
  dateItems .loose ++ .blanks :: timeItems .loose ++ [.fraction]]

/-- Whether a format reads a text as a day. -/
def readsAsDay (format : List Item) (cs : List Char) : Bool :=
  (readFormat? format cs).any Reading.isDay

/-- Whether a format reads a text as a day and a time. -/
def readsAsTime (format : List Item) (cs : List Char) : Bool :=
  (readFormat? format cs).any fun r => r.isDay && r.isTime

/-! ## Dates -/

/-- Whether a text without white space at its ends is a date, alone or with a time. -/
def isDateTime (cs : List Char) : Bool :=
  if hasDateLayout cs then readsAsDay dateFormat cs
  else hasDateTimeLayout cs && (readsAsTime zonedFormat cs || localFormats.any (readsAsTime · cs))

/-- Whether a text is date-like. -/
def isDateLike (s : String) : Bool :=
  isDateTime (Text.trim s.toList)

end ContentModel.Recognition
