/-
# White space and the ends of a text

Texts are lists of characters here.  `trim` removes white space from both ends of a text; `dropStart`
and `dropEnd` remove one character from an end as often as it stands there.
-/

namespace ContentModel.Text

/-- White space, in the sense of the Unicode property of that name. -/
def isBlank (c : Char) : Bool :=
  let n := c.toNat
  (0x09 ≤ n && n ≤ 0x0D) || n == 0x20 || n == 0x85 || n == 0xA0 || n == 0x1680 ||
    (0x2000 ≤ n && n ≤ 0x200A) || n == 0x2028 || n == 0x2029 || n == 0x202F || n == 0x205F ||
    n == 0x3000

/-- Removes characters from the end as long as they satisfy `p`. -/
def dropEndWhile (p : Char → Bool) (cs : List Char) : List Char :=
  (cs.reverse.dropWhile p).reverse

/-- Removes white space from both ends. -/
def trim (cs : List Char) : List Char :=
  dropEndWhile isBlank (cs.dropWhile isBlank)

/-- Removes a character from the start of a text as often as it stands there. -/
def dropStart (c : Char) (s : String) : String :=
  String.ofList (s.toList.dropWhile (· == c))

/-- Removes a character from the end of a text as often as it stands there. -/
def dropEnd (c : Char) (s : String) : String :=
  String.ofList (dropEndWhile (· == c) s.toList)

/-- Two parts of an address with exactly one slash between them. -/
def joinSlash (base rest : String) : String :=
  dropEnd '/' base ++ "/" ++ dropStart '/' rest

end ContentModel.Text
