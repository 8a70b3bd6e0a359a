import ContentModel.Yaml.Scalar

/-
# Writing YAML scalars

A text is written plain if it would be read as the same text; else in single quotes, if they can hold it;
else in double quotes with escapes.  A text with line feeds is written as a literal block if a block can
hold it.
-/

namespace ContentModel.Yaml

/-! ## Characters -/

/-- Whether a character ends a line. -/
def isLineBreak (c : Char) : Bool :=
  c = '\n' || c = '\r' || c = '\u0085' || c = '\u2028' || c = '\u2029'

/-- Whether a character is a blank or ends a line. -/
def isGap (c : Char) : Bool :=
  c = ' ' || c = '\t' || isLineBreak c

/-- Whether a text goes on with a gap, or ends. -/
def startsWithGap : List Char → Bool
  | [] => true
  | c :: _ => isGap c || c = '\x00'

/-- Whether a character can be written as it is: a line feed, or a printable character of the basic
plane. -/
def isPrintable (c : Char) : Bool :=
  let n := c.toNat
  c = '\n' || (0x20 ≤ n && n ≤ 0x7E) || (0xA0 ≤ n && n ≤ 0xD7FF) ||
    (0xE000 ≤ n && n ≤ 0xFFFD && n != 0xFEFF)

/-! ## What a text holds -/

/-- Whether a character, and what follows it, would start something else than a plain text. -/
def startsIndicator : List Char → Bool
  | [] => false
  | c :: cs =>
    [',', '[', ']', '{', '}', '#', '&', '*', '!', '|', '>', '\'', '"', '%', '@', '\x60'].contains c ||
      ((c = '?' || c = ':' || c = '-') && startsWithGap cs)

/-- Whether a plain text would end too early, after its first character: a colon before a gap, or a hash
after one. -/
def holdsIndicator (afterGap : Bool) : List Char → Bool
  | [] => false
  | c :: cs =>
    (c = ':' && startsWithGap cs) || (c = '#' && afterGap) || holdsIndicator (isGap c) cs

/-- Whether a text would be read as the mark between documents. -/
def startsMark : List Char → Bool
  | '-' :: '-' :: '-' :: _ => true
  | '.' :: '.' :: '.' :: _ => true
  | _ => false

/-- Whether one character stands directly before another somewhere. -/
def holdsPair (p q : Char → Bool) : List Char → Bool
  | c :: d :: cs => (p c && q d) || holdsPair p q (d :: cs)
  | _ => false

/-- Whether a character is a space. -/
def isSpace (c : Char) : Bool :=
  c = ' '

/-- Whether a text's first or last character satisfies a condition. -/
def atEnds (p : Char → Bool) (cs : List Char) : Bool :=
  cs.head?.any p || cs.getLast?.any p

/-- Whether single quotes can hold a text. -/
def fitsQuotes (cs : List Char) : Bool :=
  cs.all isPrintable && !holdsPair isLineBreak isSpace cs && !holdsPair isSpace isLineBreak cs

/-- Whether a text can be written plain. -/
def fitsPlain (cs : List Char) : Bool :=
  fitsQuotes cs && !cs.any isLineBreak && !atEnds isSpace cs && !startsMark cs &&
    !startsIndicator cs && !holdsIndicator (isGap (cs.headD ' ')) cs.tail

/-- Whether a literal block can hold a text. -/
def fitsBlock (cs : List Char) : Bool :=
  cs.all isPrintable && !holdsPair isSpace isLineBreak cs && !cs.getLast?.any isSpace

/-! ## Styles -/

/-- How a text is written. -/
inductive Form where
  | plain | single | double | block
  deriving DecidableEq, Repr, Inhabited

/-- How a text is written. -/
def Form.of (s : String) : Form :=
  let cs := s.toList
  if cs.contains '\n' then if fitsBlock cs then .block else .double
  else if !isAmbiguous s && fitsPlain cs then .plain
  else if fitsQuotes cs then .single
  else .double

/-- A number in so many hexadecimal digits. -/
def hexDigits : Nat → Nat → List Char
  | 0, _ => []
  | width + 1, n => hexDigits width (n / 16) ++ [(Nat.digitChar (n % 16)).toUpper]

/-- A code point as an escape. -/
def escapeCode (n : Nat) : List Char :=
  if n ≤ 0xFF then '\\' :: 'x' :: hexDigits 2 n
  else if n ≤ 0xFFFF then '\\' :: 'u' :: hexDigits 4 n
  else '\\' :: 'U' :: hexDigits 8 n

/-- A character in double quotes. -/
def escapeChar (c : Char) : List Char :=
  match c with
  | '\x00' => ['\\', '0']
  | '\x07' => ['\\', 'a']
  | '\x08' => ['\\', 'b']
  | '\t' => ['\\', 't']
  | '\n' => ['\\', 'n']
  | '\x0b' => ['\\', 'v']
  | '\x0c' => ['\\', 'f']
  | '\r' => ['\\', 'r']
  | '\x1b' => ['\\', 'e']
  | '"' => ['\\', '"']
  | '\\' => ['\\', '\\']
  | '\u0085' => ['\\', 'N']
  | '\u2028' => ['\\', 'L']
  | '\u2029' => ['\\', 'P']
  | c => if isPrintable c then [c] else escapeCode c.toNat

/-- A text whose lines after the first, or all, are indented.  Empty lines are not. -/
def indented (width : Nat) (atStart : Bool) : List Char → List Char
  | [] => []
  | c :: cs =>
    if isLineBreak c then c :: indented width true cs
    else (if atStart then List.replicate width ' ' else []) ++ c :: indented width false cs

/-- The text between single quotes: a quote is written twice, and all lines but the first are indented. -/
def singleQuoted (width : Nat) (cs : List Char) : List Char :=
  let doubled := cs.flatMap fun c => if c = '\'' then ['\'', '\''] else [c]
  let closing := if cs.getLast?.any isLineBreak then List.replicate width ' ' else []
  '\'' :: indented width false doubled ++ closing ++ ['\'']

/-- The marks after the bar of a literal block: its indentation if the text starts with a gap, and how it
ends: with no line break, or with more than one. -/
def blockMarks (cs : List Char) : List Char :=
  let starts := cs.head?.any fun c => c = ' ' || isLineBreak c
  let ending :=
    match cs.reverse with
    | [] => ['-']
    | [c] => if isLineBreak c then ['+'] else ['-']
    | c :: d :: _ => if isLineBreak c then (if isLineBreak d then ['+'] else []) else ['-']
  (if starts then ['2'] else []) ++ ending

/-- A text as a scalar whose further lines are indented, up to the end of its last line. -/
def scalarLine (width : Nat) (s : String) : String :=
  let cs := s.toList
  String.ofList <| match Form.of s with
    | .plain => cs ++ ['\n']
    | .single => singleQuoted width cs ++ ['\n']
    | .double => '"' :: cs.flatMap escapeChar ++ ['"', '\n']
    | .block =>
      '|' :: blockMarks cs ++ '\n' :: indented width true cs ++
        (if cs.getLast?.any isLineBreak then [] else ['\n'])

end ContentModel.Yaml
