import ContentModel.Text.Code

/-
# The tokens of TOML text

A run of the characters that bare keys, numbers, dates and words are made of is one token, whatever it
turns out to be; only a date and a time may have one blank between them.  Strings are read here.  The
reader takes one character at a time, and a line break is a line feed: what precedes it is removed before.
-/

namespace ContentModel.Toml

/-! ## Tokens -/

/-- A token. -/
inductive Token where
  | openBracket | closeBracket | openBrace | closeBrace | comma | equals
  | newline | blank
  /-- A run of bare characters. -/
  | bare (chars : List Char)
  /-- A string, which may have been written over several lines. -/
  | text (s : String) (multiline : Bool)
  deriving DecidableEq, Repr, Inhabited

/-- The two kinds of strings: in a basic string a backslash starts an escape. -/
inductive Quote where
  | basic | literal
  deriving DecidableEq, Repr, Inhabited

/-- The character around a string. -/
def Quote.char : Quote → Char
  | .basic => '"'
  | .literal => '\''

namespace Token

/-! ## Classes of characters -/

/-- Whether a character can stand in a bare key. -/
def isBareKey (c : Char) : Bool :=
  c.isAlphanum || c = '_' || c = '-'

/-- Whether a character can stand in a run. -/
def isBare (c : Char) : Bool :=
  isBareKey c || c = '.' || c = '+' || c = ':'

/-- Whether a character can stand in a string or a comment: no control character but the tab. -/
def isContent (c : Char) : Bool :=
  c = '\t' || (0x20 ≤ c.toNat && c.toNat != 0x7F)

/-- Whether a run has the shape of a date. -/
def isDateShape : List Char → Bool
  | [y₁, y₂, y₃, y₄, '-', m₁, m₂, '-', d₁, d₂] =>
    [y₁, y₂, y₃, y₄, m₁, m₂, d₁, d₂].all Char.isDigit
  | _ => false

/-- The character that a short escape stands for. -/
def unescape? : Char → Option Char
  | '"' => some '"'
  | '\\' => some '\\'
  | 'b' => some '\x08'
  | 'f' => some '\x0c'
  | 'n' => some '\n'
  | 'r' => some '\r'
  | 't' => some '\t'
  | _ => none

/-! ## Reading characters one by one -/

/-- Where the reader stands.  Characters read so far are kept last one first. -/
inductive Mode where
  | between
  | comment
  | bare (chars : List Char)
  /-- After a date and a space, where a time may follow. -/
  | afterDate (chars : List Char)
  /-- After one quote. -/
  | oneQuote (q : Quote)
  /-- After two quotes: an empty string, unless a third one follows. -/
  | twoQuotes (q : Quote)
  | line (q : Quote) (chars : List Char)
  /-- After three quotes, where a line break does not count. -/
  | linesStart (q : Quote)
  /-- Inside a string over several lines, after so many quotes in a row. -/
  | lines (q : Quote) (chars : List Char) (quotes : Nat)
  /-- After a backslash. -/
  | escape (multiline : Bool) (chars : List Char)
  /-- Inside a code point written with `left + 1` more hexadecimal digits. -/
  | code (multiline : Bool) (chars : List Char) (left value : Nat)
  /-- After a backslash that ends a line, before or after the line's end. -/
  | continued (chars : List Char) (ended : Bool)
  deriving Repr, Inhabited

/-- The token of a finished string. -/
def ofChars (chars : List Char) (multiline : Bool) : Token :=
  text (String.ofList chars.reverse) multiline

/-- Back inside a string after an escape. -/
def resume (multiline : Bool) (chars : List Char) : Mode :=
  if multiline then .lines .basic chars 0 else .line .basic chars

/-- A character read between tokens. -/
def start? (c : Char) : Option (List Token × Mode) :=
  match c with
  | '[' => some ([openBracket], .between)
  | ']' => some ([closeBracket], .between)
  | '{' => some ([openBrace], .between)
  | '}' => some ([closeBrace], .between)
  | ',' => some ([comma], .between)
  | '=' => some ([equals], .between)
  | '\n' => some ([newline], .between)
  | ' ' => some ([blank], .between)
  | '\t' => some ([blank], .between)
  | '#' => some ([], .comment)
  | '"' => some ([], .oneQuote .basic)
  | '\'' => some ([], .oneQuote .literal)
  | c => if isBare c then some ([], .bare [c]) else none

/-- A character read between tokens, after others that it ends. -/
def thenStart? (ended : List Token) (c : Char) : Option (List Token × Mode) :=
  (start? c).map fun (tokens, mode) => (ended ++ tokens, mode)

/-- A character inside a string on one line. -/
def inLine? (q : Quote) (chars : List Char) (c : Char) : Option (List Token × Mode) :=
  if c = q.char then some ([ofChars chars false], .between)
  else if c = '\\' ∧ q = .basic then some ([], .escape false chars)
  else if isContent c then some ([], .line q (c :: chars))
  else none

/-- A character, no quote, inside a string over several lines. -/
def inLines? (q : Quote) (chars : List Char) (c : Char) : Option (List Token × Mode) :=
  if c = '\\' ∧ q = .basic then some ([], .escape true chars)
  else if c = '\n' ∨ isContent c then some ([], .lines q (c :: chars) 0)
  else none

/-- A character inside a string over several lines: three quotes end it, and up to two more before them
belong to it. -/
def inLinesAfter? (q : Quote) (chars : List Char) (quotes : Nat) (c : Char) :
    Option (List Token × Mode) :=
  if c = q.char then
    if quotes = 4 then some ([ofChars (q.char :: q.char :: chars) true], .between)
    else some ([], .lines q chars (quotes + 1))
  else if 3 ≤ quotes then
    thenStart? [ofChars (List.replicate (quotes - 3) q.char ++ chars) true] c
  else inLines? q (List.replicate quotes q.char ++ chars) c

/-- A character after a backslash. -/
def afterEscape? (multiline : Bool) (chars : List Char) (c : Char) : Option (List Token × Mode) :=
  match c with
  | 'u' => some ([], .code multiline chars 3 0)
  | 'U' => some ([], .code multiline chars 7 0)
  | c =>
    if multiline ∧ (c = ' ' ∨ c = '\t') then some ([], .continued chars false)
    else if multiline ∧ c = '\n' then some ([], .continued chars true)
    else (unescape? c).map fun e => ([], resume multiline (e :: chars))

/-- One more character: the tokens that it ends, and where the reader stands then. -/
def step? : Mode → Char → Option (List Token × Mode)
  | .between, c => start? c
  | .comment, c =>
    if c = '\n' then start? c else if isContent c then some ([], .comment) else none
  | .bare chars, c =>
    if isBare c then some ([], .bare (c :: chars))
    else if c = ' ' ∧ isDateShape chars.reverse then some ([], .afterDate chars)
    else thenStart? [bare chars.reverse] c
  | .afterDate chars, c =>
    if c.isDigit then some ([], .bare (c :: ' ' :: chars))
    else thenStart? [bare chars.reverse, blank] c
  | .oneQuote q, c => if c = q.char then some ([], .twoQuotes q) else inLine? q [] c
  | .twoQuotes q, c =>
    if c = q.char then some ([], .linesStart q) else thenStart? [ofChars [] false] c
  | .line q chars, c => inLine? q chars c
  | .linesStart q, c => if c = '\n' then some ([], .lines q [] 0) else inLinesAfter? q [] 0 c
  | .lines q chars quotes, c => inLinesAfter? q chars quotes c
  | .escape multiline chars, c => afterEscape? multiline chars c
  | .code multiline chars left value, c => do
    let n := 16 * value + (← Text.hexValue? c)
    match left with
    | 0 => some ([], resume multiline ((← Text.charOfCode? n) :: chars))
    | left + 1 => some ([], .code multiline chars left n)
  | .continued chars ended, c =>
    if c = ' ' ∨ c = '\t' then some ([], .continued chars ended)
    else if c = '\n' then some ([], .continued chars true)
    else if ended then inLinesAfter? .basic chars 0 c
    else none

/-- What the end of the text ends. -/
def finish? : Mode → Option (List Token)
  | .between => some []
  | .comment => some []
  | .bare chars => some [bare chars.reverse]
  | .afterDate chars => some [bare chars.reverse, blank]
  | .twoQuotes _ => some [ofChars [] false]
  | .lines q chars quotes =>
    if 3 ≤ quotes then some [ofChars (List.replicate (quotes - 3) q.char ++ chars) true] else none
  | _ => none

/-- The tokens of a text read from a given mode. -/
def readFrom? : Mode → List Char → Option (List Token)
  | mode, [] => finish? mode
  | mode, c :: cs =>
    match step? mode c with
    | none => none
    | some (tokens, mode) => (readFrom? mode cs).map (tokens ++ ·)

/-- A text with each line break as a line feed alone. -/
def plainBreaks : List Char → List Char
  | '\r' :: '\n' :: cs => '\n' :: plainBreaks cs
  | c :: cs => c :: plainBreaks cs
  | [] => []

/-- The tokens of a text; a byte order mark at its start does not count. -/
def read? (cs : List Char) : Option (List Token) :=
  match plainBreaks cs with
  | '\uFEFF' :: cs => readFrom? .between cs
  | cs => readFrom? .between cs

end Token

end ContentModel.Toml
