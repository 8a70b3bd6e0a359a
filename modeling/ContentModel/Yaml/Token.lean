import ContentModel.Yaml.Cursor

/-
# The tokens of YAML text

Besides what is written, the tokens show the structure that indentation stands for: where a collection in
block style starts and ends, and where a key starts that only the colon after it reveals.  Such a key stands
on one line.
-/

namespace ContentModel.Yaml

/-! ## Tokens -/

/-- A token. -/
inductive Token where
  | version (major minor : Nat)
  | tagHandle (handle start : String)
  | documentStart | documentEnd
  /-- The start of a sequence, and of a mapping, in block style. -/
  | blockSequence | blockMapping
  | blockEnd
  | openBracket | closeBracket | openBrace | closeBrace
  /-- The dash before an entry. -/
  | entry
  | comma
  /-- What comes before a key, and between a key and its value. -/
  | key | value
  | «alias» (name : String)
  | anchor (name : String)
  | tag (handle rest : String)
  | scalar (text : String) (style : Style)
  deriving DecidableEq, Repr, Inhabited

/-! ## Names and tags -/

/-- Whether a character can stand in the name of an anchor. -/
def isNameChar (c : Char) : Bool :=
  c.isAlphanum || c = '_' || c = '-'

/-- Whether a character can stand in a tag; in full addresses there are some more. -/
def isTagChar (full : Bool) (c : Char) : Bool :=
  isNameChar c ||
    [';', '/', '?', ':', '@', '&', '=', '+', '$', '.', '!', '~', '*', '\'', '(', ')', '%'].contains c ||
    (full && [',', '[', ']'].contains c)

/-- Reads a name, after which no other word goes on. -/
def name? (here : Cursor) : Option (String × Cursor) :=
  let (name, next) := here.span isNameChar
  if name ≠ [] ∧ (isGapAhead next.rest ||
      next.rest.head?.any fun c => ['?', ':', ',', ']', '}', '%', '@', '\x60'].contains c) then
    some (String.ofList name, next)
  else none

/-- Reads a handle: an exclamation mark, alone or with a name and another one after it. -/
def handle (here : Cursor) : String × Cursor :=
  let afterMark := here.drop 1
  let (name, next) := afterMark.span isNameChar
  if next.rest.head? = some '!' then (String.ofList ('!' :: name ++ ['!']), next.drop 1)
  else ("!", afterMark)

/-- Reads a tag: a full address in angle brackets, or a handle with the rest of an address. -/
def tag? (inFlow : Bool) (here : Cursor) : Option (Token × Cursor) := do
  let (token, next) ←
    if here.rest.take 2 = ['!', '<'] then
      let (address, next) := (here.drop 2).span (isTagChar true)
      if address ≠ [] ∧ next.rest.head? = some '>' then
        some (Token.tag "" (String.ofList address), next.drop 1)
      else none
    else
      let (handle, next) := handle here
      let (rest, next) := next.span (isTagChar false)
      if handle = "!" then
        some (if rest = [] then Token.tag "" "!" else .tag "!" (String.ofList rest), next)
      else if rest = [] then none
      else some (.tag handle (String.ofList rest), next)
  if isGapAhead next.rest || (inFlow && next.rest.head? = some ',') then some (token, next) else none

/-! ## Directives -/

/-- Reads a number of a version. -/
def versionNumber? (here : Cursor) : Option (Nat × Cursor) :=
  let (digits, next) := here.span Char.isDigit
  if digits.length ≤ 9 then (natOfDigits? 10 digits).map (·, next) else none

/-- Reads the version of the format. -/
def versionDirective? (here : Cursor) : Option (Token × Cursor) := do
  let (major, next) ← versionNumber? here
  if next.rest.head? = some '.' then
    let (minor, next) ← versionNumber? (next.drop 1)
    some (.version major minor, next)
  else none

/-- Reads a handle and what it stands for. -/
def tagDirective? (here : Cursor) : Option (Token × Cursor) :=
  let (handle, next) := handle here
  let start := next.skip isBlank
  let (address, next') := start.span (isTagChar true)
  if here.rest.head? = some '!' ∧ next.rest.head?.any isBlank ∧ address ≠ [] ∧ isGapAhead next'.rest then
    some (.tagHandle handle (String.ofList address), next')
  else none

/-- Reads a directive after its percent sign, up to the end of its line. -/
def directive? (here : Cursor) : Option (Token × Cursor) := do
  let (name, next) := here.span isNameChar
  let next := next.skip isBlank
  let (token, next) ← match String.ofList name with
    | "YAML" => versionDirective? next
    | "TAG" => tagDirective? next
    | _ => none
  let next := next.skip isBlank
  let next := if next.rest.head? = some '#' then next.skip (!isBreak ·) else next
  if isBreakAhead next.rest then some (token, next.drop 1) else none

/-! ## Indentation and keys -/

/-- A place where a key may have started. -/
structure KeyPlace where
  /-- How many tokens are before it. -/
  before : Nat
  mark : Mark
  /-- Whether nothing but a key can start there. -/
  needed : Bool
  deriving DecidableEq, Repr, Inhabited

/-- What the reader of tokens remembers. -/
structure Scanner where
  /-- The tokens so far, last one first. -/
  tokens : List Token
  /-- The columns of the open collections in block style, innermost first. -/
  columns : List Nat
  /-- Whether a key may start at the next token. -/
  keyAllowed : Bool
  /-- Where a key may have started last, in each open collection in flow style, innermost first, and
  outside of them. -/
  keys : List (Option KeyPlace)
  deriving DecidableEq, Repr, Inhabited

namespace Scanner

/-- At the start of a text. -/
def start : Scanner :=
  ⟨[], [], true, [none]⟩

/-- Whether a collection in flow style is open. -/
def inFlow (s : Scanner) : Bool :=
  1 < s.keys.length

/-- Adds a token. -/
def emit (t : Token) (s : Scanner) : Scanner :=
  { s with tokens := t :: s.tokens }

/-- Puts a token after the first `before` tokens. -/
def insert (before : Nat) (t : Token) (s : Scanner) : Scanner :=
  { s with tokens := s.tokens.insertIdx (s.tokens.length - before) t }

/-- Sets where a key may have started last. -/
def setKey (k : Option KeyPlace) (s : Scanner) : Scanner :=
  { s with keys := k :: s.keys.tail }

/-- Ends the collections in block style that are further to the right than a column; without a column,
all of them. -/
def leave (column : Option Nat) (s : Scanner) : Scanner :=
  if s.inFlow then s
  else
    let isLeft := fun n => column.any (n ≤ ·)
    let left := s.columns.takeWhile fun n => !isLeft n
    { s with
      columns := s.columns.drop left.length
      tokens := left.map (fun _ => Token.blockEnd) ++ s.tokens }

/-- Starts a collection in block style after the first `before` tokens, if a column is further to the
right than those that are open. -/
def enter (column before : Nat) (t : Token) (s : Scanner) : Scanner :=
  if s.inFlow || s.columns.head?.any (column ≤ ·) then s
  else { s.insert before t with columns := column :: s.columns }

/-- Gives up the last place where a key may have started. -/
def dropKey? (s : Scanner) : Option Scanner :=
  match s.keys with
  | some k :: _ => if k.needed then none else some (s.setKey none)
  | _ => some s

/-- Remembers that a key may start here. -/
def markKey? (m : Mark) (s : Scanner) : Option Scanner :=
  if s.keyAllowed then
    s.dropKey?.map (setKey (some ⟨s.tokens.length, m, !s.inFlow && s.columns.head? = some m.column⟩))
  else some s

/-- How long a key may be that only the colon after it reveals. -/
def keyLimit : Nat := 1024

/-- Gives up places for keys that are on another line or too far back. -/
def dropStaleKeys? (m : Mark) (s : Scanner) : Option Scanner :=
  (s.keys.mapM check).map fun keys => { s with keys }
where
  /-- Whether a place for a key is still one. -/
  check : Option KeyPlace → Option (Option KeyPlace)
    | none => some none
    | some k =>
      if k.mark.line < m.line ∨ k.mark.index + keyLimit < m.index then
        if k.needed then none else some none
      else some (some k)

/-- Adds a token that can start a key. -/
def emitKeyStart? (m : Mark) (t : Token) (s : Scanner) : Option Scanner := do
  let s ← s.markKey? m
  some ({ s with keyAllowed := false }.emit t)

/-! ## One token -/

/-- Reads the bounds of a document. -/
def bound? (t : Token) (here : Cursor) (s : Scanner) : Option (Scanner × Cursor) := do
  let s ← (s.leave none).dropKey?
  some ({ s with keyAllowed := false }.emit t, here.drop 3)

/-- Reads a directive. -/
def directive? (here : Cursor) (s : Scanner) : Option (Scanner × Cursor) := do
  let s ← (s.leave none).dropKey?
  let (t, next) ← Yaml.directive? (here.drop 1)
  some ({ s with keyAllowed := false }.emit t, next)

/-- Reads the start of a collection in flow style. -/
def openFlow? (t : Token) (here : Cursor) (s : Scanner) : Option (Scanner × Cursor) := do
  let s ← s.markKey? here.mark
  some ({ s with keys := none :: s.keys, keyAllowed := true }.emit t, here.drop 1)

/-- Reads the end of a collection in flow style. -/
def closeFlow? (t : Token) (here : Cursor) (s : Scanner) : Option (Scanner × Cursor) := do
  let s ← s.dropKey?
  let keys := if s.inFlow then s.keys.tail else s.keys
  some ({ s with keys, keyAllowed := false }.emit t, here.drop 1)

/-- Reads a comma. -/
def comma? (here : Cursor) (s : Scanner) : Option (Scanner × Cursor) := do
  let s ← s.dropKey?
  some ({ s with keyAllowed := true }.emit .comma, here.drop 1)

/-- Starts a collection in block style at a token, which must be the first of its line or follow the start
of another collection. -/
def enterHere? (column : Nat) (t : Token) (s : Scanner) : Option Scanner :=
  if s.inFlow then some s
  else if s.keyAllowed then some (s.enter column s.tokens.length t)
  else none

/-- Reads the dash before an entry. -/
def entry? (here : Cursor) (s : Scanner) : Option (Scanner × Cursor) := do
  let s ← (← s.enterHere? here.mark.column .blockSequence).dropKey?
  some ({ s with keyAllowed := true }.emit .entry, here.drop 1)

/-- Reads the question mark before a key. -/
def key? (here : Cursor) (s : Scanner) : Option (Scanner × Cursor) := do
  let s ← (← s.enterHere? here.mark.column .blockMapping).dropKey?
  some ({ s with keyAllowed := !s.inFlow }.emit .key, here.drop 1)

/-- Reads the colon before a value, which may reveal the key before it. -/
def value? (here : Cursor) (s : Scanner) : Option (Scanner × Cursor) :=
  match s.keys.head?.join with
  | some k =>
    let s := (s.insert k.before .key).enter k.mark.column k.before .blockMapping
    some ({ s.setKey none with keyAllowed := false }.emit .value, here.drop 1)
  | none => do
    let s ← s.enterHere? here.mark.column .blockMapping
    some ({ s with keyAllowed := !s.inFlow }.emit .value, here.drop 1)

/-- Reads a block scalar. -/
def block? (literal : Bool) (here : Cursor) (s : Scanner) : Option (Scanner × Cursor) := do
  let s ← s.dropKey?
  let (text, next) ← blockFrom? literal s.columns.head? (here.drop 1)
  let style := if literal then Style.literal else .folded
  some ({ s with keyAllowed := true }.emit (.scalar text style), next)

/-- Reads a quoted scalar. -/
def quoted? (double : Bool) (here : Cursor) (s : Scanner) : Option (Scanner × Cursor) := do
  let start := here.drop 1
  let (text, next) ← quotedFrom? double [] (.inside .none) start.mark start.rest
  some (← s.emitKeyStart? here.mark (.scalar text .quoted), next)

/-- Whether a plain scalar can start here. -/
def startsPlain (inFlow : Bool) (c : Char) (cs : List Char) : Bool :=
  let isIndicator := ['-', '?', ':', ',', '[', ']', '{', '}', '#', '&', '*', '!', '|', '>', '\'', '"',
    '%', '@', '\x60'].contains c
  (!isIndicator && !isBlank c) || (c = '-' && !cs.head?.any isBlank) ||
    (!inFlow && (c = '?' || c = ':') && !isGapAhead cs)

/-- Reads a plain scalar. -/
def plain? (here : Cursor) (s : Scanner) : Option (Scanner × Cursor) := do
  let indent := (s.columns.head?.map (· + 1)).getD 0
  let read ← plainFrom? indent s.inFlow [] .none here.mark here.rest
  let s ← s.emitKeyStart? here.mark (.scalar read.text .plain)
  some ({ s with keyAllowed := read.broken }, read.next)

/-- Reads the token at a place. -/
def token? (here : Cursor) (s : Scanner) : Option (Scanner × Cursor) :=
  match here.rest with
  | [] => none
  | c :: cs =>
    let m := here.mark
    if m.column = 0 ∧ c = '%' then s.directive? here
    else if m.column = 0 ∧ isBound '-' (c :: cs) then s.bound? .documentStart here
    else if m.column = 0 ∧ isBound '.' (c :: cs) then s.bound? .documentEnd here
    else if c = '[' then s.openFlow? .openBracket here
    else if c = '{' then s.openFlow? .openBrace here
    else if c = ']' then s.closeFlow? .closeBracket here
    else if c = '}' then s.closeFlow? .closeBrace here
    else if c = ',' then s.comma? here
    else if c = '-' ∧ isGapAhead cs then s.entry? here
    else if c = '?' ∧ (s.inFlow ∨ isGapAhead cs) then s.key? here
    else if c = ':' ∧ (s.inFlow ∨ isGapAhead cs) then s.value? here
    else if c = '*' then do
      let (name, next) ← name? (here.drop 1)
      some (← s.emitKeyStart? m (.alias name), next)
    else if c = '&' then do
      let (name, next) ← name? (here.drop 1)
      some (← s.emitKeyStart? m (.anchor name), next)
    else if c = '!' then do
      let (t, next) ← tag? s.inFlow here
      some (← s.emitKeyStart? m t, next)
    else if c = '|' ∧ !s.inFlow then s.block? true here
    else if c = '>' ∧ !s.inFlow then s.block? false here
    else if c = '\'' then s.quoted? false here
    else if c = '"' then s.quoted? true here
    else if startsPlain s.inFlow c cs then s.plain? here
    else none

/-- Skips blanks, line breaks and comments between tokens.  After a line break a key may start, outside
of flow collections; tabs are no indentation. -/
def skipGap (inFlow : Bool) (keyAllowed comment : Bool) (m : Mark) :
    List Char → Bool × Cursor
  | [] => (keyAllowed, ⟨m, []⟩)
  | c :: cs =>
    if isBreak c then skipGap inFlow (keyAllowed || !inFlow) false (m.after c) cs
    else if comment || c = ' ' || (c = '\t' && (inFlow || !keyAllowed)) then
      skipGap inFlow keyAllowed comment (m.after c) cs
    else if c = '#' then skipGap inFlow keyAllowed true (m.after c) cs
    else (keyAllowed, ⟨m, c :: cs⟩)

/-- The tokens at the end of a text. -/
def finish? (s : Scanner) : Option (List Token) :=
  (s.leave none).dropKey?.map fun s => s.tokens.reverse

/-- The tokens from a place on, of which there are fewer than `fuel`. -/
def tokens? (fuel : Nat) (here : Cursor) (s : Scanner) : Option (List Token) :=
  match fuel with
  | 0 => none
  | fuel + 1 => do
    let (keyAllowed, here) := skipGap s.inFlow s.keyAllowed false here.mark here.rest
    let s ← { s with keyAllowed }.dropStaleKeys? here.mark
    let s := s.leave (some here.mark.column)
    match here.rest with
    | [] => s.finish?
    | _ => do
      let (s, here) ← s.token? here
      tokens? fuel here s

end Scanner

/-! ## Texts -/

/-- Whether a character may stand in a text at all. -/
def isAllowed (c : Char) : Bool :=
  c = '\t' || c = '\n' || c = '\r' || c = '\u0085' || (0x20 ≤ c.toNat && c.toNat ≤ 0x7E) ||
    (0xA0 ≤ c.toNat && c.toNat != 0xFFFE && c.toNat != 0xFFFF)

/-- A text with line feeds for line breaks. -/
def plainBreaks : List Char → List Char
  | '\r' :: '\n' :: cs => '\n' :: plainBreaks cs
  | '\r' :: cs => '\n' :: plainBreaks cs
  | '\u0085' :: cs => '\n' :: plainBreaks cs
  | c :: cs => c :: plainBreaks cs
  | [] => []

/-- The start of a text, after its byte order mark if it has one. -/
def Cursor.ofText : List Char → Cursor
  | '\uFEFF' :: cs => ⟨⟨1, 0, 1⟩, cs⟩
  | cs => ⟨⟨0, 0, 0⟩, cs⟩

/-- The tokens of a text. -/
def Token.read? (cs : List Char) : Option (List Token) :=
  if cs.all isAllowed then Scanner.start.tokens? (cs.length + 2) (.ofText (plainBreaks cs)) else none

end ContentModel.Yaml
