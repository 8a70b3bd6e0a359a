import ContentModel.Yaml.Scalar

/-
# Reading scalars in YAML text

Each reader starts at a place in the text and gives what it read with the place after it.  Line breaks of
all kinds but the line and paragraph separators are line feeds here.
-/

namespace ContentModel.Yaml

/-! ## Places -/

/-- A place in a text: how many characters, and how many lines, are before it, and how many characters
of its own line. -/
structure Mark where
  index : Nat
  line : Nat
  column : Nat
  deriving DecidableEq, Repr, Inhabited

/-- Whether a character ends a line, once line breaks are line feeds. -/
def isBreak (c : Char) : Bool :=
  c = '\n' || c = '\u2028' || c = '\u2029'

/-- Whether a character is a space or a tab. -/
def isBlank (c : Char) : Bool :=
  c = ' ' || c = '\t'

/-- The place after a character. -/
def Mark.after (m : Mark) (c : Char) : Mark :=
  if isBreak c then ⟨m.index + 1, m.line + 1, 0⟩ else ⟨m.index + 1, m.line, m.column + 1⟩

/-- A place in a text, with the rest of the text. -/
structure Cursor where
  mark : Mark
  rest : List Char
  deriving DecidableEq, Repr, Inhabited

namespace Cursor

/-- The place after some characters. -/
def drop : Nat → Cursor → Cursor
  | 0, here => here
  | _ + 1, ⟨m, []⟩ => ⟨m, []⟩
  | n + 1, ⟨m, c :: cs⟩ => drop n ⟨m.after c, cs⟩

/-- The characters up to the first that does not satisfy a condition, and the place of that one. -/
def span (p : Char → Bool) (here : Cursor) : List Char × Cursor :=
  let taken := here.rest.takeWhile p
  (taken, here.drop taken.length)

/-- Skips characters that satisfy a condition. -/
def skip (p : Char → Bool) (here : Cursor) : Cursor :=
  (here.span p).2

end Cursor

/-- Whether a text goes on with a blank or a line break, or ends. -/
def isGapAhead : List Char → Bool
  | [] => true
  | c :: _ => isBlank c || isBreak c

/-- Whether a text goes on with a line break, or ends. -/
def isBreakAhead : List Char → Bool
  | [] => true
  | c :: _ => isBreak c

/-- Whether a text, at the start of a line, goes on with three characters that mark the bounds of a
document. -/
def isBound (c : Char) : List Char → Bool
  | a :: b :: d :: cs => a = c && b = c && d = c && isGapAhead cs
  | _ => false

/-- Whether a document starts or ends at a place. -/
def isBoundary (m : Mark) (cs : List Char) : Bool :=
  m.column = 0 && (isBound '-' cs || isBound '.' cs)

/-! ## Gaps inside scalars -/

/-- Blanks or line breaks read since the last other character, last one first.  The first line break may
have been escaped. -/
inductive Gap where
  | blanks (cs : List Char)
  | breaks (first : Option Char) (more : List Char)
  deriving DecidableEq, Repr, Inhabited

namespace Gap

/-- No gap. -/
def none : Gap :=
  blanks []

/-- One more blank; it does not count after a line break. -/
def addBlank (c : Char) : Gap → Gap
  | blanks cs => blanks (c :: cs)
  | breaks first more => breaks first more

/-- One more line break; blanks before it do not count. -/
def addBreak (c : Char) : Gap → Gap
  | blanks _ => breaks (some c) []
  | breaks first more => breaks first (c :: more)

/-- Whether a line ended. -/
def isBroken : Gap → Bool
  | blanks _ => false
  | breaks _ _ => true

/-- What a gap stands for: a single line feed for a space, of several all but the first. -/
def folded : Gap → List Char
  | blanks cs => cs.reverse
  | breaks (some '\n') [] => [' ']
  | breaks (some '\n') more => more.reverse
  | breaks first more => first.toList ++ more.reverse

end Gap

/-! ## Plain scalars -/

/-- A text that was read, whether a line ended after it, and the place after it. -/
structure PlainText where
  text : String
  broken : Bool
  next : Cursor
  deriving DecidableEq, Repr, Inhabited

/-- Whether a character, and what follows it, ends a plain scalar. -/
def endsPlain (inFlow : Bool) (c : Char) (cs : List Char) : Bool :=
  (c = ':' && isGapAhead cs) || (inFlow && [',', '[', ']', '{', '}'].contains c)

/-- Whether a character, and what follows it, is a colon misplaced in a flow collection. -/
def isMisplacedColon (inFlow : Bool) (c : Char) (cs : List Char) : Bool :=
  inFlow && c = ':' && cs.head?.any fun d => [',', '?', '[', ']', '{', '}'].contains d

/-- Whether a plain scalar ends after a gap: before less indentation, the bounds of a document or a
comment. -/
def endsAfterGap (indent : Nat) (inFlow : Bool) (m : Mark) (c : Char) (cs : List Char) : Bool :=
  (!inFlow && m.column < indent) || isBoundary m (c :: cs) || c = '#'

/-- Reads a plain scalar whose lines have at least the given indentation. -/
def plainFrom? (indent : Nat) (inFlow : Bool) (text : List Char) (gap : Gap) (m : Mark) :
    List Char → Option PlainText
  | [] => some ⟨String.ofList text.reverse, gap.isBroken, ⟨m, []⟩⟩
  | c :: cs =>
    if isBlank c then
      if gap.isBroken ∧ c = '\t' ∧ m.column < indent then none
      else plainFrom? indent inFlow text (gap.addBlank c) (m.after c) cs
    else if isBreak c then plainFrom? indent inFlow text (gap.addBreak c) (m.after c) cs
    else if gap ≠ .none ∧ endsAfterGap indent inFlow m c cs then
      some ⟨String.ofList text.reverse, gap.isBroken, ⟨m, c :: cs⟩⟩
    else if isMisplacedColon inFlow c cs then none
    else if endsPlain inFlow c cs then
      some ⟨String.ofList text.reverse, gap.isBroken, ⟨m, c :: cs⟩⟩
    else plainFrom? indent inFlow (c :: (gap.folded.reverse ++ text)) .none (m.after c) cs

/-! ## Quoted scalars -/

/-- Where the reader of a quoted scalar stands. -/
inductive QuotedMode where
  | inside (gap : Gap)
  /-- After a backslash. -/
  | escape
  /-- Inside a code point written with `left + 1` more hexadecimal digits. -/
  | code (left value : Nat)
  /-- After a single quote between single quotes. -/
  | quote
  deriving Repr, Inhabited

/-- The character that a short escape stands for. -/
def unescape? : Char → Option Char
  | '0' => some '\x00'
  | 'a' => some '\x07'
  | 'b' => some '\x08'
  | 't' | '\t' => some '\t'
  | 'n' => some '\n'
  | 'v' => some '\x0b'
  | 'f' => some '\x0c'
  | 'r' => some '\r'
  | 'e' => some '\x1b'
  | ' ' => some ' '
  | '"' => some '"'
  | '\'' => some '\''
  | '/' => some '/'
  | '\\' => some '\\'
  | 'N' => some '\u0085'
  | '_' => some '\u00a0'
  | 'L' => some '\u2028'
  | 'P' => some '\u2029'
  | _ => none

/-- How many more hexadecimal digits an escape has after its first one. -/
def codeLength? : Char → Option Nat
  | 'x' => some 1
  | 'u' => some 3
  | 'U' => some 7
  | _ => none

/-- Reads a quoted scalar after its first quote. -/
def quotedFrom? (double : Bool) (text : List Char) (mode : QuotedMode) (m : Mark) :
    List Char → Option (String × Cursor)
  | [] =>
    match mode with
    | .quote => some (String.ofList text.reverse, ⟨m, []⟩)
    | _ => none
  | c :: cs =>
    match mode with
    | .inside gap =>
      if isBlank c then quotedFrom? double text (.inside (gap.addBlank c)) (m.after c) cs
      else if isBreak c then quotedFrom? double text (.inside (gap.addBreak c)) (m.after c) cs
      else if isBoundary m (c :: cs) then none
      else
        let text := gap.folded.reverse ++ text
        if double ∧ c = '"' then some (String.ofList text.reverse, ⟨m.after c, cs⟩)
        else if double ∧ c = '\\' then quotedFrom? double text .escape (m.after c) cs
        else if ¬ double ∧ c = '\'' then quotedFrom? double text .quote (m.after c) cs
        else quotedFrom? double (c :: text) (.inside .none) (m.after c) cs
    | .escape =>
      if isBreak c then quotedFrom? double text (.inside (.breaks none [])) (m.after c) cs
      else match codeLength? c with
        | some left => quotedFrom? double text (.code left 0) (m.after c) cs
        | none =>
          match unescape? c with
          | some e => quotedFrom? double (e :: text) (.inside .none) (m.after c) cs
          | none => none
    | .code left value =>
      match Text.hexValue? c with
      | none => none
      | some d =>
        match left, Text.charOfCode? (16 * value + d) with
        | 0, some e => quotedFrom? double (e :: text) (.inside .none) (m.after c) cs
        | 0, none => none
        | left + 1, _ => quotedFrom? double text (.code left (16 * value + d)) (m.after c) cs
    | .quote =>
      if c = '\'' then quotedFrom? double ('\'' :: text) (.inside .none) (m.after c) cs
      else some (String.ofList text.reverse, ⟨m, c :: cs⟩)

/-! ## Block scalars -/

/-- What becomes of the line breaks at the end of a block. -/
inductive Chomp where
  | strip | clip | keep
  deriving DecidableEq, Repr, Inhabited

/-- A line, with the character that ends it unless the text ends. -/
abbrev Line := List Char × Option Char

/-- The lines of a text.  There is one more if the text ends with a line break, which is empty. -/
def linesOf : List Char → List Line
  | [] => [([], none)]
  | c :: cs =>
    if isBreak c then ([], some c) :: linesOf cs
    else match linesOf cs with
      | [] => [([c], none)]
      | (content, ending) :: lines => (c :: content, ending) :: lines

/-- Lines as a text. -/
def unlines (lines : List Line) : List Char :=
  lines.flatMap fun (content, ending) => content ++ ending.toList

/-- How many spaces a line starts with. -/
def leadingSpaces (content : List Char) : Nat :=
  (content.takeWhile (· = ' ')).length

/-- How far the first lines are indented, up to the first that is not blank.  No tab follows. -/
def deepest? (found : Nat) : List Line → Option Nat
  | [] => some found
  | (content, _) :: lines =>
    let spaces := leadingSpaces content
    match content.drop spaces with
    | '\t' :: _ => none
    | [] => deepest? (max found spaces) lines
    | _ => some (max found spaces)

/-- A block under construction. -/
structure Block where
  /-- The text, last character first. -/
  text : List Char
  /-- The line break after the last line that is not blank. -/
  ending : Option Char
  /-- Whether that line starts with a blank. -/
  deeper : Bool
  /-- The line breaks of the blank lines after it, last one first. -/
  blankLines : List Char
  deriving DecidableEq, Repr, Inhabited

namespace Block

/-- The empty block. -/
def empty : Block :=
  ⟨[], none, false, []⟩

/-- One more line that is not blank. -/
def addLine (literal : Bool) (content : List Char) (ending : Option Char) (b : Block) : Block :=
  let deeper := content.head?.any isBlank
  let joint :=
    if !literal && b.ending = some '\n' && !b.deeper && !deeper then
      if b.blankLines = [] then [' '] else []
    else b.ending.toList
  ⟨content.reverse ++ (b.blankLines ++ (joint ++ b.text)), ending, deeper, []⟩

/-- The text of a finished block. -/
def finish (chomp : Chomp) (b : Block) : String :=
  let ending := match chomp with
    | .strip => []
    | .clip => b.ending.toList
    | .keep => b.ending.toList ++ b.blankLines.reverse
  String.ofList (b.text.reverse ++ ending)

/-- Adds lines up to the first that is less indented and not blank; shows it and the lines after it,
without the indentation of that line, the number of lines added, and that indentation. -/
def addLines? (literal : Bool) (indent count : Nat) (b : Block) :
    List Line → Option (Block × List Line × Nat × Nat)
  | [] => some (b, [], count, 0)
  | (content, ending) :: lines =>
    let spaces := min (leadingSpaces content) indent
    let content := content.drop spaces
    match content, ending with
    | [], some c => addLines? literal indent (count + 1) { b with blankLines := c :: b.blankLines } lines
    | [], none => some (b, [], count, spaces)
    | c :: cs, ending =>
      if spaces < indent then
        if c = '\t' then none else some (b, (c :: cs, ending) :: lines, count, spaces)
      else addLines? literal indent (count + 1) (b.addLine literal (c :: cs) ending) lines

end Block

/-- The marks after the character that starts a block scalar: what becomes of its end, and how much
deeper than its surroundings its lines are. -/
def blockHeader? : List Char → Option (Chomp × Option Nat × Nat)
  | '+' :: cs => (depth? cs).map fun (depth, length) => (.keep, depth, length + 1)
  | '-' :: cs => (depth? cs).map fun (depth, length) => (.strip, depth, length + 1)
  | cs =>
    (depth? cs).map fun (depth, length) =>
      match depth, cs.drop length with
      | some _, '+' :: _ => (.keep, depth, length + 1)
      | some _, '-' :: _ => (.strip, depth, length + 1)
      | _, _ => (.clip, depth, length)
where
  /-- A digit, not zero, and its length. -/
  depth? : List Char → Option (Option Nat × Nat)
    | '0' :: _ => none
    | c :: _ => if c.isDigit then some (some (c.toNat - '0'.toNat), 1) else some (none, 0)
    | [] => some (none, 0)

/-- Reads a block scalar after the character that starts it.  What surrounds it has an indentation,
unless nothing does. -/
def blockFrom? (literal : Bool) (outer : Option Nat) (here : Cursor) : Option (String × Cursor) := do
  let (chomp, depth, length) ← blockHeader? here.rest
  let afterBlanks := (here.drop length).skip isBlank
  let afterComment :=
    if afterBlanks.rest.head? = some '#' then afterBlanks.skip (!isBreak ·) else afterBlanks
  if isBreakAhead afterComment.rest then
    let start := afterComment.drop 1
    let lines := linesOf start.rest
    let least := (outer.map (· + 1)).getD 0
    let indent ← match depth with
      | some depth => some (outer.getD 0 + depth)
      | none => (deepest? 0 lines).map fun found => max (max found least) 1
    let (block, lines, count, spaces) ← Block.empty.addLines? literal indent 0 lines
    let rest := unlines lines
    let index := start.mark.index + (start.rest.length - rest.length)
    some (block.finish chomp, ⟨⟨index, start.mark.line + count, spaces⟩, rest⟩)
  else none

end ContentModel.Yaml
