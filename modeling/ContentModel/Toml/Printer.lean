import ContentModel.Text.Code

/-
# Writing TOML

A string is written on one line between double quotes if nothing in it needs a backslash; else between
single quotes, where there are no escapes; else over several lines; and only if none of these can hold
it, with escapes.
-/

namespace ContentModel.Toml

/-! ## Strings -/

/-- The length of the longest run of a character. -/
def longestRun (c : Char) (cs : List Char) : Nat :=
  (cs.foldl (fun (longest, current) d =>
    if d = c then (max longest (current + 1), current + 1) else (longest, 0)) (0, 0)).1

/-- Whether a character is a control character that no string holds as it is. -/
def isControl (c : Char) : Bool :=
  (c.toNat < 0x20 && c != '\t' && c != '\n') || c.toNat == 0x7F

/-- How a string can be written. -/
inductive Form where
  | basic | literal | basicLines | literalLines
  deriving DecidableEq, Repr, Inhabited

/-- How a string is written. -/
def Form.of (cs : List Char) : Form :=
  let control := cs.any isControl
  let backslash := cs.contains '\\'
  let newline := cs.contains '\n'
  let double := longestRun '"' cs
  let single := longestRun '\'' cs
  if !control && !backslash && double == 0 && !newline then .basic
  else if !control && single == 0 && !newline then .literal
  else if !control && !backslash && double ≤ 2 then .basicLines
  else if !control && single ≤ 2 then .literalLines
  else if newline then .basicLines
  else .basic

/-- The hexadecimal digits of a number below sixteen to the power of `width`. -/
def hexDigits : Nat → Nat → List Char
  | 0, _ => []
  | width + 1, n =>
    hexDigits width (n / 16) ++ [(Nat.digitChar (n % 16)).toUpper]

/-- A character of a basic string. -/
def escapeChar (multiline : Bool) (c : Char) : List Char :=
  match c with
  | '\\' => ['\\', '\\']
  | '\x08' => ['\\', 'b']
  | '\t' => ['\\', 't']
  | '\n' => if multiline then ['\n'] else ['\\', 'n']
  | '\x0c' => ['\\', 'f']
  | '\r' => ['\\', 'r']
  | c => if isControl c then ['\\', 'u'] ++ hexDigits 4 c.toNat else [c]

/-- The text of a basic string, after so many double quotes in a row; more than `limit` in a row are
escaped. -/
def escape (multiline : Bool) (limit : Nat) : Nat → List Char → List Char
  | _, [] => []
  | quotes, c :: cs =>
    if c = '"' then
      if limit ≤ quotes then '\\' :: '"' :: escape multiline limit 0 cs
      else '"' :: escape multiline limit (quotes + 1) cs
    else escapeChar multiline c ++ escape multiline limit 0 cs

/-- A string as it is written. -/
def quote (s : String) : String :=
  let cs := s.toList
  let opening (mark : List Char) := if cs.contains '\n' then mark ++ ['\n'] else mark
  let basic := List.replicate 3 '"'
  let literal := List.replicate 3 '\''
  String.ofList <| match Form.of cs with
    | .basic => '"' :: escape false 0 0 cs ++ ['"']
    | .literal => '\'' :: cs ++ ['\'']
    | .basicLines => opening basic ++ escape true 2 0 cs ++ basic
    | .literalLines => opening literal ++ cs ++ literal

/-! ## Lines -/

/-- A line that sets a key to a string. -/
def textLine (key s : String) : String :=
  key ++ " = " ++ quote s ++ "\n"

/-- The lines that set a key to an array of strings: one line for up to one string, else one line for
each of them. -/
def textsLines (key : String) (texts : List String) : String :=
  match texts with
  | [] => key ++ " = []\n"
  | [s] => key ++ " = [" ++ quote s ++ "]\n"
  | texts =>
    key ++ " = [\n" ++ String.join (texts.map fun s => "    " ++ quote s ++ ",\n") ++ "]\n"

end ContentModel.Toml
