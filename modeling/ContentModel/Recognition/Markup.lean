import ContentModel.Text.WordTable

/-
# Texts with markup

A text has markup when some tag of a known element stands in it: `<`, an optional slash, the element's
name in either case, not followed by a word character, and a `>` somewhere after it.
-/

namespace ContentModel.Recognition

/-- The names of the known elements. -/
def elementNames : List String := [
  "a", "abbr", "address", "article", "aside", "audio", "b", "blockquote", "body", "br",
  "button", "caption", "code", "col", "colgroup", "dd", "del", "details", "div", "dl", "dt",
  "em", "embed", "fieldset", "figcaption", "figure", "footer", "form", "h1", "h2", "h3", "h4",
  "h5", "h6", "head", "header", "hr", "html", "i", "iframe", "img", "input", "ins", "label",
  "li", "link", "main", "mark", "meta", "nav", "ol", "p", "picture", "pre", "s", "section",
  "small", "source", "span", "strong", "sub", "sup", "table", "tbody", "td", "tfoot", "th",
  "thead", "tr", "u", "ul", "video"]

/-- The simple case folding of a character, as far as it leads to an ASCII character: besides the ASCII
letters, the long s and the Kelvin sign. -/
def foldCase (c : Char) : Char :=
  if c = '\u017f' then 's' else if c = '\u212a' then 'k' else c.toLower

/-- What follows a name at the start of a text, case ignored. -/
def dropName? : List Char → List Char → Option (List Char)
  | [], cs => some cs
  | _ :: _, [] => none
  | n :: ns, c :: cs => if foldCase c = n then dropName? ns cs else none

/-- Whether a text, after a name, ends the name and has a `>`. -/
def closesTag : List Char → Bool
  | [] => false
  | c :: cs => !Text.isWord c && (c :: cs).contains '>'

/-- Whether a text, after a `<`, goes on as a tag. -/
def continuesTag (cs : List Char) : Bool :=
  let cs := if cs.head? = some '/' then cs.tail else cs
  elementNames.any fun name =>
    match dropName? name.toList cs with
    | some rest => closesTag rest
    | none => false

/-- Whether a list of characters has markup. -/
def hasTag : List Char → Bool
  | [] => false
  | c :: cs => (c == '<' && continuesTag cs) || hasTag cs

/-- Whether a text has markup. -/
def hasMarkup (s : String) : Bool :=
  hasTag s.toList

end ContentModel.Recognition
