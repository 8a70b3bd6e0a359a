/-
# Media types

A media type is a type and a subtype, both tokens, with a slash between them, and then any number of
parameters, each after a semicolon.
-/

namespace ContentModel.Http.MediaType

/-- Whether a character can stand in a token. -/
def isTokenChar (c : Char) : Bool :=
  c.isAlphanum || "!#$%&'*+-.^_`|~".toList.contains c

/-- What follows a token at the start of a text, which must not be empty. -/
def dropToken? (cs : List Char) : Option (List Char) :=
  match cs with
  | c :: _ => if isTokenChar c then some (cs.dropWhile isTokenChar) else none
  | [] => none

/-- What follows the value of a parameter: a token, or a text in quotes. -/
def dropValue? (cs : List Char) : Option (List Char) :=
  match cs with
  | '"' :: rest =>
    let quoted := rest.takeWhile (· ≠ '"')
    if quoted.all (fun c => 0x20 ≤ c.toNat && c.toNat ≠ 0x7F) then
      match rest.dropWhile (· ≠ '"') with
      | '"' :: rest => some (rest.dropWhile (· = ' '))
      | _ => none
    else none
  | cs => dropToken? cs

/-- Whether a text is a sequence of parameters, the first of which follows its semicolon; at most
`fuel` of them. -/
def areParameters : Nat → List Char → Bool
  | 0, _ => false
  | fuel + 1, cs =>
    match cs.dropWhile (· = ' ') with
    | [] => true
    | cs =>
      match dropToken? cs with
      | some ('=' :: value) =>
        match dropValue? value with
        | some [] => true
        | some (';' :: rest) => areParameters fuel rest
        | _ => false
      | _ => false

/-- Whether a text is a media type. -/
def isValid (s : String) : Bool :=
  match dropToken? s.toList with
  | some ('/' :: subtype) =>
    match dropToken? subtype with
    | some [] => true
    | some (';' :: parameters) => areParameters (parameters.length + 1) parameters
    | _ => false
  | _ => false

end ContentModel.Http.MediaType
