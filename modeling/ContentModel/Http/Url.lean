import ContentModel.Files.Tree
import ContentModel.Text.Percent

/-
# Absolute addresses

A request can only be sent to an absolute address of the protocol `http` or `https`.  `Url.read` brings
such an address into its normal form: protocol and host in lowercase, no standard port, no credentials,
no dots in the path, and characters that an address cannot hold percent-encoded.

This is the reading of networks that have no other; what is proved about requests holds for any reading.  A host
is taken as it stands: whether numbers are an address, what escapes in a name stand for, and how letters beyond
ASCII are written is not looked into.
-/

namespace ContentModel.Http

/-- Why no request can be built for an address. -/
inductive UrlError where
  /-- The text is no absolute address. -/
  | notAbsolute
  /-- The address, in normal form, is of another protocol. -/
  | otherProtocol (url : String)
  deriving DecidableEq, Repr, Inhabited

namespace Url

/-! ## Characters -/

/-- Whether a character is kept outside of host names, besides the given exceptions. -/
def isKept (exceptions : List Char) (c : Char) : Bool :=
  0x20 < c.toNat && c.toNat < 0x7F && !exceptions.contains c

/-- A character as it stands in an address. -/
def encodeChar (exceptions : List Char) (c : Char) : List Char :=
  if isKept exceptions c then [c] else (String.utf8EncodeChar c).flatMap Text.escapeByte

/-- Characters that a path cannot hold. -/
def pathExceptions : List Char :=
  ['"', '#', '<', '>', '?', '`', '\x7b', '\x7d']

/-- Characters that a query cannot hold. -/
def queryExceptions : List Char :=
  ['"', '#', '<', '>', '\'']

/-- Characters that a fragment cannot hold. -/
def fragmentExceptions : List Char :=
  ['"', '<', '>', '`']

/-- Characters that a host name cannot hold. -/
def hostExceptions : List Char :=
  [' ', '#', '/', ':', '<', '>', '?', '@', '[', '\\', ']', '^', '|', '%']

/-! ## The parts of an address -/

/-- Removes what is ignored in an address: control characters and blanks at its ends, and tabs and line
breaks anywhere. -/
def clean (cs : List Char) : List Char :=
  let outside := fun c : Char => decide (c.toNat ≤ 0x20)
  ((cs.dropWhile outside).reverse.dropWhile outside).reverse.filter fun c =>
    c ≠ '\t' && c ≠ '\n' && c ≠ '\x0d'

/-- The text before and after the first character that satisfies `p`; that character opens the second
part. -/
def splitAt (p : Char → Bool) (cs : List Char) : List Char × List Char :=
  (cs.takeWhile (!p ·), cs.dropWhile (!p ·))

/-- The protocol of an address, in lowercase, and what follows its colon. -/
def protocol? (cs : List Char) : Option (List Char × List Char) :=
  match cs, splitAt (· = ':') cs with
  | c :: _, (name, ':' :: rest) =>
    if c.isAlpha && name.all fun c => c.isAlphanum || c = '+' || c = '-' || c = '.' then
      some (name.map Char.toLower, rest)
    else none
  | _, _ => none

/-- Whether a character separates the segments of a path. -/
def isSlash (c : Char) : Bool :=
  c = '/' || c = '\\'

/-- A port: nothing, or digits of a value below `2 ^ 16`. -/
def port? (digits : List Char) : Option (Option Nat) :=
  if digits = [] then some none
  else if digits.all Char.isDigit then
    let n := digits.foldl (fun n c => 10 * n + (c.toNat - '0'.toNat)) 0
    if n < Nat.pow 2 16 then some (some n) else none
  else none

/-- A host name in lowercase, unless it is empty or holds a character that it cannot hold. -/
def hostName? (cs : List Char) : Option (List Char) :=
  if cs = [] ∨ cs.any (fun c => c.toNat ≤ 0x20 || c.toNat = 0x7F || hostExceptions.contains c) then
    none
  else some (cs.map Char.toLower)

/-- A host and a port, from the text between the slashes, without credentials. -/
def host? (cs : List Char) : Option (List Char × Option Nat) :=
  match cs with
  | '[' :: _ =>
    match splitAt (· = ']') cs with
    | (address, [']']) => some (address.map Char.toLower ++ [']'], none)
    | (address, ']' :: ':' :: digits) =>
      (port? digits).map fun port => (address.map Char.toLower ++ [']'], port)
    | _ => none
  | _ =>
    let (name, rest) := splitAt (· = ':') cs
    (hostName? name).bind fun name => (port? (rest.drop 1)).map fun port => (name, port)

/-- What follows the last `@`. -/
def dropCredentials (cs : List Char) : List Char :=
  (cs.reverse.takeWhile (· ≠ '@')).reverse

/-! ## Paths -/

/-- The segments of a path's text. -/
def splitSegments : List Char → List (List Char)
  | [] => [[]]
  | c :: cs =>
    match splitSegments cs with
    | [] => [[c]]
    | segment :: segments =>
      if isSlash c then [] :: segment :: segments else (c :: segment) :: segments

/-- A segment with encoded points decoded, in lowercase. -/
def decodePoints : List Char → List Char
  | '%' :: '2' :: e :: cs =>
    if e = 'e' ∨ e = 'E' then '.' :: decodePoints cs else '%' :: '2' :: e :: decodePoints cs
  | c :: cs => c :: decodePoints cs
  | [] => []

/-- Adds segments to a path, of which the segments so far are given, last one first. -/
def resolveSegments : List (List Char) → List (List Char) → List (List Char)
  | path, [] => path
  | path, segment :: segments =>
    let last := segments.isEmpty
    if decodePoints segment = ['.'] then
      resolveSegments (if last then [] :: path else path) segments
    else if decodePoints segment = ['.', '.'] then
      resolveSegments (if last then [] :: path.tail else path.tail) segments
    else resolveSegments (segment.flatMap (encodeChar pathExceptions) :: path) segments

/-- A path in normal form. -/
def normalPath (cs : List Char) : List Char :=
  let cs := match cs with
    | [] => []
    | c :: rest => if isSlash c then rest else c :: rest
  (resolveSegments [] (splitSegments cs)).reverse.flatMap fun segment => '/' :: segment

/-- A query and a fragment in normal form, each with the character that opens it. -/
def normalTail (cs : List Char) : List Char :=
  let (query, fragment) := splitAt (· = '#') cs
  let encode := fun exceptions (part : List Char) => match part with
    | [] => []
    | mark :: part => mark :: part.flatMap (encodeChar exceptions)
  encode queryExceptions query ++ encode fragmentExceptions fragment

/-! ## Addresses -/

/-- The port that a protocol has unless another is given. -/
def standardPort (protocol : List Char) : Nat :=
  if protocol = "https".toList then 443 else 80

/-- The normal form of an address, from what follows the colon of its protocol. -/
def normal? (protocol rest : List Char) : Option (List Char) :=
  let rest := rest.dropWhile isSlash
  let (authority, rest) := splitAt (fun c => isSlash c || c = '?' || c = '#') rest
  let (path, tail) := splitAt (fun c => c = '?' || c = '#') rest
  (host? (dropCredentials authority)).map fun (name, port) =>
    let port := match port with
      | some n => if n = standardPort protocol then [] else ':' :: Nat.toDigits 10 n
      | none => []
    protocol ++ "://".toList ++ name ++ port ++ normalPath path ++ normalTail tail

/-- The normal form of an address to which a request can be sent. -/
def read (url : String) : Except UrlError String :=
  match protocol? (clean url.toList) with
  | none => .error .notAbsolute
  | some (protocol, rest) =>
    if protocol = "http".toList ∨ protocol = "https".toList then
      match normal? protocol rest with
      | some cs => .ok (String.ofList cs)
      | none => .error .notAbsolute
    else
      .error (.otherProtocol (String.ofList (protocol ++ ':' :: rest.flatMap (encodeChar ['"']))))

end Url

end ContentModel.Http
