import ContentModel.Json.Value
import ContentModel.Recognition.Date

/-
# Shapes of objects

A media asset and a component are recognised by their keys.  Keys are checked one after the other; a
value of another shape is rejected with the first key at fault.
-/

namespace ContentModel.Recognition

open ContentModel.Json (Value Members Kind Number)

/-! ## Rejections -/

/-- What a key should have held. -/
inductive Expectation where
  | string | number | date | object | stringOrNumber
  deriving DecidableEq, Repr, Inhabited

/-- The words for an expectation. -/
def Expectation.phrase : Expectation → String
  | .string => "a string"
  | .number => "a number"
  | .date => "a date"
  | .object => "an object"
  | .stringOrNumber => "a string or number"

/-- Why a value has not the expected shape.  A key is given by its path, with dots. -/
inductive Rejection where
  | notAnObject (found : Kind)
  /-- The key is absent or null. -/
  | missingKey (path : String)
  | wrongType (path : String) (expected : Expectation) (found : Kind)
  deriving DecidableEq, Repr, Inhabited

/-- The wording of a rejection. -/
def Rejection.message : Rejection → String
  | .notAnObject found => "expected object, found " ++ found.name
  | .missingKey path => "missing required key '" ++ path ++ "'"
  | .wrongType path expected found =>
    "key '" ++ path ++ "' should be " ++ expected.phrase ++ ", found " ++ found.name

/-! ## Checks of one key -/

/-- An object under check, and the path that leads to it. -/
structure Scope where
  path : String
  members : Members
  deriving Repr, Inhabited

namespace Scope

/-- Looks into a value, which must be an object. -/
def ofValue (path : String) : Value → Except Rejection Scope
  | .object members => .ok ⟨path, members⟩
  | v => .error (.notAnObject v.kind)

/-- The path of a key. -/
def pathOf (s : Scope) (key : String) : String :=
  if s.path = "" then key else s.path ++ "." ++ key

/-- The value of a key, unless it is absent or null. -/
def optional? (s : Scope) (key : String) : Option Value :=
  (Keyed.get? key s.members).bind Value.nonNull?

/-- The value of a key that must be there. -/
def required (s : Scope) (key : String) : Except Rejection Value :=
  match s.optional? key with
  | some v => .ok v
  | none => .error (.missingKey (s.pathOf key))

/-- The rejection of a value that is not what its key should hold. -/
def wrong (s : Scope) (key : String) (expected : Expectation) (v : Value) : Rejection :=
  .wrongType (s.pathOf key) expected v.kind

/-- The text of a key. -/
def string (s : Scope) (key : String) : Except Rejection String := do
  match ← s.required key with
  | .string t => .ok t
  | v => .error (s.wrong key .string v)

/-- The number of a key, as a floating point number. -/
def number (s : Scope) (key : String) : Except Rejection Binary64 := do
  match ← s.required key with
  | .number n => .ok n.toBinary64
  | v => .error (s.wrong key .number v)

/-- The date-like text of a key. -/
def date (s : Scope) (key : String) : Except Rejection String := do
  match ← s.required key with
  | .string t => if isDateLike t then .ok t else .error (s.wrong key .date (.string t))
  | v => .error (s.wrong key .date v)

/-- The object of a key. -/
def object (s : Scope) (key : String) : Except Rejection Scope := do
  match ← s.required key with
  | .object members => .ok ⟨s.pathOf key, members⟩
  | v => .error (s.wrong key .object v)

end Scope

/-! ## Media assets -/

/-- One rendition of an uploaded image. -/
structure Rendition where
  name : String
  hash : String
  ext : String
  mime : String
  width : Binary64
  height : Binary64
  size : Binary64
  url : String
  deriving DecidableEq, Repr, Inhabited

/-- Reads a rendition that stands at a path. -/
def Rendition.ofValue (path : String) (v : Value) : Except Rejection Rendition := do
  let s ← Scope.ofValue path v
  let name ← s.string "name"
  let hash ← s.string "hash"
  let ext ← s.string "ext"
  let mime ← s.string "mime"
  let width ← s.number "width"
  let height ← s.number "height"
  let size ← s.number "size"
  let url ← s.string "url"
  .ok { name, hash, ext, mime, width, height, size, url }

/-- Reads a rendition that may be absent. -/
def Rendition.ofOptional (s : Scope) (key : String) : Except Rejection (Option Rendition) :=
  match s.optional? key with
  | some v => (Rendition.ofValue (s.pathOf key) v).map some
  | none => .ok none

/-- An uploaded file. -/
structure MediaAsset where
  id : String
  name : String
  alternativeText : String
  caption : String
  hash : String
  ext : String
  mime : String
  size : Binary64
  width : Binary64
  height : Binary64
  url : String
  provider : String
  createdAt : String
  updatedAt : String
  version : Binary64
  thumbnail : Rendition
  medium : Option Rendition
  small : Option Rendition
  deriving DecidableEq, Repr, Inhabited

/-- Reads a media asset: its renditions first, then its own keys. -/
def MediaAsset.ofValue (v : Value) : Except Rejection MediaAsset := do
  let s ← Scope.ofValue "" v
  let formats ← s.object "formats"
  let thumbnail ← Rendition.ofValue (formats.pathOf "thumbnail") (← formats.required "thumbnail")
  let medium ← Rendition.ofOptional formats "medium"
  let small ← Rendition.ofOptional formats "small"
  let id ← s.string "id"
  let name ← s.string "name"
  let alternativeText ← s.string "alternativeText"
  let caption ← s.string "caption"
  let hash ← s.string "hash"
  let ext ← s.string "ext"
  let mime ← s.string "mime"
  let size ← s.number "size"
  let width ← s.number "width"
  let height ← s.number "height"
  let url ← s.string "url"
  let provider ← s.string "provider"
  let createdAt ← s.date "createdAt"
  let updatedAt ← s.date "updatedAt"
  let version ← s.number "__v"
  .ok { id, name, alternativeText, caption, hash, ext, mime, size, width, height, url, provider,
        createdAt, updatedAt, version, thumbnail, medium, small }

/-! ## Components -/

/-- The members of a component: an object whose identifier is a string or a number. -/
def componentMembers (v : Value) : Except Rejection Members := do
  let s ← Scope.ofValue "" v
  match ← s.required "id" with
  | .string _ | .number _ => .ok s.members
  | v => .error (s.wrong "id" .stringOrNumber v)

end ContentModel.Recognition
