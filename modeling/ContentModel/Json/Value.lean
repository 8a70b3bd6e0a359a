import ContentModel.Keyed
import ContentModel.Number.Binary64

/-
# JSON values

An object is a list of members in order.  Values read from text never repeat a name in an object.
-/

namespace ContentModel.Json

/-! ## Values -/

/-- A number: an integer of 64 bits, signed or unsigned, or a binary floating point number. -/
inductive Number where
  | integer (n : Int)
  | real (x : Binary64)
  deriving DecidableEq, Repr, Inhabited

/-- The floating point number nearest to a number.  Integers of 64 bits are never too large for one. -/
def Number.toBinary64 : Number → Binary64
  | .integer n => (Binary64.ofInt? n).getD (Binary64.zero false)
  | .real x => x

/-- A JSON value. -/
inductive Value where
  | null
  | bool (b : Bool)
  | number (n : Number)
  | string (s : String)
  | array (items : List Value)
  | object (members : List (String × Value))
  deriving Repr, Inhabited

/-- The members of an object, in order. -/
abbrev Members := List (String × Value)

/-! ## Kinds -/

/-- The kind of a value, as error messages name it. -/
inductive Kind where
  | null | boolean | number | string | array | object
  deriving DecidableEq, Repr, Inhabited

/-- The word for a kind. -/
def Kind.name : Kind → String
  | .null => "null"
  | .boolean => "boolean"
  | .number => "number"
  | .string => "string"
  | .array => "array"
  | .object => "object"

namespace Value

/-- The kind of a value. -/
def kind : Value → Kind
  | null => .null
  | bool _ => .boolean
  | number _ => .number
  | string _ => .string
  | array _ => .array
  | object _ => .object

/-- Whether a value is `null`. -/
def isNull : Value → Bool
  | null => true
  | _ => false

/-- The value itself, or nothing when it is `null`. -/
def nonNull? : Value → Option Value
  | null => none
  | v => some v

/-- The member of the given name, of an object. -/
def member? (name : String) : Value → Option Value
  | object members => Keyed.get? name members
  | _ => none

/-! ## Equality -/

mutual

/-- Whether two values are equal, members compared in order. -/
def same : Value → Value → Bool
  | null, null => true
  | bool a, bool b => a == b
  | number a, number b => decide (a = b)
  | string a, string b => decide (a = b)
  | array xs, array ys => sameItems xs ys
  | object xs, object ys => sameMembers xs ys
  | _, _ => false

/-- Whether two lists of items are equal. -/
def sameItems : List Value → List Value → Bool
  | [], [] => true
  | x :: xs, y :: ys => same x y && sameItems xs ys
  | _, _ => false

/-- Whether two lists of members are equal. -/
def sameMembers : List (String × Value) → List (String × Value) → Bool
  | [], [] => true
  | (m, x) :: xs, (n, y) :: ys => decide (m = n) && same x y && sameMembers xs ys
  | _, _ => false

end

mutual

/-- `same` decides equality. -/
theorem same_iff : ∀ v w : Value, same v w = true ↔ v = w
  | null, w => by cases w <;> simp [same]
  | bool a, w => by cases w <;> simp [same]
  | number a, w => by cases w <;> simp [same]
  | string a, w => by cases w <;> simp [same]
  | array xs, w => by cases w <;> simp [same, sameItems_iff xs]
  | object xs, w => by cases w <;> simp [same, sameMembers_iff xs]

/-- `sameItems` decides equality. -/
theorem sameItems_iff : ∀ xs ys : List Value, sameItems xs ys = true ↔ xs = ys
  | [], ys => by cases ys <;> simp [sameItems]
  | x :: xs, ys => by cases ys <;> simp [sameItems, same_iff x, sameItems_iff xs]

/-- `sameMembers` decides equality. -/
theorem sameMembers_iff : ∀ xs ys : List (String × Value), sameMembers xs ys = true ↔ xs = ys
  | [], ys => by cases ys <;> simp [sameMembers]
  | (m, x) :: xs, ys => by
    cases ys with
    | nil => simp [sameMembers]
    | cons y ys =>
      obtain ⟨n, y⟩ := y
      simp [sameMembers, same_iff x, sameMembers_iff xs]

end

instance : DecidableEq Value := fun v w =>
  decidable_of_iff (same v w = true) (same_iff v w)

end Value

end ContentModel.Json
