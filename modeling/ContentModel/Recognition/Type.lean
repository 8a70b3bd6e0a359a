import ContentModel.Recognition.Markup
import ContentModel.Recognition.Shape
import ContentModel.Schema.Field

/-
# The type of a value, and of several

`classify` gives one value a type; `mergeType` combines the type a field has with the type of one more
value.  Text with markup absorbs every other type, nothing but nulls yields to every other type, and
otherwise the type seen first stays.
-/

namespace ContentModel.Recognition

open ContentModel.Json (Value)

/-! ## One value -/

/-- Whether a value has the shape of a media asset. -/
def isMedia (v : Value) : Bool :=
  (MediaAsset.ofValue v).isOk

/-- Whether a value has the shape of a component. -/
def isComponent (v : Value) : Bool :=
  (componentMembers v).isOk

/-- The type of a value; an object that is no media asset counts as a component, even without an
identifier, once the field is known to hold components. -/
def classifyGiven (previous : Option FieldType) : Value → FieldType
  | .string s => if isDateLike s then .date else if hasMarkup s then .richText else .string
  | .object members =>
    if isMedia (.object members) then .media
    else if previous = some .component ∨ isComponent (.object members) then .component
    else .unknown
  | .number _ => .number
  | .bool _ => .boolean
  | .null => .nullish
  | .array _ => .unknown

/-- The type of a value. -/
def classify (v : Value) : FieldType :=
  classifyGiven none v

/-- The type of a value that may be absent, which counts as `null`. -/
def classifyOptional (previous : Option FieldType) (v : Option Value) : FieldType :=
  classifyGiven previous (v.getD .null)

/-! ## Several values -/

/-- The type of a field after one more value. -/
def mergeType (existing observed : FieldType) : FieldType :=
  if existing = observed then existing
  else if existing = .richText ∨ observed = .richText then .richText
  else if existing = .nullish then observed
  else existing

/-- Whether all records carry a value, after one more record. -/
def mergeRequired (required present : Bool) : Bool :=
  required && present

/-- Whether all texts are distinct, after one more text. -/
def mergeUnique (unique duplicate : Bool) : Bool :=
  unique && !duplicate

end ContentModel.Recognition
