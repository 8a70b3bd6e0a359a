import ContentModel.Proofs.Schema.Moves

/-
# What edits answer

An edit of one field looks for the entity and then for the field, and puts something else in the field's
place.  Its answer depends on what it finds there and on nothing else, and so does what it puts there; where
it finds nothing, there is no place to put anything.

Main statements: `Schema.replaceField_eq_map_lookup` and `Schema.removeField_eq` (what is found),
`FieldEdit.run_on` and `FieldEdit.answer_on` (an edit of one field).
-/

namespace ContentModel

/-! ## Answers -/

/-- What a call of an edit answers. -/
inductive Edit.Answer where
  /-- The removed field, if it was there. -/
  | removed (field : Option Field)
  /-- A flag was set. -/
  | flagged
  | moved (hasMoved : Bool)
  | changed (change : TypeChange)
  | failed (error : EditError)
  deriving DecidableEq, Repr

namespace Edit

/-- The answer of a call that may fail. -/
def Answer.ofExcept {β : Type} (f : β → Answer) : Except EditError β → Answer
  | .ok x => f x
  | .error error => .failed error

/-- Whether nothing was done: there was an error, no field to remove, or no move. -/
def Answer.isRefusal : Answer → Bool
  | .removed field => field.isNone
  | .moved hasMoved => !hasMoved
  | .failed _ => true
  | .flagged | .changed _ => false

/-- The answer of an edit. -/
def answer (s : Schema) : Edit → Answer
  | .removeField entity field => .removed (s.removeField entity field).1
  | .setRequired entity field required =>
    .ofExcept (fun _ => .flagged) (s.setRequired entity field required)
  | .setUnique entity field unique => .ofExcept (fun _ => .flagged) (s.setUnique entity field unique)
  | .reorder entity source destination =>
    .ofExcept (fun result => .moved result.1) (s.reorder entity source destination)
  | .changeType entity field target =>
    .ofExcept (fun result => .changed result.1) (s.changeType entity field target)

end Edit

/-! ## Looking for a field -/

namespace EntitySchema

/-- A field that is there stands at its position. -/
theorem field?_eq_bind_position? (e : EntitySchema) (field : String) :
    e.field? field = (e.position? field).bind (e.fields[·]?) :=
  List.find?_eq_bind_findIdx?_getElem?

/-- Erasing a field at its position is a splice of nothing. -/
theorem eraseIdx_position? {e : EntitySchema} {field : String} {i : Nat}
    (h : e.position? field = some i) :
    e.fields.eraseIdx i = splice Field.name field (fun _ => []) e.fields := by
  rw [position?] at h
  rw [← eraseP_eq_splice, List.eraseP_eq_eraseIdx, h]

end EntitySchema

namespace Schema

variable {s : Schema} {entity field : String} {e : EntitySchema}

/-- The field that an edit means, or what is missing. -/
def lookup (entity field : String) (s : Schema) : Except EditError Field :=
  (s.needField entity field).map Prod.snd

/-- In a missing entity there is nothing to find. -/
theorem lookup_of_entity_none (he : s.entity? entity = none) :
    s.lookup entity field = .error (.entityNotFound entity) := by
  rw [lookup, needField, needEntity, he]
  rfl

/-- A field that is missing from its entity. -/
theorem lookup_of_field_none (he : s.entity? entity = some e) (hf : e.field? field = none) :
    s.lookup entity field = .error (.fieldNotFound entity field) := by
  simp [lookup, needField, needEntity, he, hf, bind, Except.bind, Except.map]

/-- A field that is there. -/
theorem lookup_of_some (he : s.entity? entity = some e) {f : Field} (hf : e.field? field = some f) :
    s.lookup entity field = .ok f := by
  simp [lookup, needField, needEntity, he, hf, bind, Except.bind, Except.map]

/-- A field is found exactly if it is the first of its name in the first entity of its name. -/
theorem lookup_eq_ok_iff {f : Field} :
    s.lookup entity field = .ok f ↔ ∃ e, s.entity? entity = some e ∧ e.field? field = some f := by
  cases he : s.entity? entity with
  | none => simp [lookup_of_entity_none he]
  | some e =>
    cases hf : e.field? field with
    | none => simp [lookup_of_field_none he hf, hf]
    | some g => simp [lookup_of_some he hf, hf]

/-- Nothing is spliced in the place of a field that is not found. -/
theorem spliceField_of_error {g : Field → List Field} {error : EditError}
    (h : s.lookup entity field = .error error) : s.spliceField entity field g = s := by
  refine mapFields_eq_self fun e he => splice_of_notMem ?_
  rw [← Keyed.find?_eq_none_iff, Keyed.find?_eq_find?]
  cases hf : e.field? field with
  | none => exact hf
  | some f =>
    rw [lookup_of_some he hf] at h
    cases h

/-- Replacing a field is a splice of one field. -/
theorem replaceField_eq_map_lookup (change : Field → Field) :
    s.replaceField entity field change = (s.lookup entity field).map fun f =>
      (f, s.spliceField entity field fun f => [change f]) := by
  cases he : s.entity? entity with
  | none =>
    rw [lookup_of_entity_none he, replaceField, needField, needEntity, he]
    rfl
  | some e =>
    cases hf : e.field? field with
    | none =>
      rw [lookup_of_field_none he hf]
      simp [replaceField, needField, needEntity, he, hf, bind, Except.bind, Except.map]
    | some f =>
      -- What is put in the place was made from the field that was found, and that is the one that stands there.
      have hfields : replaceFirst (fun f => f.name = field) (change f) e.fields =
          splice Field.name field (fun f => [change f]) e.fields := by
        rw [replaceFirst_eq_splice]
        refine splice_congr fun f' hf' => ?_
        rw [Keyed.find?_eq_find?] at hf'
        rw [Option.some.inj (hf'.symm.trans hf)]
      rw [lookup_of_some he hf, replaceField_eq_ok_iff.mpr ⟨e, he, hf, rfl⟩, EntitySchema.setField,
        hfields, setEntity_eq_mapFields he]
      rfl

/-- Removing a field shows it, and splices nothing in its place. -/
theorem removeField_eq (s : Schema) (entity field : String) :
    s.removeField entity field =
      ((s.lookup entity field).toOption, s.spliceField entity field fun _ => []) := by
  cases he : s.entity? entity with
  | none =>
    rw [spliceField_of_error (lookup_of_entity_none he), lookup_of_entity_none he, removeField, he]
    rfl
  | some e =>
    rw [removeField, he]
    -- The removal goes by the position, and the lookup by the name.
    have hfind := e.field?_eq_bind_position? field
    cases hp : e.position? field with
    | none =>
      rw [hp] at hfind
      rw [spliceField_of_error (lookup_of_field_none he hfind), lookup_of_field_none he hfind]
      dsimp only
      rw [hp]
      rfl
    | some i =>
      have hi : i < e.fields.length := (List.findIdx?_eq_some_iff_getElem.mp hp).1
      rw [hp, Option.bind_some, List.getElem?_eq_getElem hi] at hfind
      rw [lookup_of_some he hfind, spliceField, ← setEntity_eq_mapFields he,
        ← EntitySchema.eraseIdx_position? hp]
      dsimp only
      rw [hp]
      dsimp only
      rw [List.getElem?_eq_getElem hi]
      rfl

end Schema

/-! ## Edits of one field -/

/-- What can be done to one field. -/
inductive FieldEdit where
  | remove
  | setRequired (required : Bool)
  | setUnique (unique : Bool)
  | changeType (target : FieldType)

namespace FieldEdit

/-- The edit of a field of an entity. -/
def on (entity field : String) : FieldEdit → Edit
  | remove => .removeField entity field
  | setRequired required => .setRequired entity field required
  | setUnique unique => .setUnique entity field unique
  | changeType target => .changeType entity field target

/-- What it puts in the place of the field. -/
def result : FieldEdit → Field → List Field
  | remove, _ => []
  | setRequired required, f => [{ f with required }]
  | setUnique unique, f => [{ f with unique }]
  | changeType target, f => if target = .relation then [.ofRelation f.name] else [f]

/-- What it answers when it has looked for the field. -/
def respond (entity field : String) : FieldEdit → Except EditError Field → Edit.Answer
  | remove, found => .removed found.toOption
  | setRequired _, found | setUnique _, found => .ofExcept (fun _ => .flagged) found
  | changeType target, found =>
    if target = .relation then
      .ofExcept (fun f => .changed ⟨entity, f, .ofRelation field⟩) found
    else .failed (.unsupportedTypeChange field target)

/-- What is put in the place of a field has its name. -/
theorem keepsName_result (c : FieldEdit) : KeepsName Field.name c.result := by
  intro f g hg
  cases c with
  | remove => cases hg
  | setRequired required => rw [List.mem_singleton.mp hg]
  | setUnique unique => rw [List.mem_singleton.mp hg]
  | changeType target =>
    rw [result] at hg
    split at hg
    · rw [List.mem_singleton.mp hg]
      rfl
    · rw [List.mem_singleton.mp hg]

variable (s : Schema) (c : FieldEdit) (entity field : String)

/-- A relation is put in the place of the field of its name. -/
theorem spliceField_ofRelation :
    (s.spliceField entity field fun _ => [.ofRelation field]) =
      s.spliceField entity field fun f => [.ofRelation f.name] := by
  refine Schema.mapFields_congr fun e _ => splice_congr fun f hf => ?_
  rw [(Keyed.mem_and_name_of_find? hf).2]

/-- **The schema.**  An edit of one field is a splice in its place. -/
theorem run_on : (c.on entity field).run s = s.spliceField entity field c.result := by
  have hreplace : ∀ change : Field → Field,
      (((s.replaceField entity field change).map Prod.snd).toOption).getD s =
        s.spliceField entity field fun f => [change f] := by
    intro change
    rw [Schema.replaceField_eq_map_lookup]
    cases hlookup : s.lookup entity field with
    | error error => rw [Schema.spliceField_of_error hlookup]; rfl
    | ok f => rfl
  cases c with
  | remove => rw [on, Edit.run, Schema.removeField_eq]; rfl
  | setRequired required => exact hreplace fun f => { f with required }
  | setUnique unique => exact hreplace fun f => { f with unique }
  | changeType target =>
    rw [on, Edit.run, Schema.changeType]
    by_cases ht : target = .relation
    · rw [if_neg (fun h => h ht)]
      -- The relation is named by the call, and here by the field, which has that name.
      have hresult : (changeType target).result = fun f => [.ofRelation f.name] := by
        funext f
        rw [result, if_pos ht]
      rw [hresult, ← spliceField_ofRelation, ← hreplace]
      cases s.replaceField entity field fun _ => Field.ofRelation field <;> rfl
    · rw [if_pos ht]
      have hresult : (changeType target).result = fun f => [f] := by
        funext f
        rw [result, if_neg ht]
      rw [hresult]
      exact (Schema.mapFields_eq_self fun e _ => splice_singleton_self).symm

/-- **The answer.**  It depends on what is found only. -/
theorem answer_on : (c.on entity field).answer s = c.respond entity field (s.lookup entity field) := by
  cases c with
  | remove => rw [on, Edit.answer, Schema.removeField_eq]; rfl
  | setRequired required =>
    rw [on, Edit.answer, Schema.setRequired, Schema.replaceField_eq_map_lookup]
    cases s.lookup entity field <;> rfl
  | setUnique unique =>
    rw [on, Edit.answer, Schema.setUnique, Schema.replaceField_eq_map_lookup]
    cases s.lookup entity field <;> rfl
  | changeType target =>
    rw [on, Edit.answer, Schema.changeType, Schema.replaceField_eq_map_lookup, respond]
    by_cases ht : target = .relation
    · rw [if_neg (fun h => h ht), if_pos ht]
      cases s.lookup entity field <;> rfl
    · rw [if_pos ht, if_neg ht]
      rfl

end FieldEdit

end ContentModel
