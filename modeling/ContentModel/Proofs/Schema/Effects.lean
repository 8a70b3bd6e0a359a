import ContentModel.Proofs.Schema.Answers
import ContentModel.Proofs.Schema.Moves

/-
# All that an edit changes

A change of a type to anything but a relation fails before the schema is looked at; any other edit fails
exactly if its entity is missing, or the field that it names.  A removal has no errors, and answers that there
is no field where another edit would fail.  An edit that does something changes one place, and everything
else stands as it stood.

Main statements: `Edit.fails_on_iff` (when an edit of one field fails), `Edit.changes_on` (what happens to the
fields of an entity), `Edit.atomic_on` and `Edit.atomic_reorder` (one field, one move) and `Edit.atomic_run`.
-/

namespace ContentModel

namespace Edit

/-! ## What an edit names -/

/-- The entity that an edit names. -/
def entity : Edit → String
  | .removeField entity _ | .setRequired entity _ _ | .setUnique entity _ _ | .reorder entity _ _
  | .changeType entity _ _ => entity

/-- The field that an edit names; a move names places. -/
def field? : Edit → Option String
  | .removeField _ field | .setRequired _ field _ | .setUnique _ field _ | .changeType _ field _ =>
    some field
  | .reorder _ _ _ => none

/-- Whether an edit can be done at all: a type is changed to a relation only. -/
def isSupported : Edit → Bool
  | .changeType _ _ target => target = .relation
  | _ => true

/-- Whether an edit removes a field, which has no errors. -/
def isRemoval : Edit → Bool
  | .removeField _ _ => true
  | _ => false

/-! ## Specification -/

/-- Why an edit fails: it is unsupported, whatever the schema holds, or else its entity is missing, or else
the field that it names is missing from the entity. -/
inductive Fails (s : Schema) : Edit → EditError → Prop
  | unsupported {entity field : String} {target : FieldType} : target ≠ .relation →
      Fails s (.changeType entity field target) (.unsupportedTypeChange field target)
  | entityNotFound {edit : Edit} : edit.isSupported = true → s.entity? edit.entity = none →
      Fails s edit (.entityNotFound edit.entity)
  | fieldNotFound {edit : Edit} {e : EntitySchema} {field : String} : edit.isSupported = true →
      s.entity? edit.entity = some e → edit.field? = some field → e.field? field = none →
      Fails s edit (.fieldNotFound edit.entity field)

/-- What an edit that does something answers and makes of the fields of its entity.  A field is meant by its
name, and is then the first one of that name, or by its index. -/
inductive Changes : Edit → List Field → Answer → List Field → Prop
  | removed {entity field : String} {fields before after : List Field} {f : Field} :
      FirstAt Field.name field fields before f after →
      Changes (.removeField entity field) fields (.removed (some f)) (before ++ after)
  | required {entity field : String} {required : Bool} {fields before after : List Field} {f : Field} :
      FirstAt Field.name field fields before f after →
      Changes (.setRequired entity field required) fields .flagged
        (before ++ { f with required } :: after)
  | unique {entity field : String} {unique : Bool} {fields before after : List Field} {f : Field} :
      FirstAt Field.name field fields before f after →
      Changes (.setUnique entity field unique) fields .flagged (before ++ { f with unique } :: after)
  /-- The field moves from the end of one first part to the end of another, of the same other fields. -/
  | moved {entity : String} {before after before' after' : List Field} {f : Field} :
      before.length ≠ before'.length → before ++ after = before' ++ after' →
      Changes (.reorder entity before.length (some before'.length)) (before ++ f :: after) (.moved true)
        (before' ++ f :: after')
  | changed {entity field : String} {fields before after : List Field} {f : Field} :
      FirstAt Field.name field fields before f after →
      Changes (.changeType entity field .relation) fields (.changed ⟨entity, f, .ofRelation field⟩)
        (before ++ .ofRelation field :: after)

/-- All that an edit of a schema answers and does. -/
structure Atomic (s : Schema) (edit : Edit) (answer : Answer) (s' : Schema) : Prop where
  /-- An error, no field or no move leave the schema as it was. -/
  unchanged : answer.isRefusal = true → s' = s
  failed : ∀ error, answer = .failed error ↔ edit.isRemoval = false ∧ Fails s edit error
  absent : answer = .removed none ↔ edit.isRemoval = true ∧ ∃ error, Fails s edit error
  unmoved : answer = .moved false ↔ ∃ entity source destination e,
    edit = .reorder entity source destination ∧ s.entity? entity = some e ∧
      ¬ ∃ d, destination = some d ∧ source ≠ d ∧ source < e.fields.length ∧ d < e.fields.length
  /-- Otherwise the fields of the first entity of the name are changed, and no other entity is. -/
  effect : answer.isRefusal = false → ∃ before e after fields,
    FirstAt EntitySchema.name edit.entity s.entities before e after ∧
      Changes edit e.fields answer fields ∧ s' = ⟨before ++ { e with fields } :: after⟩

/-! ## Outcomes -/

section Outcomes

variable {s : Schema} {edit : Edit} {answer : Answer}

/-- There is only one reason to fail. -/
theorem Fails.unique {error error' : EditError} (h : Fails s edit error) (h' : Fails s edit error') :
    error = error' := by
  cases h with
  | unsupported ht =>
    have hsupported : ∀ entity field target, target ≠ .relation →
        (Edit.changeType entity field target).isSupported = false :=
      fun _ _ _ ht => decide_eq_false ht
    cases h' with
    | unsupported _ => rfl
    | entityNotFound hs _ => rw [hsupported _ _ _ ht] at hs; cases hs
    | fieldNotFound hs _ _ _ => rw [hsupported _ _ _ ht] at hs; cases hs
  | entityNotFound hs he =>
    cases h' with
    | unsupported ht => exact absurd (of_decide_eq_true hs) ht
    | entityNotFound _ _ => rfl
    | fieldNotFound _ he' _ _ => rw [he] at he'; cases he'
  | fieldNotFound hs he hname hf =>
    cases h' with
    | unsupported ht => exact absurd (of_decide_eq_true hs) ht
    | entityNotFound _ he' => rw [he] at he'; cases he'
    | fieldNotFound _ he' hname' hf' =>
      rw [hname, Option.some.injEq] at hname'
      rw [hname']

/-- A move fails only if its entity is missing. -/
theorem Fails.entity?_eq_none {entity : String} {source : Nat} {destination : Option Nat}
    {error : EditError} (h : Fails s (.reorder entity source destination) error) :
    s.entity? entity = none ∧ error = .entityNotFound entity := by
  -- The other reasons are about edits that are no moves, or that name a field.
  generalize hedit : Edit.reorder entity source destination = edit at h
  cases h with
  | unsupported _ => cases hedit
  | entityNotFound _ he => subst hedit; exact ⟨he, rfl⟩
  | fieldNotFound _ _ hname _ => subst hedit; cases hname

/-- An edit that does something answers so. -/
theorem Changes.isRefusal_eq_false {fields fields' : List Field} (h : Changes edit fields answer fields') :
    answer.isRefusal = false := by
  cases h <;> rfl

/-- A move that does something goes from one index of the fields to another. -/
theorem Changes.moves {entity : String} {source : Nat} {destination : Option Nat}
    {fields fields' : List Field} (h : Changes (.reorder entity source destination) fields answer fields') :
    ∃ d, destination = some d ∧ source ≠ d ∧ source < fields.length ∧ d < fields.length := by
  generalize hedit : Edit.reorder entity source destination = edit at h
  cases h with
  | moved hne hothers =>
    cases hedit
    have hlength := congrArg List.length hothers
    rw [List.length_append, List.length_append] at hlength
    refine ⟨_, rfl, hne, ?_, ?_⟩
    · rw [List.length_append, List.length_cons]
      omega
    · rw [List.length_append, List.length_cons]
      omega
  | _ => cases hedit

/-- An edit that fails leaves the schema, and says why unless it is a removal. -/
theorem atomic_of_fails {error : EditError} (h : Fails s edit error)
    (hanswer : answer = if edit.isRemoval then .removed none else .failed error) :
    Atomic s edit answer s := by
  refine ⟨fun _ => rfl, fun error' => ?_, ?_, ?_, ?_⟩
  · constructor
    · intro hfailed
      cases hremoval : edit.isRemoval with
      | true =>
        rw [hanswer, hremoval] at hfailed
        cases hfailed
      | false =>
        rw [hanswer, hremoval] at hfailed
        cases hfailed
        exact ⟨rfl, h⟩
    · rintro ⟨hremoval, h'⟩
      rw [hanswer, hremoval, h.unique h']
      rfl
  · constructor
    · intro habsent
      cases hremoval : edit.isRemoval with
      | true => exact ⟨rfl, error, h⟩
      | false =>
        rw [hanswer, hremoval] at habsent
        cases habsent
    · rintro ⟨hremoval, -⟩
      rw [hanswer, hremoval]
      rfl
  · constructor
    · intro hunmoved
      rw [hanswer] at hunmoved
      split at hunmoved <;> cases hunmoved
    · rintro ⟨entity, source, destination, e, rfl, he, -⟩
      rw [h.entity?_eq_none.1] at he
      cases he
  · intro hdone
    rw [hanswer] at hdone
    split at hdone <;> cases hdone

/-- An edit that changes the fields of its entity, and has no reason to fail. -/
theorem atomic_of_changes (hnone : ∀ error, ¬ Fails s edit error) {before after : List EntitySchema}
    {e : EntitySchema} {fields : List Field}
    (hfirst : FirstAt EntitySchema.name edit.entity s.entities before e after)
    (h : Changes edit e.fields answer fields) :
    Atomic s edit answer ⟨before ++ { e with fields } :: after⟩ := by
  have hdone := h.isRefusal_eq_false
  refine ⟨fun hrefusal => ?_, fun error => ?_, ?_, ?_, fun _ => ⟨before, e, after, fields, hfirst, h, rfl⟩⟩
  · rw [hdone] at hrefusal
    cases hrefusal
  · constructor
    · rintro rfl
      cases hdone
    · exact fun hfails => absurd hfails.2 (hnone error)
  · constructor
    · rintro rfl
      cases hdone
    · rintro ⟨-, error, hfails⟩
      exact absurd hfails (hnone error)
  · constructor
    · rintro rfl
      cases hdone
    · rintro ⟨entity, source, destination, e', rfl, he', hstays⟩
      have he : s.entity? entity = some e := Keyed.find?_eq_some_iff_firstAt.mpr ⟨before, after, hfirst⟩
      obtain rfl := Option.some.inj (he.symm.trans he')
      exact absurd h.moves hstays

end Outcomes

/-! ## Edits of one field -/

section Field

variable {s : Schema} {c : FieldEdit} {entity field : String}

/-- **Failures.**  A supported edit of one field fails exactly if the field is not found. -/
theorem fails_on_iff (hc : (c.on entity field).isSupported = true) {error : EditError} :
    Fails s (c.on entity field) error ↔ s.lookup entity field = .error error := by
  have hentity : (c.on entity field).entity = entity := by cases c <;> rfl
  have hfield : (c.on entity field).field? = some field := by cases c <;> rfl
  constructor
  · intro h
    generalize hedit : c.on entity field = edit at h hc hentity hfield
    cases h with
    | unsupported ht => exact absurd (of_decide_eq_true hc) ht
    | entityNotFound _ he =>
      rw [hentity] at he ⊢
      exact Schema.lookup_of_entity_none he
    | fieldNotFound _ he hname hf =>
      rw [hentity] at he ⊢
      rw [hfield, Option.some.injEq] at hname
      subst hname
      exact Schema.lookup_of_field_none he hf
  · intro h
    cases he : s.entity? entity with
    | none =>
      rw [Schema.lookup_of_entity_none he] at h
      cases h
      have hfails := Fails.entityNotFound (s := s) hc (by rw [hentity]; exact he)
      rwa [hentity] at hfails
    | some e =>
      cases hf : e.field? field with
      | none =>
        rw [Schema.lookup_of_field_none he hf] at h
        cases h
        have hfails := Fails.fieldNotFound (s := s) hc (by rw [hentity]; exact he) hfield hf
        rwa [hentity] at hfails
      | some f =>
        rw [Schema.lookup_of_some he hf] at h
        cases h

/-- **Changes.**  What a supported edit makes of the fields when it finds the one that it means. -/
theorem changes_on (hc : (c.on entity field).isSupported = true) {fields before after : List Field}
    {f : Field} (h : FirstAt Field.name field fields before f after) :
    Changes (c.on entity field) fields (c.respond entity field (.ok f))
      (before ++ (c.result f ++ after)) := by
  cases c with
  | remove => exact .removed h
  | setRequired required => exact .required h
  | setUnique unique => exact .unique h
  | changeType target =>
    obtain rfl : target = .relation := of_decide_eq_true hc
    rw [FieldEdit.respond, FieldEdit.result, if_pos rfl, if_pos rfl, h.name]
    exact .changed h

/-- What an edit answers when it does not find the field: a removal answers that there is none. -/
theorem respond_error (hc : (c.on entity field).isSupported = true) (error : EditError) :
    c.respond entity field (.error error) =
      if (c.on entity field).isRemoval then .removed none else .failed error := by
  cases c with
  | changeType target =>
    obtain rfl : target = .relation := of_decide_eq_true hc
    rw [FieldEdit.respond, if_pos rfl]
    rfl
  | _ => rfl

/-- **One field.**  An edit of one field changes that field only, or fails. -/
theorem atomic_on (s : Schema) (c : FieldEdit) (entity field : String) :
    Atomic s (c.on entity field) ((c.on entity field).answer s) ((c.on entity field).run s) := by
  rw [FieldEdit.answer_on, FieldEdit.run_on]
  cases hc : (c.on entity field).isSupported with
  | false =>
    -- An unsupported change fails also where its entity is missing, so nothing is looked up here.
    cases c with
    | changeType target =>
      have ht : target ≠ .relation := of_decide_eq_false hc
      have hsame : s.spliceField entity field (FieldEdit.changeType target).result = s := by
        rw [← FieldEdit.run_on, FieldEdit.on, run, Schema.changeType, if_pos ht]
        rfl
      rw [hsame, FieldEdit.respond, if_neg ht]
      exact atomic_of_fails (.unsupported ht) rfl
    | _ => cases hc
  | true =>
    cases hlookup : s.lookup entity field with
    | error error =>
      rw [Schema.spliceField_of_error hlookup]
      exact atomic_of_fails ((fails_on_iff hc).mpr hlookup) (respond_error hc error)
    | ok f =>
      have hnone : ∀ error, ¬ Fails s (c.on entity field) error := by
        intro error hfails
        rw [fails_on_iff hc, hlookup] at hfails
        cases hfails
      have hentity : (c.on entity field).entity = entity := by cases c <;> rfl
      obtain ⟨e, he, hf⟩ := Schema.lookup_eq_ok_iff.mp hlookup
      rw [EntitySchema.field?, ← Keyed.find?_eq_find?] at hf
      obtain ⟨before, after, hfirst⟩ := Keyed.find?_eq_some_iff_firstAt.mp hf
      obtain ⟨entities, entities', hplace⟩ := Keyed.find?_eq_some_iff_firstAt.mp he
      rw [Schema.spliceField, Schema.mapFields, hplace.splice, hfirst.splice]
      exact atomic_of_changes hnone (hentity.symm ▸ hplace) (changes_on hc hfirst)

end Field

/-! ## Moves -/

/-- **One move.**  A move changes the fields of its entity only, or does nothing, or fails. -/
theorem atomic_reorder (s : Schema) (entity : String) (source : Nat) (destination : Option Nat) :
    Atomic s (.reorder entity source destination) (answer s (.reorder entity source destination))
      (run s (.reorder entity source destination)) := by
  rw [answer, run]
  cases he : s.entity? entity with
  | none =>
    have hfails : Fails s (.reorder entity source destination) (.entityNotFound entity) :=
      .entityNotFound rfl he
    rw [Schema.reorder_of_missing he]
    exact atomic_of_fails hfails rfl
  | some e =>
    have hnone : ∀ error, ¬ Fails s (.reorder entity source destination) error := by
      intro error hfails
      rw [hfails.entity?_eq_none.1] at he
      cases he
    obtain ⟨d, rfl, ⟨hne, hs, hd⟩, hreorder⟩ | ⟨hstays, hreorder⟩ :=
      Schema.reorder_cases he source destination
    · -- The indices are the lengths of what stands before the field, in the fields and in the result.
      obtain ⟨before, f, after, before', after', hfields, rfl, hothers, rfl, hmoved⟩ :=
        exists_split_moveAt hs hd
      obtain ⟨entities, entities', hplace⟩ := Keyed.find?_eq_some_iff_firstAt.mp he
      rw [hreorder, Schema.mapFields, hplace.splice]
      have hchanges : Changes (.reorder entity before.length (some before'.length)) e.fields
          (.moved true) (moveAt before.length before'.length e.fields) := by
        rw [hmoved, hfields]
        exact .moved hne hothers
      exact atomic_of_changes hnone hplace hchanges
    · rw [hreorder]
      refine ⟨fun _ => rfl, fun error => ?_, ?_, ?_, fun hdone => absurd hdone Bool.noConfusion⟩
      · exact ⟨fun hfailed => absurd hfailed Answer.noConfusion, fun hfails => absurd hfails.2 (hnone error)⟩
      · exact ⟨fun habsent => absurd habsent Answer.noConfusion, fun hfails => absurd hfails.1 Bool.noConfusion⟩
      · exact ⟨fun _ => ⟨entity, source, destination, e, rfl, he, hstays⟩, fun _ => rfl⟩

/-! ## All edits -/

/-- **Edits.**  An edit that is refused leaves the schema as it was.  It fails exactly if it is unsupported, or
else its entity is missing, or else the field that it names; a removal answers then that there is no field.
An edit that is not refused changes one field of the first entity of its name, or the place of one, answers what
it did, and leaves all other fields and entities as they were, in their order. -/
theorem atomic_run (s : Schema) (edit : Edit) : Atomic s edit (edit.answer s) (edit.run s) := by
  cases edit with
  | removeField entity field => exact atomic_on s .remove entity field
  | setRequired entity field required => exact atomic_on s (.setRequired required) entity field
  | setUnique entity field unique => exact atomic_on s (.setUnique unique) entity field
  | reorder entity source destination => exact atomic_reorder s entity source destination
  | changeType entity field target => exact atomic_on s (.changeType target) entity field

/-- Of two entities of one name the first is meant, so a field of the second is not found. -/
example :
    let s : Schema := ⟨[⟨"pages", [.fresh "title" .string]⟩, ⟨"pages", [.fresh "body" .richText]⟩]⟩
    let edit := Edit.setUnique "pages" "body" false
    edit.answer s = .failed (.fieldNotFound "pages" "body") ∧ edit.run s = s := by
  decide

end Edit

end ContentModel
