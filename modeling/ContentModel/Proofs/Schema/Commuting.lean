import ContentModel.Proofs.Schema.Answers

/-
# Edits that commute

What an edit of one field finds, and with it its answer, is not touched by an edit of another field.  So two
edits of different fields can be made in either order; and so can edits of the two flags of one field.

Main statements: `Schema.lookup_mapFields` and `Schema.lookup_spliceField_of_ne` (what another edit finds),
`Edit.commute_on` (different fields), `Edit.commute_flags` (the flags of a field) and `Edit.Independent.commute`.
-/

namespace ContentModel

/-! ## What is found after an edit -/

namespace Schema

variable {s s' : Schema} {entity field entity' field' : String}

/-- What is found depends on the entity only. -/
theorem lookup_congr (h : s.entity? entity = s'.entity? entity) :
    s.lookup entity field = s'.lookup entity field := by
  rw [lookup, lookup, needField, needField, needEntity, needEntity, h]

/-- What is found after the fields have been changed, by what the change shows under the name. -/
theorem lookup_mapFields {fields : List Field → List Field} {change : Field → Field}
    (h : ∀ xs, Keyed.find? Field.name field (fields xs) = (Keyed.find? Field.name field xs).map change) :
    (s.mapFields entity fields).lookup entity field = (s.lookup entity field).map change := by
  have he' : (s.mapFields entity fields).entity? entity =
      (s.entity? entity).map fun e => { e with fields := fields e.fields } :=
    entity?_mapFields
  cases he : s.entity? entity with
  | none =>
    rw [he] at he'
    rw [lookup_of_entity_none he, lookup_of_entity_none he']
    rfl
  | some e =>
    rw [he, Option.map_some] at he'
    have hchanged : EntitySchema.field? field { e with fields := fields e.fields } =
        (e.field? field).map change := by
      rw [EntitySchema.field?, EntitySchema.field?, ← Keyed.find?_eq_find?, ← Keyed.find?_eq_find?]
      exact h e.fields
    cases hf : e.field? field with
    | none =>
      rw [hf] at hchanged
      rw [lookup_of_field_none he hf, lookup_of_field_none he' hchanged]
      rfl
    | some f =>
      rw [hf] at hchanged
      rw [lookup_of_some he hf, lookup_of_some he' hchanged]
      rfl

/-- **Other fields.**  A splice leaves what is found in other places. -/
theorem lookup_spliceField_of_ne (hne : (entity, field) ≠ (entity', field'))
    {g : Field → List Field} (hg : KeepsName Field.name g) :
    (s.spliceField entity' field' g).lookup entity field = s.lookup entity field := by
  by_cases hentity : entity = entity'
  · subst hentity
    have hfield : field ≠ field' := fun h => hne (by rw [h])
    have hsame : ∀ xs, Keyed.find? Field.name field (splice Field.name field' g xs) =
        (Keyed.find? Field.name field xs).map id := by
      intro xs
      rw [Keyed.find?_splice_of_ne hfield hg, Option.map_id_fun, id]
    rw [spliceField, lookup_mapFields hsame]
    cases s.lookup entity field <;> rfl
  · exact lookup_congr (entity?_mapFields_of_ne hentity)

/-- **The same field**, after it has been replaced. -/
theorem lookup_spliceField_singleton {change : Field → Field} (hchange : ∀ f, (change f).name = f.name) :
    (s.spliceField entity field fun f => [change f]).lookup entity field =
      (s.lookup entity field).map change :=
  lookup_mapFields fun _ => Keyed.find?_splice_singleton change hchange

/-- The same field, replaced by changes that commute. -/
theorem spliceField_singleton_comm {change change' : Field → Field}
    (hchange : ∀ f, (change f).name = f.name) (hchange' : ∀ f, (change' f).name = f.name)
    (hcomm : ∀ f, change (change' f) = change' (change f)) :
    ((s.spliceField entity field fun f => [change' f]).spliceField entity field fun f => [change f]) =
      (s.spliceField entity field fun f => [change f]).spliceField entity field fun f => [change' f] := by
  rw [spliceField, spliceField, spliceField, spliceField, mapFields_mapFields, mapFields_mapFields]
  refine mapFields_congr fun e _ => ?_
  rw [splice_splice change' hchange', splice_splice change hchange]
  exact splice_congr fun f _ => by rw [hcomm f]

end Schema

/-! ## Commuting -/

namespace Edit

/-- In either order, two edits lead to the same schema, and each has the same answer. -/
structure Commute (s : Schema) (a b : Edit) : Prop where
  schema : b.run (a.run s) = a.run (b.run s)
  first : a.answer (b.run s) = a.answer s
  second : b.answer (a.run s) = b.answer s

/-- Edits of different fields, of one entity or of two, and of the two flags of a field. -/
inductive Independent : Edit → Edit → Prop
  | apart (c c' : FieldEdit) {entity field entity' field' : String} :
      (entity, field) ≠ (entity', field') → Independent (c.on entity field) (c'.on entity' field')
  | flags (entity field : String) (required unique : Bool) :
      Independent (.setRequired entity field required) (.setUnique entity field unique)

/-- **Different fields.**  Edits of different fields commute. -/
theorem commute_on (s : Schema) (c c' : FieldEdit) {entity field entity' field' : String}
    (hne : (entity, field) ≠ (entity', field')) :
    Commute s (c.on entity field) (c'.on entity' field') := by
  have hc := c.keepsName_result
  have hc' := c'.keepsName_result
  refine ⟨?_, ?_, ?_⟩
  · simp only [FieldEdit.run_on]
    exact (Schema.spliceField_comm hne hc hc').symm
  · rw [FieldEdit.answer_on, FieldEdit.answer_on, FieldEdit.run_on,
      Schema.lookup_spliceField_of_ne hne hc']
  · rw [FieldEdit.answer_on, FieldEdit.answer_on, FieldEdit.run_on,
      Schema.lookup_spliceField_of_ne (Ne.symm hne) hc]

/-- Setting a flag is answered alike before and after the field has been replaced. -/
theorem ofExcept_flagged_lookup (s : Schema) (entity field : String) (change : Field → Field)
    (hchange : ∀ f, (change f).name = f.name) :
    Answer.ofExcept (fun _ => .flagged)
        ((s.spliceField entity field fun f => [change f]).lookup entity field) =
      Answer.ofExcept (fun _ => .flagged) (s.lookup entity field) := by
  rw [Schema.lookup_spliceField_singleton hchange]
  cases s.lookup entity field <;> rfl

/-- **Flags.**  Edits of the two flags of a field commute. -/
theorem commute_flags (s : Schema) (entity field : String) (required unique : Bool) :
    Commute s (.setRequired entity field required) (.setUnique entity field unique) := by
  have hrun := fun s => FieldEdit.run_on s (.setRequired required) entity field
  have hrun' := fun s => FieldEdit.run_on s (.setUnique unique) entity field
  have hanswer := fun s => FieldEdit.answer_on s (.setRequired required) entity field
  have hanswer' := fun s => FieldEdit.answer_on s (.setUnique unique) entity field
  simp only [FieldEdit.on, FieldEdit.respond] at hrun hrun' hanswer hanswer'
  refine ⟨?_, ?_, ?_⟩
  · rw [hrun, hrun', hrun', hrun]
    exact Schema.spliceField_singleton_comm (fun _ => rfl) (fun _ => rfl) fun _ => rfl
  · rw [hanswer, hanswer, hrun']
    exact ofExcept_flagged_lookup s entity field (fun f => { f with unique }) fun _ => rfl
  · rw [hanswer', hanswer', hrun]
    exact ofExcept_flagged_lookup s entity field (fun f => { f with required }) fun _ => rfl

/-- **Independent edits.**  They commute: the schema is the same in either order, and so is the answer of each,
whether it succeeds or fails. -/
theorem Independent.commute {a b : Edit} (h : Independent a b) (s : Schema) : Commute s a b := by
  cases h with
  | apart c c' hne => exact commute_on s c c' hne
  | flags entity field required unique => exact commute_flags s entity field required unique

/-- The first of two titles is removed, before or after the field behind it has become a relation. -/
theorem Independent.commute_pages :
    let s : Schema :=
      ⟨[⟨"pages", [.fresh "title" .string, .fresh "author" .component, .fresh "title" .richText]⟩]⟩
    let a := Edit.removeField "pages" "title"
    let b := Edit.changeType "pages" "author" .relation
    Independent a b ∧ Commute s a b ∧
      a.run (b.run s) = ⟨[⟨"pages", [.ofRelation "author", .fresh "title" .richText]⟩]⟩ := by
  intro s a b
  have hindependent : Independent a b := .apart .remove (.changeType .relation) (by decide)
  exact ⟨hindependent, hindependent.commute s, rfl⟩

end Edit

end ContentModel
