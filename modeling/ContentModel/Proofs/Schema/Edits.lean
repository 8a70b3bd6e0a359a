import Mathlib.Data.List.Perm.Basic
import ContentModel.Proofs.Schema.Names

/-
# Edits of a schema, one after the other

An edit replaces the first entity of a name by one whose fields it has edited, or it leaves the schema
as it was.  The fields of an entity lose one, have one replaced in place, or have one moved.

Main statements: `Edit.run_cases` (all that an edit can do), `Schema.DistinctNames.foldl_run` (a run
of edits keeps names distinct) and `Schema.exists_media_of_foldl_run` (it makes no media fields).
-/

namespace ContentModel

/-! ## Edits as data -/

/-- An edit with its arguments. -/
inductive Edit where
  | removeField (entity field : String)
  | setRequired (entity field : String) (required : Bool)
  | setUnique (entity field : String) (unique : Bool)
  | reorder (entity : String) (source : Nat) (destination : Option Nat)
  | changeType (entity field : String) (target : FieldType)
  deriving DecidableEq, Repr

/-- The schema after an edit, which is as it was if the edit fails. -/
def Edit.run (s : Schema) : Edit → Schema
  | .removeField entity field => (s.removeField entity field).2
  | .setRequired entity field required => (s.setRequired entity field required).toOption.getD s
  | .setUnique entity field unique => (s.setUnique entity field unique).toOption.getD s
  | .reorder entity source destination =>
    ((s.reorder entity source destination).map Prod.snd).toOption.getD s
  | .changeType entity field target =>
    ((s.changeType entity field target).map Prod.snd).toOption.getD s

/-- What an edit of one field puts in its place: the field with other flags, or a relation. -/
inductive Field.Edited (f : Field) : Field → Prop
  | flags (required unique : Bool) : Edited f { f with required, unique }
  | relation : Edited f (.ofRelation f.name)

/-- What an edit does to the fields of an entity. -/
inductive FieldsEdited (fields : List Field) : List Field → Prop
  | removed (i : Nat) : FieldsEdited fields (fields.eraseIdx i)
  | replaced {name : String} {f new : Field} : fields.find? (fun f => f.name = name) = some f →
      f.Edited new → FieldsEdited fields (replaceFirst (fun f => f.name = name) new fields)
  | moved (source destination : Nat) : FieldsEdited fields (moveAt source destination fields)

/-! ## All that an edit can do -/

namespace Schema

/-- **Replacing a field.**  It succeeds exactly if the field is there. -/
theorem replaceField_eq_ok_iff {entity field : String} {change : Field → Field} {s s' : Schema}
    {f : Field} :
    s.replaceField entity field change = .ok (f, s') ↔
      ∃ e, s.entity? entity = some e ∧ e.field? field = some f ∧
        s' = s.setEntity entity (e.setField field (change f)) := by
  cases he : s.entity? entity with
  | none => simp [replaceField, needField, needEntity, he, bind, Except.bind]
  | some e =>
    cases hf : e.field? field with
    | none => simp [replaceField, needField, needEntity, he, hf, bind, Except.bind]
    | some g =>
      simp only [replaceField, needField, needEntity, he, hf, bind, Except.bind, Except.ok.injEq,
        Prod.mk.injEq, Option.some.injEq, exists_eq_left']
      constructor
      · rintro ⟨rfl, rfl⟩
        exact ⟨rfl, rfl⟩
      · rintro ⟨rfl, rfl⟩
        exact ⟨rfl, rfl⟩

end Schema

namespace Edit

/-- The schema has been edited in the first entity of a name. -/
def EditedAt (s s' : Schema) : Prop :=
  ∃ e fields, s.entity? e.name = some e ∧ FieldsEdited e.fields fields ∧
    s' = s.setEntity e.name { e with fields }

/-- Replacing a field by an edited one edits the schema or leaves it. -/
theorem editedAt_of_replaceField {s s' : Schema} {entity field : String} {change : Field → Field}
    {f : Field} (h : s.replaceField entity field change = .ok (f, s'))
    (hchange : ∀ f : Field, f.name = field → f.Edited (change f)) : EditedAt s s' := by
  obtain ⟨e, he, hf, rfl⟩ := Schema.replaceField_eq_ok_iff.mp h
  obtain ⟨-, rfl⟩ := Keyed.mem_and_name_of_find? he
  have hname : f.name = field := by simpa using List.find?_some hf
  exact ⟨e, _, he, .replaced hf (hchange f hname), rfl⟩

/-- **One edit.**  It leaves the schema, or it edits the fields of the first entity of a name. -/
theorem run_cases (s : Schema) (edit : Edit) : edit.run s = s ∨ EditedAt s (edit.run s) := by
  cases edit with
  | removeField entity field =>
    rw [run, Schema.removeField]
    cases he : s.entity? entity with
    | none => exact Or.inl rfl
    | some e =>
      obtain ⟨-, rfl⟩ := Keyed.mem_and_name_of_find? he
      dsimp only
      cases e.position? field with
      | none => exact Or.inl rfl
      | some i => exact Or.inr ⟨e, _, he, .removed i, rfl⟩
  | setRequired entity field required =>
    rw [run, Schema.setRequired]
    cases h : s.replaceField entity field fun f => { f with required } with
    | error error => exact Or.inl rfl
    | ok result => exact Or.inr (editedAt_of_replaceField h fun f _ => .flags required f.unique)
  | setUnique entity field unique =>
    rw [run, Schema.setUnique]
    cases h : s.replaceField entity field fun f => { f with unique } with
    | error error => exact Or.inl rfl
    | ok result => exact Or.inr (editedAt_of_replaceField h fun f _ => .flags f.required unique)
  | reorder entity source destination =>
    rw [run, Schema.reorder, Schema.needEntity]
    cases he : s.entity? entity with
    | none => exact Or.inl rfl
    | some e =>
      obtain ⟨-, rfl⟩ := Keyed.mem_and_name_of_find? he
      cases destination with
      | none => exact Or.inl rfl
      | some d =>
        by_cases hstay : source = d ∨ e.fields.length ≤ source ∨ e.fields.length ≤ d
        · left
          simp [bind, Except.bind, hstay, Except.map, Except.toOption]
        · right
          refine ⟨e, moveAt source d e.fields, he, .moved source d, ?_⟩
          simp [bind, Except.bind, hstay, Except.map, Except.toOption]
  | changeType entity field target =>
    rw [run, Schema.changeType]
    split
    · exact Or.inl rfl
    · cases h : s.replaceField entity field fun _ => Field.ofRelation field with
      | error error => exact Or.inl rfl
      | ok result =>
        refine Or.inr (editedAt_of_replaceField h fun f hf => ?_)
        rw [← hf]
        exact .relation

end Edit

/-! ## What edits keep -/

namespace FieldsEdited

/-- Each field of an edited entity is one of its fields before, or what an edit puts in its place. -/
theorem exists_of_mem {fields fields' : List Field} (h : FieldsEdited fields fields') {g : Field}
    (hg : g ∈ fields') : ∃ f ∈ fields, g = f ∨ f.Edited g := by
  cases h with
  | removed i => exact ⟨g, List.mem_of_mem_eraseIdx hg, Or.inl rfl⟩
  | replaced hf hnew =>
    rcases eq_or_mem_of_mem_replaceFirst hg with rfl | hg
    · exact ⟨_, List.mem_of_find?_eq_some hf, Or.inr hnew⟩
    · exact ⟨g, hg, Or.inl rfl⟩
  | moved source destination =>
    rw [moveAt] at hg
    split at hg
    · rename_i f hf
      rcases List.eq_or_mem_of_mem_insertIdx hg with rfl | hg
      · exact ⟨g, List.mem_of_getElem? hf, Or.inl rfl⟩
      · exact ⟨g, List.mem_of_mem_eraseIdx hg, Or.inl rfl⟩
    · exact ⟨g, hg, Or.inl rfl⟩

/-- The fields of an edited entity have distinct names if they had before. -/
theorem nodup {fields fields' : List Field} (h : FieldsEdited fields fields')
    (hnodup : (fields.map Field.name).Nodup) : (fields'.map Field.name).Nodup := by
  cases h with
  | removed i => exact hnodup.sublist ((List.eraseIdx_sublist fields i).map Field.name)
  | replaced hf hnew =>
    have hname : ∀ f new : Field, f.Edited new → new.name = f.name := by
      rintro f new (⟨⟩ | ⟨⟩) <;> rfl
    rw [map_replaceFirst Field.name _ ((hname _ _ hnew).trans (by simpa using List.find?_some hf))]
    exact hnodup
  | moved source destination =>
    rw [moveAt]
    split
    · rename_i f hf
      by_cases hd : destination ≤ (fields.eraseIdx source).length
      · obtain ⟨hsource, rfl⟩ := List.getElem?_eq_some_iff.mp hf
        have hperm := (List.perm_insertIdx fields[source] (fields.eraseIdx source) hd).trans
          (List.getElem_cons_eraseIdx_perm hsource)
        exact (hperm.map Field.name).nodup_iff.mpr hnodup
      · rw [List.insertIdx_of_length_lt (Nat.lt_of_not_le hd)]
        exact hnodup.sublist ((List.eraseIdx_sublist fields source).map Field.name)
    · exact hnodup

end FieldsEdited

namespace Schema

/-- Replacing an entity leaves what other names show. -/
theorem entity?_setEntity_of_ne {s : Schema} {e : EntitySchema} {entity n : String}
    (hname : e.name = entity) (hn : n ≠ entity) :
    (s.setEntity entity e).entity? n = s.entity? n :=
  Keyed.find?_replaceFirst_of_ne EntitySchema.name e hname hn s.entities

/-- After a change of a type, the entity is the one before with a relation in the place of the field. -/
theorem entity?_of_changeType {s s' : Schema} {entity field : String} {target : FieldType}
    {change : TypeChange} (h : s.changeType entity field target = .ok (change, s')) :
    ∃ e, s.entity? entity = some e ∧
      s'.entity? entity = some (e.setField field (Field.ofRelation field)) := by
  obtain ⟨-, e, f, he, -, -, rfl⟩ := changeType_eq_ok_iff.mp h
  exact ⟨e, he, Keyed.find?_replaceFirst EntitySchema.name (e.setField field _)
    (Keyed.mem_and_name_of_find? he).2 he⟩

/-- An edited schema has entities of the same names, and the fields of one of them are edited. -/
theorem entities_of_editedAt {s s' : Schema} (h : Edit.EditedAt s s') :
    s'.entities.map EntitySchema.name = s.entities.map EntitySchema.name ∧
      ∀ e' ∈ s'.entities, e' ∈ s.entities ∨ ∃ e ∈ s.entities, FieldsEdited e.fields e'.fields := by
  obtain ⟨e, fields, he, hedited, rfl⟩ := h
  refine ⟨map_replaceFirst EntitySchema.name { e with fields } rfl s.entities, fun e' he' => ?_⟩
  rcases eq_or_mem_of_mem_replaceFirst he' with rfl | he'
  · exact Or.inr ⟨e, (Keyed.mem_and_name_of_find? he).1, hedited⟩
  · exact Or.inl he'

/-- An edit keeps names distinct. -/
theorem DistinctNames.run {s : Schema} (hs : s.DistinctNames) (edit : Edit) :
    (edit.run s).DistinctNames := by
  rcases Edit.run_cases s edit with hsame | hedited
  · rw [hsame]
    exact hs
  · obtain ⟨hnames, hentities⟩ := entities_of_editedAt hedited
    refine ⟨hnames ▸ hs.entities, fun e' he' => ?_⟩
    rcases hentities e' he' with he | ⟨e, he, hfields⟩
    · exact hs.fields e' he
    · exact hfields.nodup (hs.fields e he)

/-- **Names.**  A run of edits keeps names distinct. -/
theorem DistinctNames.foldl_run {s : Schema} (hs : s.DistinctNames) (edits : List Edit) :
    (edits.foldl Edit.run s).DistinctNames := by
  induction edits generalizing s with
  | nil => exact hs
  | cons edit edits ih => exact ih (hs.run edit)

/-- Each media field of an entity is a media field of the other. -/
def MediaFrom (e e' : EntitySchema) : Prop :=
  ∀ f' ∈ e'.fields, f'.type = .media → ∃ f ∈ e.fields, f.name = f'.name ∧ f.type = .media

/-- An edit makes no media fields. -/
theorem exists_media_of_run {s : Schema} {edit : Edit} {n : String} {e' : EntitySchema}
    (h : (edit.run s).entity? n = some e') : ∃ e, s.entity? n = some e ∧ MediaFrom e e' := by
  have hself : ∀ e, MediaFrom e e := fun e f hf htype => ⟨f, hf, rfl, htype⟩
  rcases Edit.run_cases s edit with hsame | ⟨e, fields, he, hedited, hrun⟩
  · rw [hsame] at h
    exact ⟨e', h, hself e'⟩
  · rw [hrun] at h
    by_cases hn : n = e.name
    · subst hn
      have hnew : (s.setEntity e.name { e with fields }).entity? e.name = some { e with fields } :=
        Keyed.find?_replaceFirst EntitySchema.name { e with fields } rfl he
      rw [hnew, Option.some.injEq] at h
      subst h
      refine ⟨e, he, fun g hg htype => ?_⟩
      obtain ⟨f, hf, rfl | hfg⟩ := hedited.exists_of_mem hg
      · exact ⟨g, hf, rfl, htype⟩
      · cases hfg with
        | flags required unique => exact ⟨f, hf, rfl, htype⟩
        | relation => cases htype
    · rw [entity?_setEntity_of_ne (e := { e with fields }) rfl hn] at h
      exact ⟨e', h, hself e'⟩

/-- **Runs of edits.**  They make no media fields. -/
theorem exists_media_of_foldl_run {s : Schema} {edits : List Edit} {n : String} {e' : EntitySchema}
    (h : (edits.foldl Edit.run s).entity? n = some e') :
    ∃ e, s.entity? n = some e ∧ MediaFrom e e' := by
  induction edits generalizing s with
  | nil => exact ⟨e', h, fun f hf htype => ⟨f, hf, rfl, htype⟩⟩
  | cons edit edits ih =>
    obtain ⟨e, he, hmedia⟩ := ih h
    obtain ⟨e₀, he₀, hmedia₀⟩ := exists_media_of_run he
    refine ⟨e₀, he₀, fun f' hf' htype' => ?_⟩
    obtain ⟨f, hf, hname, htype⟩ := hmedia f' hf' htype'
    obtain ⟨f₀, hf₀, hname₀, htype₀⟩ := hmedia₀ f hf htype
    exact ⟨f₀, hf₀, hname₀.trans hname, htype₀⟩

end Schema

end ContentModel
