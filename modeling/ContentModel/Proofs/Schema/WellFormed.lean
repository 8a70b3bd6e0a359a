import ContentModel.Proofs.Schema.Components
import ContentModel.Proofs.Schema.Edits

/-
# Schemas over a session of edits

A session starts from an inferred schema, edits it, and inserts entities.  Names in the schema stay
distinct, and sub-fields stay what discovery makes of them: only components have sub-fields, and these
are of one level and of no reserved name.  An edit can only lose sub-fields: it keeps those of a field
whose flags it sets, and a relation that it puts in the place of a component has none.

Main statements: `Schema.wellFormed_infer` (the start), `SessionStep.wellFormed_run` (one step) and
`wellFormed_session`.
-/

namespace ContentModel

/-! ## Well-formed schemas -/

/-- A field has sub-fields only if it is a component.  They have distinct names, none of them reserved,
and no sub-fields of their own. -/
structure Field.WellFormed (reserved : Reserved) (f : Field) : Prop where
  component : f.subFields ≠ [] → f.type = .component
  distinct : (f.subFields.map Field.name).Nodup
  free : ∀ g ∈ f.subFields, g.name ∉ reserved.subFields
  flat : ∀ g ∈ f.subFields, g.subFields = []

/-- The fields of an entity have distinct names and are well-formed. -/
structure EntitySchema.WellFormed (reserved : Reserved) (e : EntitySchema) : Prop where
  distinct : e.DistinctNames
  fields : ∀ f ∈ e.fields, f.WellFormed reserved

/-- The entities of a schema have distinct names and are well-formed. -/
structure Schema.WellFormed (reserved : Reserved) (s : Schema) : Prop where
  distinct : (s.entities.map EntitySchema.name).Nodup
  entities : ∀ e ∈ s.entities, e.WellFormed reserved

instance (reserved : Reserved) (f : Field) : Decidable (f.WellFormed reserved) :=
  decidable_of_iff
    ((f.subFields ≠ [] → f.type = .component) ∧ (f.subFields.map Field.name).Nodup ∧
      (∀ g ∈ f.subFields, g.name ∉ reserved.subFields) ∧ ∀ g ∈ f.subFields, g.subFields = [])
    ⟨fun h => ⟨h.1, h.2.1, h.2.2.1, h.2.2.2⟩, fun h => ⟨h.component, h.distinct, h.free, h.flat⟩⟩

instance (reserved : Reserved) (e : EntitySchema) : Decidable (e.WellFormed reserved) :=
  decidable_of_iff (e.DistinctNames ∧ ∀ f ∈ e.fields, f.WellFormed reserved)
    ⟨fun h => ⟨h.1, h.2⟩, fun h => ⟨h.distinct, h.fields⟩⟩

/-! ## Inferred schemas -/

section Inferred

variable {reserved : Reserved}

/-- A key of components that was discovered is not reserved. -/
theorem notMem_subFields_of_mem_componentKeys {components : List Record} {key : String}
    (h : key ∈ componentKeys reserved components) : key ∉ reserved.subFields := by
  obtain ⟨c, -, hkey⟩ := List.mem_flatMap.mp h
  simpa [Reserved.hasSubField] using (List.mem_filter.mp hkey).2

/-- A field that describes the components in records is well-formed. -/
theorem Field.DescribesComponents.wellFormed {f : Field} {records : List Record}
    (h : f.DescribesComponents reserved records) : f.WellFormed reserved := by
  have hflat : ∀ g ∈ f.subFields, g.subFields = [] := fun g hg => (h.subFields g hg).2
  by_cases htype : f.type = .component
  · have hnames := h.names htype
    refine ⟨fun _ => htype, hnames.nodup, fun g hg => ?_, hflat⟩
    exact notMem_subFields_of_mem_componentKeys
      ((hnames.mem_iff g.name).mp (List.mem_map_of_mem hg))
  · have hnone : f.subFields = [] := h.of_ne htype
    exact ⟨fun hsome => absurd hnone hsome, by simp [hnone], by simp [hnone], hflat⟩

/-- Inferred entities are well-formed. -/
theorem EntitySchema.wellFormed_infer (settings : InferenceSettings) (name : String)
    (records : List Record) : (infer settings name records).WellFormed settings.reserved :=
  ⟨distinctNames_infer settings name records,
    fun _ hf => (describesComponents_infer settings name records hf).wellFormed⟩

end Inferred

/-! ## One step -/

/-- What can be done to a schema in a session.  The fields of an inserted entity are well-formed. -/
inductive SessionStep (reserved : Reserved) where
  | edit (change : Edit)
  | insert (e : EntitySchema) (wellFormed : e.WellFormed reserved)

/-- The schema after a step, which is as it was if the step is an edit that fails. -/
def SessionStep.run {reserved : Reserved} (s : Schema) : SessionStep reserved → Schema
  | .edit change => change.run s
  | .insert e _ => s.insertEntity e

section Steps

variable {reserved : Reserved}

/-- A field of a well-formed entity stays well-formed when an edit puts another in its place. -/
theorem Field.WellFormed.edited {f g : Field} (hf : f.WellFormed reserved) (h : f.Edited g) :
    g.WellFormed reserved := by
  cases h with
  | flags required unique => exact ⟨hf.component, hf.distinct, hf.free, hf.flat⟩
  | relation =>
    -- Nothing is left of the sub-fields, so the type may be another one.
    exact ⟨fun hsome => absurd rfl hsome, List.nodup_nil, List.forall_mem_nil _, List.forall_mem_nil _⟩

/-- An entity stays well-formed when its fields are edited. -/
theorem EntitySchema.WellFormed.edited {e e' : EntitySchema} (he : e.WellFormed reserved)
    (h : FieldsEdited e.fields e'.fields) : e'.WellFormed reserved := by
  refine ⟨h.nodup he.distinct, fun g hg => ?_⟩
  obtain ⟨f, hf, rfl | hedited⟩ := h.exists_of_mem hg
  · exact he.fields g hf
  · exact (he.fields f hf).edited hedited

namespace Schema.WellFormed

variable {s : Schema}

/-- A schema stays well-formed when a well-formed entity is inserted. -/
theorem insertEntity (hs : s.WellFormed reserved) {e : EntitySchema} (he : e.WellFormed reserved) :
    (s.insertEntity e).WellFormed reserved := by
  refine ⟨Keyed.nodup_map_upsert hs.distinct, fun e' he' => ?_⟩
  rcases Keyed.mem_upsert he' with rfl | he'
  · exact he
  · exact hs.entities e' he'

/-- A schema stays well-formed when it is edited, and when the edit fails. -/
theorem run (hs : s.WellFormed reserved) (edit : Edit) : (edit.run s).WellFormed reserved := by
  rcases Edit.run_cases s edit with hsame | hedited
  · rw [hsame]
    exact hs
  · obtain ⟨hnames, hentities⟩ := entities_of_editedAt hedited
    refine ⟨hnames ▸ hs.distinct, fun e' he' => ?_⟩
    rcases hentities e' he' with he | ⟨e, he, hfields⟩
    · exact hs.entities e' he
    · exact (hs.entities e he).edited hfields

end Schema.WellFormed

/-- **One step.**  A schema stays well-formed. -/
theorem SessionStep.wellFormed_run {s : Schema} (hs : s.WellFormed reserved) :
    ∀ step : SessionStep reserved, (step.run s).WellFormed reserved
  | .edit change => hs.run change
  | .insert _ he => hs.insertEntity he

/-- Several steps keep a schema well-formed. -/
theorem SessionStep.wellFormed_foldl_run {s : Schema} (hs : s.WellFormed reserved)
    (steps : List (SessionStep reserved)) : (steps.foldl run s).WellFormed reserved := by
  induction steps generalizing s with
  | nil => exact hs
  | cons step steps ih => exact ih (wellFormed_run hs step)

end Steps

/-! ## Sessions -/

/-- **The start.**  The schema of a dataset is well-formed, also where entities share a name: inference
inserts them one after the other. -/
theorem Schema.wellFormed_infer (settings : InferenceSettings) (d : Dataset) :
    (infer settings d).WellFormed settings.reserved := by
  -- Inference is a session of its own, in which entities are inserted only.
  have hfold : infer settings d =
      (d.entities.map fun entity => SessionStep.insert (EntitySchema.infer settings entity.1 entity.2)
        (EntitySchema.wellFormed_infer settings entity.1 entity.2)).foldl SessionStep.run empty := by
    rw [List.foldl_map]
    rfl
  rw [hfold]
  exact SessionStep.wellFormed_foldl_run (s := empty) ⟨List.nodup_nil, List.forall_mem_nil _⟩ _

/-- **Sessions.**  After any steps from the schema of a dataset, edits that fail among them, names of
entities are distinct and so are names of fields within each entity; only components have sub-fields,
and these have distinct names, none of them reserved, and no sub-fields of their own. -/
theorem wellFormed_session (settings : InferenceSettings) (d : Dataset)
    (steps : List (SessionStep settings.reserved)) :
    (steps.foldl SessionStep.run (Schema.infer settings d)).WellFormed settings.reserved :=
  SessionStep.wellFormed_foldl_run (Schema.wellFormed_infer settings d) steps

/-- A field that is not there is not made required, an author becomes a relation without sub-fields, and
shelves come in with a sub-field. -/
example :
    let shelves : EntitySchema :=
      ⟨"shelves", [⟨"size", .component, true, false, [.fresh "width" .number]⟩]⟩
    let steps : List (SessionStep Reserved.standard) :=
      [.edit (.setRequired "books" "title" true), .edit (.changeType "books" "author" .relation),
        .insert shelves (by decide)]
    steps.foldl SessionStep.run
        (Schema.infer .standard
          ⟨[("books", [[("author", .object [("id", .string "a"), ("name", .string "Ann")])]])]⟩) =
      ⟨[⟨"books", [.ofRelation "author"]⟩, shelves]⟩ := by
  decide +kernel

end ContentModel
