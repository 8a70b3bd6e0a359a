import ContentModel.Proofs.Payload.Media
import ContentModel.Proofs.Schema.Names

/-
# Revising payloads after changes of types

A revision mends the payloads of an earlier compilation: data are built anew, the files of the changed
field are dropped, and only records without a payload are compiled again.  The result is the same as
that of compiling everything anew, after any number of changes.

Main statements: `reviseRecord_compileRecord` (one record), `reviseTypeChange_compile` (one change of a
schema), `fetched_reviseTypeChange` (what a revision fetches) and `compile_eq_of_revised` (any run of
changes).
-/

namespace ContentModel

/-! ## One record -/

/-- An attachment is named for the field whose asset it is. -/
theorem field_of_attachField {fetch : Fetcher} {settings : CompileSettings} {record : Record}
    {f : Field} {a : Attachment} (h : attachField fetch settings record f = .ok a) :
    a.field = f.name := by
  rw [attachField, checkField, checkMedia] at h
  cases hasset : Recognition.MediaAsset.ofValue ((record.value? f.name).getD .null) with
  | error reason =>
    rw [hasset] at h
    cases h
  | ok asset =>
    rw [hasset] at h
    have h : attach fetch settings.assetBaseUrl f.name asset = .ok a := h
    cases hfetch : fetch (resolveAssetUrl settings.assetBaseUrl asset.url) with
    | error error => simp [attach, hfetch] at h
    | ok got =>
      simp only [attach, hfetch, Except.ok.injEq] at h
      rw [← h]

section Record

variable (fetch : Fetcher) (settings : CompileSettings) {e : EntitySchema} (he : e.DistinctNames)
  (field : String)

include he

/-- The media fields of a record after a field has become a relation are the others. -/
theorem mediaFields_setField_ofRelation (reserved : Reserved) (record : Record) :
    (e.setField field (Field.ofRelation field)).mediaFields reserved record =
      (e.mediaFields reserved record).filter fun f => f.name ≠ field := by
  rw [EntitySchema.mediaFields, EntitySchema.mediaFields, e.fields_setField_ofRelation he,
    List.filter_filter]
  induction e.fields with
  | nil => rfl
  | cons f fields ih =>
    rw [List.map_cons, List.filter_cons, List.filter_cons, ih]
    by_cases hf : f.name = field
    · simp [hf, Field.ofRelation]
    · simp [hf]

/-- **One record.**  Revising what a record was compiled to gives what it is compiled to after the
change. -/
theorem reviseRecord_compileRecord {records : List Record} {record : Record} {index : Nat}
    (hrecord : records[index]? = some record) :
    (reviseRecord fetch settings
        (Partition.of settings.reserved (e.setField field (Field.ofRelation field))) field records
        ⟨index, (compileRecord fetch settings (Partition.of settings.reserved e) record).result⟩).result =
      ⟨index, (compileRecord fetch settings
        (Partition.of settings.reserved (e.setField field (Field.ofRelation field))) record).result⟩ := by
  rw [reviseRecord, hrecord]
  cases hcompiled : (compileRecord fetch settings (Partition.of settings.reserved e) record).result with
  | error error => rfl
  | ok payload =>
    -- The files were attached field by field, so dropping those of one field is leaving it out.
    have hfiles := (mapM_attachField_eq_ok_iff ..).mpr
      ((compileRecord_eq_ok_iff fetch settings e record payload).mp hcompiled).2
    have hkept := mapM_filter_eq_ok (p := fun f => decide (f.name ≠ field))
      (q := fun a => decide (a.field ≠ field))
      (fun f a ha => by rw [field_of_attachField ha]) hfiles
    rw [← mediaFields_setField_ofRelation he, mapM_attachField_eq_ok_iff] at hkept
    have hrevised := (compileRecord_eq_ok_iff fetch settings _ record
      ⟨compileData settings.reserved _ record, _⟩).mpr ⟨rfl, hkept⟩
    rw [hrevised]

end Record

/-! ## The records of an entity -/

/-- Applying a function to what a list was taken to index by index. -/
theorem map_mapIdx {α β γ : Type} (g : β → γ) (f : Nat → α → β) (xs : List α) :
    (xs.mapIdx f).map g = xs.mapIdx fun i x => g (f i x) := by
  apply List.ext_getElem?
  intro i
  simp [Function.comp_def]

section Entity

variable (fetch : Fetcher) (settings : CompileSettings)

/-- The records of a compiled entity, each at its index. -/
theorem compileEntity_result (e : EntitySchema) (records : List Record) :
    (compileEntity fetch settings e records).result =
      ⟨e.name, records.mapIdx fun index record =>
        ⟨index, (compileRecord fetch settings (Partition.of settings.reserved e) record).result⟩⟩ := by
  simp only [compileEntity, Traced.map, Traced.sequence, map_mapIdx]
  rfl

/-- Revising the compiled records of an entity compiles them as after the change. -/
theorem revise_compileEntity {e : EntitySchema} (he : e.DistinctNames) (field : String)
    (records : List Record) :
    EntityPayloads.mk (compileEntity fetch settings e records).result.entity
        (Traced.sequence ((compileEntity fetch settings e records).result.records.map
          (reviseRecord fetch settings
            (Partition.of settings.reserved (e.setField field (Field.ofRelation field))) field
            records))).result =
      (compileEntity fetch settings (e.setField field (Field.ofRelation field)) records).result := by
  rw [compileEntity_result, compileEntity_result]
  congr 1
  simp only [Traced.sequence, map_mapIdx]
  rw [List.mapIdx_eq_mapIdx_iff]
  intro index hindex
  exact reviseRecord_compileRecord fetch settings he field (List.getElem?_eq_getElem hindex)

end Entity

/-! ## All entities -/

section Schema

variable (fetch : Fetcher) (settings : CompileSettings) (d : Dataset)

/-- An entity is compiled if the dataset has it. -/
theorem compileEntityOf_result (e : EntitySchema) :
    (compileEntityOf fetch settings d e).result =
      (d.records? e.name).map fun records => (compileEntity fetch settings e records).result := by
  rw [compileEntityOf]
  cases d.records? e.name <;> rfl

/-- The compiled entities of a schema, in order. -/
theorem compile_result (s : Schema) :
    (compile fetch settings s d).result =
      ⟨s.entities.filterMap fun e => (compileEntityOf fetch settings d e).result⟩ := by
  simp only [compile, Traced.addLog, Traced.map, Traced.sequence, List.map_map, List.filterMap_map]
  rfl

/-- A compiled entity has the name of its entity. -/
theorem entity_of_compileEntityOf {e : EntitySchema} {payloads : EntityPayloads}
    (h : (compileEntityOf fetch settings d e).result = some payloads) :
    payloads.entity = e.name := by
  rw [compileEntityOf_result] at h
  obtain ⟨records, -, rfl⟩ := Option.map_eq_some_iff.mp h
  rw [compileEntity_result]

section Replace

variable {s : Schema} {e e' : EntitySchema} {entity : String}

/-- Replacing an entity without records in the dataset changes nothing. -/
theorem compile_setEntity_of_none (hname' : e'.name = entity) (hrecords : d.records? entity = none) :
    (compile fetch settings (s.setEntity entity e') d).result =
      (compile fetch settings s d).result := by
  have hnone : ∀ x : EntitySchema, x.name = entity →
      (compileEntityOf fetch settings d x).result = none := by
    intro x hx
    rw [compileEntityOf_result, hx, hrecords, Option.map_none]
  rw [compile_result, compile_result, Schema.setEntity,
    filterMap_replaceFirst_of_none EntitySchema.name e' hnone (hnone e' hname')]

/-- An entity with records in the dataset is found among the payloads. -/
theorem entity?_compile_of_some {records : List Record} (he : s.entity? entity = some e)
    (hrecords : d.records? entity = some records) :
    (compile fetch settings s d).result.entity? entity =
      some (compileEntity fetch settings e records).result := by
  have hname := (Keyed.mem_and_name_of_find? he).2
  have hresult : (compileEntityOf fetch settings d e).result =
      some (compileEntity fetch settings e records).result := by
    rw [compileEntityOf_result, hname, hrecords, Option.map_some]
  rw [compile_result]
  exact Keyed.find?_filterMap EntitySchema.name
    (fun x y => entity_of_compileEntityOf fetch settings d) he hresult

/-- Replacing an entity with records in the dataset replaces its payloads. -/
theorem compile_setEntity_of_some {records : List Record} (hname' : e'.name = entity)
    (hrecords : d.records? entity = some records) :
    (compile fetch settings (s.setEntity entity e') d).result =
      ⟨replaceFirst (fun payloads => payloads.entity = entity)
        (compileEntity fetch settings e' records).result
        (compile fetch settings s d).result.entities⟩ := by
  have hsome : ∀ x : EntitySchema, x.name = entity →
      (compileEntityOf fetch settings d x).result =
        some (compileEntity fetch settings x records).result := by
    intro x hx
    rw [compileEntityOf_result, hx, hrecords, Option.map_some]
  have hdefined : ∀ x : EntitySchema, x.name = entity →
      (compileEntityOf fetch settings d x).result ≠ none := by
    intro x hx
    rw [hsome x hx]
    exact Option.some_ne_none _
  rw [compile_result, compile_result, Schema.setEntity,
    filterMap_replaceFirst EntitySchema.name e'
      (fun x y => entity_of_compileEntityOf fetch settings d) hdefined (hsome e' hname')]

end Replace

/-- **One change.**  Revising the compiled payloads of a schema after a change of a type gives the
compiled payloads of the changed schema. -/
theorem reviseTypeChange_compile {s s' : Schema} (hs : s.DistinctNames) {entity field : String}
    {target : FieldType} {change : TypeChange}
    (h : s.changeType entity field target = .ok (change, s')) :
    (reviseTypeChange fetch settings s' d change (compile fetch settings s d).result).result =
      (compile fetch settings s' d).result := by
  obtain ⟨-, e, f, he, -, rfl, rfl⟩ := Schema.changeType_eq_ok_iff.mp h
  obtain ⟨hmem, hname⟩ := Keyed.mem_and_name_of_find? he
  set e' := e.setField field (Field.ofRelation field)
  have hname' : e'.name = entity := hname
  have hentity : (s.setEntity entity e').entity? entity = some e' :=
    Keyed.find?_replaceFirst EntitySchema.name e' hname' he
  cases hrecords : d.records? entity with
  | none =>
    simp only [reviseTypeChange, hentity, hrecords]
    exact (compile_setEntity_of_none fetch settings d hname' hrecords).symm
  | some records =>
    have hpayloads := entity?_compile_of_some fetch settings d he hrecords
    have hrevised := revise_compileEntity fetch settings (hs.fields e hmem) field records
    simp only [reviseTypeChange, hentity, hrecords, hpayloads, Traced.map]
    rw [compile_setEntity_of_some fetch settings d hname' hrecords, ← hrevised]
    rfl

/-! ## What a revision fetches -/

/-- The addresses that a revision fetches for one compiled record: none if the record has a payload,
and otherwise those that compiling it again fetches. -/
def retried (s : Schema) (entity : String) (compiled : CompiledRecord) : List String :=
  match compiled.outcome, s.entity? entity, (d.records? entity).bind (·[compiled.index]?) with
  | .error _, some e, some record =>
    (compileRecord fetch settings (Partition.of settings.reserved e) record).fetched
  | _, _, _ => []

/-- **Fetches.**  A revision fetches for the records of the changed entity, one after the other, and
nothing for a record that has a payload. -/
theorem fetched_reviseTypeChange (s : Schema) (change : TypeChange) (c : CompiledPayloads) :
    (reviseTypeChange fetch settings s d change c).fetched =
      ((c.entity? change.entity).elim [] EntityPayloads.records).flatMap
        (retried fetch settings d s change.entity) := by
  rw [reviseTypeChange]
  cases he : s.entity? change.entity with
  | none =>
    simp [retried, he]
  | some e =>
    cases hrecords : d.records? change.entity with
    | none => simp [retried, he, hrecords]
    | some records =>
      cases c.entity? change.entity with
      | none => rfl
      | some payloads =>
        simp only [Traced.map, Traced.sequence, List.flatMap_map, Option.elim_some]
        congr 1
        funext compiled
        obtain ⟨index, outcome⟩ := compiled
        cases hrecord : records[index]? <;> cases outcome <;>
          simp [reviseRecord, retried, he, hrecords, hrecord, Traced.map]

end Schema

/-! ## Runs of changes -/

/-- The schemas and payloads reached from a compilation by changes of types that succeed, each
followed by a revision. -/
inductive Revised (fetch : Fetcher) (settings : CompileSettings) (d : Dataset) (s : Schema) :
    Schema → CompiledPayloads → Prop
  | compiled : Revised fetch settings d s s (compile fetch settings s d).result
  | changed {s' s'' : Schema} {c : CompiledPayloads} {entity field : String} {target : FieldType}
      {change : TypeChange} :
      Revised fetch settings d s s' c →
      s'.changeType entity field target = .ok (change, s'') →
      Revised fetch settings d s s'' (reviseTypeChange fetch settings s'' d change c).result

section Run

variable {fetch : Fetcher} {settings : CompileSettings} {d : Dataset} {s s' : Schema}
  {c : CompiledPayloads}

/-- Changes of types keep names distinct. -/
theorem Revised.distinctNames (hs : s.DistinctNames) (run : Revised fetch settings d s s' c) :
    s'.DistinctNames := by
  induction run with
  | compiled => exact hs
  | changed _ h ih => exact ih.changeType h

/-- **Any run of changes.**  After each change of a type, the revised payloads are those of compiling
the dataset anew under the schema as changed so far; and each revision fetches only for records that
had no payload. -/
theorem compile_eq_of_revised (hs : s.DistinctNames) (run : Revised fetch settings d s s' c) :
    c = (compile fetch settings s' d).result ∧
      ∀ (entity field : String) (target : FieldType) (change : TypeChange) (s'' : Schema),
        s'.changeType entity field target = .ok (change, s'') →
          (reviseTypeChange fetch settings s'' d change c).fetched =
            ((c.entity? entity).elim [] EntityPayloads.records).flatMap
              (retried fetch settings d s'' entity) := by
  constructor
  · induction run with
    | compiled => rfl
    | changed run h ih => rw [ih, reviseTypeChange_compile fetch settings d (run.distinctNames hs) h]
  · intro entity field target change s'' h
    obtain ⟨-, e, f, -, -, rfl, -⟩ := Schema.changeType_eq_ok_iff.mp h
    rw [fetched_reviseTypeChange]

end Run

/-- Posts with a title, a cover and an author. -/
def postsSchema : Schema :=
  ⟨[⟨"posts", [Field.fresh "title" .string, Field.fresh "cover" .media,
    Field.fresh "author" .component]⟩]⟩

/-- Two posts, the second of which has a cover that is no asset. -/
def postsDataset : Dataset :=
  ⟨[("posts", [
    [("title", .string "Hello"), ("cover", .null), ("author", .object [("title", .string "Dr")])],
    [("title", .string "World"), ("cover", .object [("id", .string "1")])]])]⟩

/-- No asset can be fetched. -/
def nowhere : Fetcher :=
  fun url => .error (.connection url)

/-- The posts after their cover and their author have become relations: the second post, which had
no payload at first, has one like that of a fresh compilation. -/
theorem compile_eq_of_revised_posts :
    let relations : Schema :=
      ⟨[⟨"posts", [Field.fresh "title" .string, Field.ofRelation "cover",
        Field.ofRelation "author"]⟩]⟩
    let coverOnly : Schema :=
      ⟨[⟨"posts", [Field.fresh "title" .string, Field.ofRelation "cover",
        Field.fresh "author" .component]⟩]⟩
    let first := compile nowhere .standard postsSchema postsDataset
    let second := reviseTypeChange nowhere .standard coverOnly postsDataset
      ⟨"posts", Field.fresh "cover" .media, Field.ofRelation "cover"⟩ first.result
    let third := reviseTypeChange nowhere .standard relations postsDataset
      ⟨"posts", Field.fresh "author" .component, Field.ofRelation "author"⟩ second.result
    postsSchema.DistinctNames ∧ first.result.failures.length = 1 ∧
      Revised nowhere .standard postsDataset postsSchema relations third.result ∧
      third.result = (compile nowhere .standard relations postsDataset).result := by
  intro relations coverOnly first second third
  have hs : postsSchema.DistinctNames := by decide
  have hcover : postsSchema.changeType "posts" "cover" .relation =
      .ok (⟨"posts", Field.fresh "cover" .media, Field.ofRelation "cover"⟩, coverOnly) := by decide
  have hauthor : coverOnly.changeType "posts" "author" .relation =
      .ok (⟨"posts", Field.fresh "author" .component, Field.ofRelation "author"⟩, relations) := by
    decide
  have run : Revised nowhere .standard postsDataset postsSchema relations third.result :=
    .changed (.changed .compiled hcover) hauthor
  exact ⟨hs, by decide, run, (compile_eq_of_revised hs run).1⟩

end ContentModel
