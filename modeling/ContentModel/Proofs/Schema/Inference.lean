import Mathlib.Data.List.Forall2
import ContentModel.Proofs.Dataset
import ContentModel.Proofs.Records
import ContentModel.Proofs.Schema.Names
import ContentModel.Proofs.Schema.Observation

/-
# What an inferred schema says

The fold over records has a closed form.  A field is required if every record has a value for it; its
type is that of the first value, unless some value is text with markup.  What the field was before
decides only how an object without identifier is classified, which no longer matters then.

Main statement: `Schema.infer_describes`.
-/

namespace ContentModel

open Recognition

/-! ## The type of several values -/

namespace Recognition

/-- The type of a field with the given values, none of them null. -/
def typeOfValues (values : List Json.Value) : FieldType :=
  match values with
  | [] => .nullish
  | v :: _ => if ∃ w ∈ values, classify w = .richText then .richText else classify v

/-- What the field was before has no say in whether a value is text with markup. -/
theorem classifyGiven_eq_richText_iff (previous : Option FieldType) (v : Json.Value) :
    classifyGiven previous v = .richText ↔ classify v = .richText := by
  cases v with
  | object members =>
    have hne : ∀ p, classifyGiven p (.object members) ≠ .richText := by
      intro p
      rw [classifyGiven]
      split
      · exact nofun
      · split <;> exact nofun
    exact ⟨fun h => absurd h (hne _), fun h => absurd h (hne _)⟩
  | null => exact Iff.rfl
  | bool b => exact Iff.rfl
  | number n => exact Iff.rfl
  | string s => exact Iff.rfl
  | array items => exact Iff.rfl

/-- Only a field of components classifies values in another way. -/
theorem classifyGiven_of_ne {previous : FieldType} (h : previous ≠ .component) (v : Json.Value) :
    classifyGiven (some previous) v = classify v := by
  cases v with
  | object members => simp [classify, classifyGiven, h]
  | null => rfl
  | bool b => rfl
  | number n => rfl
  | string s => rfl
  | array items => rfl

/-- Nothing but `null` has the type of no value. -/
theorem classify_ne_nullish {v : Json.Value} (h : v ≠ .null) : classify v ≠ .nullish := by
  cases v with
  | null => exact absurd rfl h
  | bool b => exact nofun
  | number n => exact nofun
  | array items => exact nofun
  | string s =>
    rw [classify, classifyGiven]
    split
    · exact nofun
    · split <;> exact nofun
  | object members =>
    rw [classify, classifyGiven]
    split
    · exact nofun
    · split <;> exact nofun

/-- A type, once there is one, yields to text with markup only. -/
theorem mergeType_of_ne_nullish {existing : FieldType} (h : existing ≠ .nullish)
    (observed : FieldType) :
    mergeType existing observed = if observed = .richText then .richText else existing := by
  unfold mergeType
  by_cases hobserved : observed = .richText
  · rw [if_pos hobserved]
    by_cases heq : existing = observed
    · rw [if_pos heq, heq, hobserved]
    · rw [if_neg heq, if_pos (Or.inr hobserved)]
  · rw [if_neg hobserved]
    by_cases heq : existing = observed
    · rw [if_pos heq]
    · rw [if_neg heq]
      by_cases hexisting : existing = .richText
      · rw [if_pos (Or.inl hexisting), hexisting]
      · rw [if_neg (by simp [hexisting, hobserved]), if_neg h]

/-- **One more value.**  The type of some values and one more is that of the values merged with that
of the last one, as the fold classifies it. -/
theorem typeOfValues_concat {vs : List Json.Value} (hvs : ∀ u ∈ vs, u ≠ .null) (v : Json.Value) :
    typeOfValues (vs ++ [v]) =
      mergeType (typeOfValues vs) (classifyGiven (some (typeOfValues vs)) v) := by
  cases vs with
  | nil =>
    have hne : FieldType.nullish ≠ .component := nofun
    rw [typeOfValues, classifyGiven_of_ne hne]
    by_cases hrich : classify v = .richText
    · simp [typeOfValues, mergeType, hrich]
    · by_cases hnull : classify v = .nullish
      · simp [typeOfValues, mergeType, hnull]
      · simp [typeOfValues, mergeType, hrich, Ne.symm hnull]
  | cons u us =>
    -- The type is not that of no value any more, so it yields to text with markup only.
    have hu : classify u ≠ .nullish := classify_ne_nullish (hvs u List.mem_cons_self)
    have htype : typeOfValues (u :: us) ≠ .nullish := by
      rw [typeOfValues]
      split
      · exact nofun
      · exact hu
    rw [mergeType_of_ne_nullish htype]
    simp only [classifyGiven_eq_richText_iff]
    by_cases hrich : classify v = .richText
    · rw [if_pos hrich, List.cons_append, typeOfValues]
      exact if_pos ⟨v, by simp, hrich⟩
    · have hsame : (∃ w ∈ u :: (us ++ [v]), classify w = .richText) ↔
          ∃ w ∈ u :: us, classify w = .richText := by
        simp [hrich]
      rw [if_neg hrich, List.cons_append, typeOfValues, typeOfValues]
      simp only [hsame]

end Recognition

/-! ## One field -/

/-- A descriptor says of records in which of them the field has a value, and which type it has. -/
structure Field.Describes (f : Field) (records : List Record) : Prop where
  required : f.required = true ↔ ∀ record ∈ records, record.value? f.name ≠ none
  type : f.type = typeOfValues (records.filterMap (Record.value? f.name))

namespace Field

variable {reserved : Reserved} {name : String} {records : List Record}

/-- The values of a field are not null. -/
theorem ne_null_of_mem_filterMap {v : Json.Value}
    (hv : v ∈ records.filterMap (Record.value? name)) : v ≠ .null := by
  obtain ⟨record, -, hvalue⟩ := List.mem_filterMap.mp hv
  exact (Record.value?_eq_some_iff.mp hvalue).2

/-- **First value.**  A descriptor made from a record describes it and the records before, if none of
those has a value and it says so. -/
theorem describes_of_first {f : Field} {record : Record}
    (hnone : ∀ earlier ∈ records, earlier.value? f.name = none)
    (htype : f.type = (record.value? f.name).elim .nullish classify)
    (hrequired : f.required = (records.isEmpty && (record.value? f.name).isSome)) :
    f.Describes (records ++ [record]) := by
  constructor
  · rw [hrequired, List.forall_mem_append, List.forall_mem_singleton, Bool.and_eq_true,
      List.isEmpty_iff, Option.isSome_iff_ne_none]
    refine and_congr_left fun _ => ?_
    constructor
    · rintro rfl earlier hearlier
      cases hearlier
    · intro hall
      by_contra hne
      obtain ⟨earlier, hearlier⟩ := List.exists_mem_of_ne_nil records hne
      exact hall earlier hearlier (hnone earlier hearlier)
  · have hearlier : records.filterMap (Record.value? f.name) = [] :=
      List.filterMap_eq_nil_iff.mpr hnone
    rw [htype, List.filterMap_append, hearlier, List.nil_append]
    cases hvalue : record.value? f.name with
    | none =>
      rw [List.filterMap_cons_none hvalue]
      rfl
    | some v =>
      rw [List.filterMap_cons_some hvalue, List.filterMap_nil, typeOfValues]
      by_cases hrich : classify v = .richText
      · simp [hrich]
      · simp [hrich]

/-- **Next value.**  A descriptor that merges a record into a description of the earlier ones describes
all of them. -/
theorem Describes.concat {f f' : Field} (hf : f.Describes records) {record : Record}
    (hname : f'.name = f.name) (htype : f'.type = f.typeAfter (Keyed.get? f.name record))
    (hrequired : f'.required = (f.required && (record.value? f.name).isSome)) :
    f'.Describes (records ++ [record]) := by
  constructor
  · rw [hname, hrequired, Bool.and_eq_true, hf.required, Option.isSome_iff_ne_none,
      List.forall_mem_append, List.forall_mem_singleton]
  · rw [hname, htype, typeAfter, ← Record.value?, List.filterMap_append]
    cases hvalue : record.value? f.name with
    | none =>
      rw [List.filterMap_cons_none hvalue, List.filterMap_nil, List.append_nil]
      exact hf.type
    | some v =>
      rw [List.filterMap_cons_some hvalue, List.filterMap_nil,
        typeOfValues_concat (fun u hu => ne_null_of_mem_filterMap hu), ← hf.type]
      rfl

/-- The descriptor after one record describes it. -/
theorem describes_observe_none (record : Record) (b : Notebook) :
    (observe reserved name none (Keyed.get? name record) b).1.Describes [record] := by
  obtain ⟨unique, subFields, heq⟩ := observe_none reserved name (Keyed.get? name record) b
  rw [heq, ← List.nil_append [record]]
  exact describes_of_first (fun _ h => absurd h List.not_mem_nil) rfl rfl

/-- An observation of a record takes a description of the earlier ones to a description of all. -/
theorem Describes.observe_some {f : Field} (hf : f.Describes records) (hname : f.name = name)
    (record : Record) (b : Notebook) :
    (observe reserved name (some f) (Keyed.get? name record) b).1.Describes
      (records ++ [record]) := by
  subst hname
  obtain ⟨unique, subFields, heq⟩ := Field.observe_some reserved f.name f (Keyed.get? f.name record) b
  rw [heq]
  exact hf.concat rfl rfl rfl

/-- **All records.**  Records leave a descriptor if there are any, and it describes them. -/
theorem exists_observeRecords (reserved : Reserved) (name : String) (h : records ≠ [])
    (b : Notebook) :
    ∃ f, (observeRecords reserved name records b).1 = some f ∧ f.name = name ∧
      f.Describes records := by
  -- Each prefix of the records leaves a descriptor that describes it.
  induction records using List.reverseRecOn with
  | nil => exact absurd rfl h
  | append_singleton records record ih =>
    rw [observeRecords_concat]
    by_cases hfirst : records = []
    · subst hfirst
      refine ⟨_, rfl, name_observe reserved ?_ _ b, describes_observe_none record b⟩
      intro g hg
      cases hg
    · obtain ⟨f, hf, hname, hdescribes⟩ := ih hfirst
      dsimp only
      rw [hf]
      refine ⟨_, rfl, name_observe reserved ?_ _ _, hdescribes.observe_some hname record _⟩
      intro g hg
      cases hg
      exact hname

end Field

/-! ## One entity -/

/-- A description of records has a field for each of their keys, in order of first appearance, and each
field describes them. -/
structure EntitySchema.Describes (e : EntitySchema) (records : List Record) : Prop where
  names : FirstAppearances e.fieldNames (records.flatMap fun record => record.map Prod.fst)
  fields : ∀ f ∈ e.fields, f.Describes records

namespace EntitySchema

/-- The fields of given names have these names, in this order. -/
theorem map_name_fieldsOf (reserved : Reserved) {records : List Record} (h : records ≠ [])
    (names : List String) (b : Notebook) :
    (fieldsOf reserved records names b).map Field.name = names := by
  induction names generalizing b with
  | nil => rfl
  | cons name names ih =>
    obtain ⟨f, hf, hname, -⟩ := Field.exists_observeRecords reserved name h b
    simp only [fieldsOf, hf]
    rw [Option.toList_some, List.singleton_append, List.map_cons, hname, ih]

/-- Each field describes the records over which it was observed. -/
theorem describes_of_mem_fieldsOf {reserved : Reserved} {records : List Record} (h : records ≠ [])
    {names : List String} {b : Notebook} {f : Field}
    (hf : f ∈ fieldsOf reserved records names b) : f.Describes records := by
  induction names generalizing b with
  | nil => cases hf
  | cons name names ih =>
    obtain ⟨g, hg, -, hdescribes⟩ := Field.exists_observeRecords reserved name h b
    simp only [fieldsOf, hg] at hf
    rcases List.mem_cons.mp hf with rfl | hf
    · exact hdescribes
    · exact ih hf

/-- **One entity.**  The inferred fields of an entity describe the records looked at. -/
theorem describes_infer (settings : InferenceSettings) (name : String) (records : List Record) :
    (infer settings name records).Describes (sample settings.sampleSize records) := by
  -- Without records there are no keys, and no field is observed.
  by_cases h : sample settings.sampleSize records = []
  · have hnone : (infer settings name records).fields = [] := by
      rw [infer, h]
      rfl
    constructor
    · rw [fieldNames, hnone, h]
      exact Keyed.firstAppearances_extend []
    · intro f hf
      rw [hnone] at hf
      cases hf
  · constructor
    · rw [fieldNames, infer, map_name_fieldsOf settings.reserved h]
      exact firstAppearances_keysOf _
    · intro f hf
      exact describes_of_mem_fieldsOf h hf

/-- The names of the fields of an inferred entity are distinct. -/
theorem distinctNames_infer (settings : InferenceSettings) (name : String)
    (records : List Record) : (infer settings name records).DistinctNames :=
  (describes_infer settings name records).names.nodup

end EntitySchema

/-! ## All entities -/

namespace Schema

/-- Entities inserted one after the other. -/
theorem foldl_insertEntity_empty (es : List EntitySchema) :
    es.foldl (fun s e => s.insertEntity e) empty = ⟨Keyed.ofPuts EntitySchema.name es⟩ :=
  List.foldl_hom Schema.mk fun _ _ => rfl

/-- Inference inserts the entities one after the other, each of them inferred by itself. -/
theorem infer_eq_ofPuts (settings : InferenceSettings) (d : Dataset) :
    infer settings d = ⟨Keyed.ofPuts EntitySchema.name
      (d.entities.map fun entity => EntitySchema.infer settings entity.1 entity.2)⟩ := by
  rw [← foldl_insertEntity_empty, List.foldl_map]
  rfl

/-- Each entity of a dataset is inferred by itself. -/
theorem entities_infer (settings : InferenceSettings) {d : Dataset} (h : d.DistinctNames) :
    (infer settings d).entities =
      d.entities.map fun entity => EntitySchema.infer settings entity.1 entity.2 := by
  rw [infer_eq_ofPuts]
  refine Keyed.ofPuts_of_nodup ?_
  rw [List.map_map]
  exact h

/-- Every entity of an inferred schema is inferred from records of the dataset. -/
theorem exists_of_mem_infer {settings : InferenceSettings} {d : Dataset} {e : EntitySchema}
    (h : e ∈ (infer settings d).entities) :
    ∃ name records, e = EntitySchema.infer settings name records := by
  rw [infer_eq_ofPuts] at h
  obtain ⟨entity, -, rfl⟩ := List.mem_map.mp (Keyed.mem_of_mem_ofPuts h)
  exact ⟨entity.1, entity.2, rfl⟩

/-- Inference looks at the sample of each entity only. -/
theorem infer_eq_foldl (settings : InferenceSettings) (d : Dataset) :
    infer settings d =
      (d.entities.map fun entity =>
        (entity.1, EntitySchema.sample settings.sampleSize entity.2)).foldl
        (fun s (name, records) => s.insertEntity
          ⟨name, EntitySchema.fieldsOf settings.reserved records (EntitySchema.keysOf records) .empty⟩)
        empty := by
  rw [List.foldl_map]
  rfl

/-- **Meaning.**  An inferred schema has one entity for each of the dataset, in the same order, and
each describes the first records of its entity, or all of them if the size of the sample is zero.
Nothing beyond these records matters. -/
theorem infer_describes (settings : InferenceSettings) {d : Dataset} (h : d.DistinctNames) :
    List.Forall₂
        (fun entity e => e.name = entity.1 ∧
          e.Describes (if settings.sampleSize = 0 then entity.2
            else entity.2.take settings.sampleSize))
        d.entities (infer settings d).entities ∧
      ∀ d' : Dataset,
        d'.entities.map (fun entity =>
            (entity.1, EntitySchema.sample settings.sampleSize entity.2)) =
          d.entities.map (fun entity =>
            (entity.1, EntitySchema.sample settings.sampleSize entity.2)) →
        infer settings d' = infer settings d := by
  constructor
  · rw [entities_infer settings h, List.forall₂_map_right_iff, List.forall₂_same]
    intro entity _
    exact ⟨rfl, EntitySchema.describes_infer settings entity.1 entity.2⟩
  · intro d' hsame
    rw [infer_eq_foldl settings d', infer_eq_foldl settings d, hsame]

end Schema

/-- Three articles, the third of which has a key of its own. -/
def articles : Dataset :=
  ⟨[("articles", [
    [("title", .string "Hello"), ("body", .null)],
    [("body", .string "<p>World</p>"), ("title", .number (.integer 1))],
    [("views", .number (.integer 3))]])]⟩

/-- The first two articles: a title, which both have and which was text at first, and a body, which one
of them has as text with markup. -/
theorem infer_describes_articles :
    articles.DistinctNames ∧
      (Schema.infer ⟨2, .standard⟩ articles).entities.flatMap EntitySchema.fields =
        [⟨"title", .string, true, true, []⟩, ⟨"body", .richText, false, true, []⟩] ∧
      List.Forall₂
        (fun entity e => e.name = entity.1 ∧ e.Describes (entity.2.take 2))
        articles.entities (Schema.infer ⟨2, .standard⟩ articles).entities :=
  ⟨by decide, by decide +kernel, (Schema.infer_describes ⟨2, .standard⟩ (by decide)).1⟩

end ContentModel
