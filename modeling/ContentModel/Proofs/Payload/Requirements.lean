import ContentModel.Proofs.Payload.Agreement
import ContentModel.Proofs.Schema.Inference

/-
# Required attributes and payloads

A field that is inferred as required has a value in every record, and its media are attached to every
payload.  Its texts and truth values are not all carried: the type of a field is that of its first value,
and a value of another kind is left out of the data.  So a key that the definition requires is missing
exactly from the payloads of records that hold a value of another kind, unless a component writes it.

Main statements: `carriesRequired_of_present` (one record) and `carriesRequired_compile`.
-/

namespace ContentModel

open Definition

/-! ## What one field writes -/

section Writes

variable {reserved : Reserved} {record : Record} {f : Field}

/-- A field of texts writes exactly the texts. -/
theorem Field.writes_ne_nil_iff_of_textual (htype : f.type.isTextual = true) :
    f.writes reserved record ≠ [] ↔ ∃ s, Keyed.get? f.name record = some (.string s) := by
  have hwrites : f.writes reserved record = (Write.plain? record f).toList := by
    cases ht : f.type <;> simp [ht, FieldType.isTextual] at htype <;> simp [writes, ht]
  rw [hwrites, Write.plain?]
  split <;> simp_all

/-- A field of truth values writes exactly the truth values. -/
theorem Field.writes_ne_nil_iff_of_boolean (htype : f.type = .boolean) :
    f.writes reserved record ≠ [] ↔ ∃ b, Keyed.get? f.name record = some (.bool b) := by
  simp only [writes, htype]
  rw [Write.boolean?]
  split <;> simp_all

end Writes

/-! ## Required attributes -/

/-- What a payload carries of the values that the definition of its entity requires: texts where the record
holds a text, truth values where it holds one, and every medium.  A component may write a key instead. -/
structure Payload.CarriesRequired (reserved : Reserved) (e : EntitySchema) (definition : Document)
    (record : Record) (p : Payload) : Prop where
  text : ∀ name, definition.Requires name "string" ∨ definition.Requires name "richtext" →
    (name ∈ p.data.map Prod.fst ↔
      (∃ s, Keyed.get? name record = some (.string s)) ∨ Exposes reserved e record name)
  truth : ∀ name, definition.Requires name "boolean" →
    (name ∈ p.data.map Prod.fst ↔
      (∃ b, Keyed.get? name record = some (.bool b)) ∨ Exposes reserved e record name)
  media : ∀ name, definition.Requires name "media" → ∃ a ∈ p.files, a.field = name
  present : ∀ name type, definition.Requires name type → record.value? name ≠ none

section Record

variable {fetch : Fetcher} {exporting : ExportSettings} {compiling : CompileSettings}
  {e : EntitySchema} {record : Record} {payload : Payload}

/-- The key of a field that is no component is there exactly if the field writes something, or a
component exposes it. -/
theorem mem_keys_of_compileRecord (he : e.DistinctNames)
    (hok : (compileRecord fetch compiling (Partition.of compiling.reserved e) record).result =
      .ok payload) {f : Field} (hf : f ∈ e.fields) (hr : f.name ∉ compiling.reserved.fields)
    (hne : f.type ≠ .component) :
    f.name ∈ payload.data.map Prod.fst ↔
      f.writes compiling.reserved record ≠ [] ∨ Exposes compiling.reserved e record f.name := by
  rw [((compileRecord_eq_ok_iff fetch compiling e record payload).mp hok).1, mem_keys_compileData]
  refine or_congr_left ?_
  constructor
  · rintro ⟨g, hg, hname, -, -, hwrites⟩
    rwa [← List.inj_on_of_nodup_map he hg hf hname]
  · exact fun hwrites => ⟨f, hf, rfl, hr, hne, hwrites⟩

/-- **One record.**  The payload of a record carries what the definition requires, if each required field
has a value in the record. -/
theorem carriesRequired_of_present (hreserved : exporting.reserved = compiling.reserved)
    (he : e.DistinctNames)
    (hpresent : ∀ f ∈ e.fields, f.required = true → record.value? f.name ≠ none)
    (hok : (compileRecord fetch compiling (Partition.of compiling.reserved e) record).result =
      .ok payload) :
    payload.CarriesRequired compiling.reserved e (entityDocument exporting e) record := by
  have hfield : ∀ name t, (entityDocument exporting e).Requires name (plainType t) →
      ∃ f ∈ e.fields, f.name = name ∧ f.type = t ∧ f.name ∉ compiling.reserved.fields ∧
        record.value? f.name ≠ none := by
    intro name t h
    obtain ⟨f, hf, hname, htype, -, hrequired⟩ :=
      (requires_entityDocument_iff exporting he name t).mp h
    obtain ⟨hf, -, hr⟩ := mem_exportedFields_iff.mp hf
    exact ⟨f, hf, hname, htype, hreserved ▸ hr, hpresent f hf hrequired⟩
  constructor
  · intro name h
    obtain ⟨f, hf, rfl, hr, htext, hne⟩ : ∃ f ∈ e.fields, f.name = name ∧
        f.name ∉ compiling.reserved.fields ∧ f.type.isTextual = true ∧ f.type ≠ .component := by
      rcases h with h | h
      · obtain ⟨f, hf, hname, htype, hr, -⟩ := hfield name .string h
        exact ⟨f, hf, hname, hr, by rw [htype]; rfl, by rw [htype]; exact nofun⟩
      · obtain ⟨f, hf, hname, htype, hr, -⟩ := hfield name .richText h
        exact ⟨f, hf, hname, hr, by rw [htype]; rfl, by rw [htype]; exact nofun⟩
    rw [mem_keys_of_compileRecord he hok hf hr hne, Field.writes_ne_nil_iff_of_textual htext]
  · intro name h
    obtain ⟨f, hf, rfl, htype, hr, -⟩ := hfield name .boolean h
    rw [mem_keys_of_compileRecord he hok hf hr (by rw [htype]; exact nofun),
      Field.writes_ne_nil_iff_of_boolean htype]
  · intro name h
    obtain ⟨f, hf, rfl, htype, hr, hvalue⟩ := hfield name .media h
    have hmedia : f.name ∈ e.mediaNames compiling.reserved record := by
      refine List.mem_map_of_mem (List.mem_filter.mpr ⟨hf, ?_⟩)
      simp [htype, hr, hvalue]
    rw [← attachedFor_of_compileRecord fetch compiling hok] at hmedia
    exact List.mem_map.mp hmedia
  · intro name type h
    obtain ⟨v, hattribute, -⟩ := Option.bind_eq_some_iff.mp h.1
    obtain ⟨f, hf, rfl, rfl⟩ :=
      (attribute?_entityDocument_eq_some_iff exporting he name v).mp hattribute
    have htype : type = plainType f.type := by
      have h := h.1
      rw [Document.HasType, hattribute, Option.bind_some, type_attributeOf] at h
      simpa using h.symm
    obtain ⟨g, -, hname, -, -, hvalue⟩ := hfield f.name f.type (htype ▸ h)
    exact hname ▸ hvalue

end Record

/-! ## Compiled datasets -/

/-- A payload of a compiled dataset is that of a record of an entity. -/
theorem exists_record_of_mem_compile {fetch : Fetcher} {settings : CompileSettings} {s : Schema}
    {d : Dataset} {compiled : EntityPayloads}
    (hcompiled : compiled ∈ (compile fetch settings s d).result.entities) {r : CompiledRecord}
    (hr : r ∈ compiled.records) :
    ∃ e ∈ s.entities, e.name = compiled.entity ∧ ∃ records record,
      d.records? compiled.entity = some records ∧ records[r.index]? = some record ∧
      r.outcome = (compileRecord fetch settings (Partition.of settings.reserved e) record).result := by
  rw [compile_result] at hcompiled
  obtain ⟨e, he, hsome⟩ := List.mem_filterMap.mp hcompiled
  rw [compileEntityOf_result] at hsome
  obtain ⟨records, hrecords, rfl⟩ := Option.map_eq_some_iff.mp hsome
  simp only [compileEntity_result] at hr ⊢
  obtain ⟨index, hindex, rfl⟩ := List.mem_mapIdx.mp hr
  exact ⟨e, he, rfl, records, records[index], hrecords, List.getElem?_eq_getElem hindex, rfl⟩

/-- **Required attributes.**  If a dataset is compiled against the schema inferred from all of it, and the
definitions are exported with the same reserved names, then each payload carries what the definition of
its entity requires: texts and truth values exactly where the record holds such a value or a component
writes the key, and media always. -/
theorem carriesRequired_compile (fetch : Fetcher) {exporting : ExportSettings}
    {compiling : CompileSettings} (hreserved : exporting.reserved = compiling.reserved)
    (r : Reserved) {d : Dataset} (hd : d.DistinctNames) :
    let s := Schema.infer ⟨0, r⟩ d
    ∀ compiled ∈ (compile fetch compiling s d).result.entities, ∀ c ∈ compiled.records,
      ∀ payload, c.outcome = .ok payload →
        ∃ e ∈ s.entities, e.name = compiled.entity ∧ ∃ records record,
          d.records? compiled.entity = some records ∧ records[c.index]? = some record ∧
          payload.CarriesRequired compiling.reserved e (entityDocument exporting e) record := by
  intro s compiled hcompiled c hc payload hok
  obtain ⟨e, he, hname, records, record, hrecords, hrecord, houtcome⟩ :=
    exists_record_of_mem_compile hcompiled hc
  refine ⟨e, he, hname, records, record, hrecords, hrecord, ?_⟩
  rw [Schema.entities_infer ⟨0, r⟩ hd] at he
  obtain ⟨⟨entity, records'⟩, hentity, rfl⟩ := List.mem_map.mp he
  -- The records compiled are those from which the entity was inferred.
  have hsame : records' = records := by
    have hget : d.records? entity = some records' := (Keyed.get?_eq_some_iff hd).mpr hentity
    rw [show compiled.entity = entity from hname.symm, hget] at hrecords
    exact Option.some.inj hrecords
  subst hsame
  have hdescribes := EntitySchema.describes_infer ⟨0, r⟩ entity records'
  refine carriesRequired_of_present hreserved (EntitySchema.distinctNames_infer _ _ _) ?_
    (houtcome.symm.trans hok)
  intro f hf hrequired
  exact (hdescribes.fields f hf).required.mp hrequired record (List.mem_of_getElem? hrecord)

/-- Two talks.  The second has a number for its title and a text for its flag. -/
def talks : Dataset :=
  ⟨[("talks", [
    [("title", .string "Lists"), ("pinned", .bool true), ("slides", assetAt "/a.pdf")],
    [("title", .number (.integer 7)), ("pinned", .string "no"), ("slides", assetAt "/b.pdf")]])]⟩

/-- The schema of all talks. -/
def talksSchema : Schema :=
  Schema.infer ⟨0, .standard⟩ talks

/-- Both talks have their slides, and only the first has the required title and flag. -/
theorem carriesRequired_compile_talks :
    let slides (url : String) : Attachment := ⟨"slides", "a", "image/jpeg", Text.utf8 url⟩
    let first : Payload := ⟨[("title", .string "Lists"), ("pinned", .string "true")], [slides "/a.pdf"]⟩
    let second : Payload := ⟨[], [slides "/b.pdf"]⟩
    ExportSettings.standard.reserved = CompileSettings.standard.reserved ∧ talks.DistinctNames ∧
      (compile everywhere .standard talksSchema talks).result.entities =
        [⟨"talks", [⟨0, .ok first⟩, ⟨1, .ok second⟩]⟩] ∧
      ∃ e ∈ talksSchema.entities, ∃ records record, talks.records? "talks" = some records ∧
        records[1]? = some record ∧
        second.CarriesRequired .standard e (entityDocument .standard e) record := by
  intro slides first second
  have hreserved : ExportSettings.standard.reserved = CompileSettings.standard.reserved := rfl
  have hnames : talks.DistinctNames := by decide
  have hcompiled : (compile everywhere .standard talksSchema talks).result.entities =
      [⟨"talks", [⟨0, .ok first⟩, ⟨1, .ok second⟩]⟩] := by decide +kernel
  refine ⟨hreserved, hnames, hcompiled, ?_⟩
  obtain ⟨e, he, -, records, record, hrecords, hrecord, hcarries⟩ :=
    carriesRequired_compile everywhere hreserved .standard hnames
      ⟨"talks", [⟨0, .ok first⟩, ⟨1, .ok second⟩]⟩ (hcompiled ▸ List.mem_singleton.mpr rfl)
      ⟨1, .ok second⟩ (by simp) second rfl
  exact ⟨e, he, records, record, hrecords, hrecord, hcarries⟩

/-- The title of a talk is a required text, and the payload of the second talk has no title. -/
theorem not_carried_of_other_kind :
    talks.DistinctNames ∧
      (∃ e ∈ talksSchema.entities, e.name = "talks" ∧
        (entityDocument .standard e).Requires "title" "string") ∧
      ¬ ∀ payload ∈ (compile everywhere .standard talksSchema talks).result.entities.flatMap
          EntityPayloads.payloads,
        "title" ∈ payload.data.map Prod.fst := by
  decide +kernel

end ContentModel
