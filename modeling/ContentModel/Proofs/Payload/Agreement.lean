import ContentModel.Proofs.Definition.Attributes
import ContentModel.Proofs.Payload.Attachments
import ContentModel.Proofs.Payload.Keys

/-
# Payloads and definitions

The exporter and the compiler read the same fields.  What a payload carries is described by the
definition of its entity: files by attributes of media, and keys of the data by attributes of texts, truth
values and relations, or by the definition of a component.  Relations are written last, so nothing in a
record replaces their placeholders.

Main statements: `get?_compileData_of_relation` (what a relation shows) and
`compileRecord_agrees_with_exportEntity`.
-/

namespace ContentModel

open Definition

/-! ## Fields that are exported and compiled -/

/-- A field that a payload may carry is exported, unless its type says nothing. -/
theorem mem_exportedFields_iff {settings : ExportSettings} {e : EntitySchema} {f : Field} :
    f ∈ exportedFields settings e ↔
      f ∈ e.fields ∧ f.type.hasSignal = true ∧ f.name ∉ settings.reserved.fields := by
  rw [exportedFields, List.mem_filter, Bool.and_eq_true]
  simp [Reserved.hasField]

/-- A field that writes something has a type that says something. -/
theorem Field.hasSignal_of_writes_ne_nil {reserved : Reserved} {record : Record} {f : Field}
    (h : f.writes reserved record ≠ []) : f.type.hasSignal = true := by
  cases htype : f.type with
  | nullish => simp [writes, htype] at h
  | unknown => simp [writes, htype] at h
  | _ => rfl

/-- The types of fields that write under their own names. -/
theorem Field.type_of_writes_ne_nil {reserved : Reserved} {record : Record} {f : Field}
    (hne : f.type ≠ .component) (h : f.writes reserved record ≠ []) :
    f.type ∈ [FieldType.string, .richText, .boolean, .relation] := by
  cases htype : f.type with
  | component => exact absurd htype hne
  | date => simp [writes, htype] at h
  | number => simp [writes, htype] at h
  | media => simp [writes, htype] at h
  | nullish => simp [writes, htype] at h
  | unknown => simp [writes, htype] at h
  | _ => decide

/-! ## Relations -/

/-- After some writes, a key shows what the last write under it wrote. -/
theorem get?_foldl_apply_of_last {before after : List Write} {w : Write}
    (hafter : ∀ w' ∈ after, w'.key ≠ w.key) (data : Json.Members) :
    Keyed.get? w.key ((before ++ w :: after).foldl Write.apply data) = some w.value := by
  rw [List.foldl_append, List.foldl_cons]
  generalize before.foldl Write.apply data = data'
  -- The later writes are of other keys, so each of them leaves what the key shows.
  induction after using List.reverseRecOn with
  | nil => exact Keyed.get?_put_self w.key w.value data'
  | append_singleton after w' ih =>
    have hne : w.key ≠ w'.key := (hafter w' (by simp)).symm
    rw [List.foldl_concat, Write.apply, Keyed.get?_put_of_ne hne]
    exact ih fun w'' hw'' => hafter w'' (by simp [hw''])

/-- **Relations.**  The data of a record show the placeholder under the name of each relation that is not
reserved, whatever the record holds. -/
theorem get?_compileData_of_relation {reserved : Reserved} {e : EntitySchema} (he : e.DistinctNames)
    (record : Record) {f : Field} (hf : f ∈ e.fields) (htype : f.type = .relation)
    (hr : f.name ∉ reserved.fields) :
    Keyed.get? f.name (compileData reserved (Partition.of reserved e) record) =
      some relationPlaceholder := by
  have hmem : f ∈ (Partition.of reserved e).relation := by
    simp [Partition.of, List.mem_filter, hf, htype, hr, Reserved.hasField]
  have hnodup : ((Partition.of reserved e).relation.map Field.name).Nodup :=
    List.Nodup.sublist (List.Sublist.map Field.name
      (List.filter_sublist.trans List.filter_sublist)) he
  obtain ⟨before, after, hsplit⟩ := List.append_of_mem hmem
  have hafter : ∀ w ∈ after.map Write.relation, w.key ≠ (Write.relation f).key := by
    intro w hw
    obtain ⟨g, hg, rfl⟩ := List.mem_map.mp hw
    rw [hsplit, List.map_append, List.map_cons] at hnodup
    have hnotMem := (List.nodup_cons.mp (List.Nodup.of_append_right hnodup)).1
    exact fun heq => hnotMem (List.mem_map.mpr ⟨g, hg, heq⟩)
  have hwrites : (Partition.of reserved e).writes reserved record =
      ((Partition.of reserved e).scalarWrites record ++
        (Partition.of reserved e).component.flatMap (Write.component reserved record) ++
        before.map Write.relation) ++ Write.relation f :: after.map Write.relation := by
    rw [Partition.writes, Partition.structuredWrites, hsplit, List.map_append, List.map_cons]
    simp only [List.append_assoc]
  rw [compileData, hwrites]
  exact get?_foldl_apply_of_last hafter []

/-! ## Agreement -/

/-- **Agreement.**  Of each record that has a payload, the definition of the entity describes what the
payload carries: each file belongs to an attribute of media; each key of the data is the name of an
attribute of texts, truth values or relations, or a member, not reserved, of an object that the record
holds under an attribute of components, which has a definition of its own; and under each attribute of
relations stands the placeholder. -/
theorem compileRecord_agrees_with_exportEntity (fetch : Fetcher) {exporting : ExportSettings}
    {compiling : CompileSettings} (hreserved : exporting.reserved = compiling.reserved)
    {e : EntitySchema} (he : e.DistinctNames) {record : Record} {payload : Payload}
    (hok : (compileRecord fetch compiling (Partition.of compiling.reserved e) record).result =
      .ok payload) :
    let definition := entityDocument exporting e
    (∀ a ∈ payload.files, definition.HasType a.field "media") ∧
    (payload.data.map Prod.fst).Nodup ∧
    (∀ key ∈ payload.data.map Prod.fst,
      (∃ type ∈ ["string", "richtext", "boolean", "relation"], definition.HasType key type) ∨
      ∃ field members, definition.HasType field "component" ∧
        (∃ d ∈ exportEntity exporting e, d.kind = .component ∧ d.entity = e.name ∧ d.name = field) ∧
        Keyed.get? field record = some (.object members) ∧ key ∈ members.map Prod.fst ∧
        key ∉ compiling.reserved.subFields) ∧
    ∀ name, definition.HasType name "relation" →
      Keyed.get? name payload.data = some (.object [("id", .null)]) := by
  intro definition
  have hdata := ((compileRecord_eq_ok_iff fetch compiling e record payload).mp hok).1
  refine ⟨?_, ?_, ?_, ?_⟩
  · intro a ha
    have hattached := attachedFor_of_compileRecord fetch compiling hok
    have hfield : a.field ∈ e.mediaNames compiling.reserved record :=
      hattached ▸ List.mem_map_of_mem ha
    obtain ⟨f, hf, hname⟩ := List.mem_map.mp hfield
    simp only [EntitySchema.mediaFields, List.mem_filter, decide_eq_true_eq] at hf
    obtain ⟨hf, htype, hr, -⟩ := hf
    refine (hasType_entityDocument_iff exporting he a.field .media).mpr ⟨f, ?_, hname, htype⟩
    exact mem_exportedFields_iff.mpr ⟨hf, by rw [htype]; rfl, hreserved ▸ hr⟩
  · rw [hdata, keys_compileData]
    exact Keyed.nodup_extend List.nodup_nil _
  · intro key hkey
    rw [hdata, mem_keys_compileData] at hkey
    rcases hkey with ⟨f, hf, rfl, hr, hne, hwrites⟩ |
      ⟨f, hf, htype, hr, members, hget, hmember, hsub⟩
    · have hexported : f ∈ exportedFields exporting e :=
        mem_exportedFields_iff.mpr ⟨hf, Field.hasSignal_of_writes_ne_nil hwrites, hreserved ▸ hr⟩
      have hhas : definition.HasType f.name (plainType f.type) :=
        (hasType_entityDocument_iff exporting he f.name f.type).mpr ⟨f, hexported, rfl, rfl⟩
      refine Or.inl ⟨plainType f.type, ?_, hhas⟩
      exact List.mem_map_of_mem (Field.type_of_writes_ne_nil hne hwrites)
    · have hexported : f ∈ exportedFields exporting e :=
        mem_exportedFields_iff.mpr ⟨hf, by rw [htype]; rfl, hreserved ▸ hr⟩
      refine Or.inr ⟨f.name, members, ?_, ?_, hget, hmember, hsub⟩
      · exact (hasType_entityDocument_iff exporting he f.name .component).mpr
          ⟨f, hexported, rfl, htype⟩
      · refine ⟨componentDocument exporting e.name f, List.mem_cons_of_mem _ ?_, rfl, rfl, rfl⟩
        exact List.mem_map_of_mem (List.mem_filter.mpr ⟨hexported, by simp [htype]⟩)
  · intro name hhas
    obtain ⟨f, hf, rfl, htype⟩ := (hasType_entityDocument_iff exporting he name .relation).mp hhas
    obtain ⟨hf, -, hr⟩ := mem_exportedFields_iff.mp hf
    rw [hdata]
    exact get?_compileData_of_relation he record hf htype (hreserved ▸ hr)

/-- Profiles have a title, a cover, links and an author. -/
def profiles : EntitySchema :=
  ⟨"profiles", [Field.ofRelation "author", Field.fresh "links" .component, Field.fresh "cover" .media,
    Field.fresh "title" .string]⟩

/-- A profile, among whose links stand a title and an author. -/
def profile : Record :=
  [("title", .string "Hello"), ("cover", assetAt "/a.jpg"), ("links", .object [("id", .string "1"),
    ("author", .string "Ann"), ("title", .string "Home"), ("web", .string "a.org")])]

/-- The links of a profile replace its title, and the author's placeholder replaces the author among the
links. -/
theorem compileRecord_agrees_with_exportEntity_profile :
    let definition := entityDocument .standard profiles
    let payload : Payload := ⟨[("title", .string "Home"), ("author", .object [("id", .null)]),
      ("web", .string "a.org")], [⟨"cover", "a", "image/jpeg", Text.utf8 "/a.jpg"⟩]⟩
    ExportSettings.standard.reserved = CompileSettings.standard.reserved ∧ profiles.DistinctNames ∧
      (compileRecord everywhere .standard (Partition.of Reserved.standard profiles) profile).result =
        .ok payload ∧
      (∀ a ∈ payload.files, definition.HasType a.field "media") ∧
      ∀ name, definition.HasType name "relation" →
        Keyed.get? name payload.data = some (.object [("id", .null)]) := by
  intro definition payload
  have hok : (compileRecord everywhere .standard (Partition.of Reserved.standard profiles)
      profile).result = .ok payload := by decide +kernel
  have hreserved : ExportSettings.standard.reserved = CompileSettings.standard.reserved := rfl
  have hnames : profiles.DistinctNames := by decide
  obtain ⟨hmedia, -, -, hrelation⟩ :=
    compileRecord_agrees_with_exportEntity everywhere hreserved hnames hok
  exact ⟨hreserved, hnames, hok, hmedia, hrelation⟩

end ContentModel
