import Mathlib.Data.Fintype.EquivFin
import ContentModel.Proofs.Payload.Revision

/-
# The keys of payload data, and reserved names

Each key of a payload's data comes from a write of one of the entity's fields that is not reserved.  A
field writes under its own name, except that a component writes its members.  So a reserved name is kept
out of payloads unless a component has a member of that name which is not reserved among the members of
components: the two lists of reserved names do not look after each other.

Main statements: `writes_eq_flatMap` (in which order fields write), `mem_writes_iff` (which field a write
comes from), `mem_keys_compileData` (which names are keys) and `keepsReserved_compile_iff`.
-/

namespace ContentModel

/-! ## The writes of one field -/

/-- What a field writes of a record. -/
def Field.writes (reserved : Reserved) (record : Record) (f : Field) : List Write :=
  match f.type with
  | .string | .richText => (Write.plain? record f).toList
  | .boolean => (Write.boolean? record f).toList
  | .component => Write.component reserved record f
  | .relation => [Write.relation f]
  | .date | .number | .media | .nullish | .unknown => []

/-! ## The order of writes -/

/-- The types of fields that are written together, one group after the other. -/
def writeOrder : List (List FieldType) :=
  [[.string, .richText], [.boolean], [.component], [.relation]]

section Order

variable (reserved : Reserved) (record : Record)

/-- The fields of one group write one after the other. -/
theorem flatMap_group (e : EntitySchema) (types : List FieldType) {p : Field → Bool}
    {g : Field → List Write} (hp : ∀ f, p f = decide (f.type ∈ types))
    (hg : ∀ f, f.type ∈ types → g f = f.writes reserved record) :
    ((e.fields.filter fun f => !reserved.hasField f.name).filter p).flatMap g =
      (e.fields.filter fun f => f.type ∈ types ∧ f.name ∉ reserved.fields).flatMap
        (Field.writes reserved record) := by
  have hfilter : (e.fields.filter fun f => !reserved.hasField f.name).filter p =
      e.fields.filter fun f => f.type ∈ types ∧ f.name ∉ reserved.fields := by
    rw [List.filter_filter]
    refine List.filter_congr fun f _ => ?_
    simp [hp, Reserved.hasField]
  rw [hfilter]
  refine List.flatMap_congr fun f hf => hg f ?_
  rw [List.mem_filter, decide_eq_true_eq] at hf
  exact hf.2.1

/-- The fields of a group with one type write one after the other. -/
theorem flatMap_type (e : EntitySchema) (t : FieldType) {g : Field → List Write}
    (hg : ∀ f, f.type = t → g f = f.writes reserved record) :
    ((e.fields.filter fun f => !reserved.hasField f.name).filter fun f => f.type = t).flatMap g =
      (e.fields.filter fun f => f.type ∈ [t] ∧ f.name ∉ reserved.fields).flatMap
        (Field.writes reserved record) :=
  flatMap_group reserved record e [t] (fun f => by simp) fun f hf => hg f (List.mem_singleton.mp hf)

/-- **Order.**  The writes of a record are those of the entity's fields that are not reserved, group by
group. -/
theorem writes_eq_flatMap (e : EntitySchema) :
    (Partition.of reserved e).writes reserved record =
      writeOrder.flatMap fun types =>
        (e.fields.filter fun f => f.type ∈ types ∧ f.name ∉ reserved.fields).flatMap
          (Field.writes reserved record) := by
  have htextual : ∀ f : Field, f.type.isTextual = decide (f.type ∈ [FieldType.string, .richText]) := by
    intro f
    cases f.type <;> rfl
  have htexts : ∀ f : Field, f.type ∈ [FieldType.string, .richText] →
      (Write.plain? record f).toList = f.writes reserved record := by
    intro f hf
    rw [List.mem_pair] at hf
    rcases hf with hf | hf <;> rw [Field.writes, hf]
  simp only [Partition.writes, Partition.scalarWrites, Partition.structuredWrites, Partition.of,
    List.filterMap_eq_flatMap_toList, List.map_eq_flatMap, writeOrder, List.flatMap_cons,
    List.flatMap_nil, List.append_nil, List.append_assoc]
  rw [flatMap_group reserved record e _ htextual htexts,
    flatMap_type reserved record e .boolean fun f hf => by rw [Field.writes, hf],
    flatMap_type reserved record e .component fun f hf => by rw [Field.writes, hf],
    flatMap_type reserved record e .relation fun f hf => by rw [Field.writes, hf]]

end Order

/-- **Sources.**  The writes of a record are those of the entity's fields that are not reserved. -/
theorem mem_writes_iff {reserved : Reserved} {e : EntitySchema} {record : Record} {w : Write} :
    w ∈ (Partition.of reserved e).writes reserved record ↔
      ∃ f ∈ e.fields, f.name ∉ reserved.fields ∧ w ∈ f.writes reserved record := by
  rw [writes_eq_flatMap]
  simp only [List.mem_flatMap, List.mem_filter, decide_eq_true_eq]
  constructor
  · rintro ⟨types, -, f, ⟨hf, -, hr⟩, hw⟩
    exact ⟨f, hf, hr, hw⟩
  · rintro ⟨f, hf, hr, hw⟩
    -- A field of a type in no group writes nothing.
    have hgroup : ∃ types ∈ writeOrder, f.type ∈ types := by
      cases htype : f.type with
      | date | number | media | nullish | unknown => simp [Field.writes, htype] at hw
      | _ => decide
    obtain ⟨types, htypes, hmem⟩ := hgroup
    exact ⟨types, htypes, f, ⟨hf, hmem, hr⟩, hw⟩

/-! ## The keys of writes -/

/-- A field that is no component writes under its own name. -/
theorem Field.key_of_mem_writes {reserved : Reserved} {record : Record} {f : Field} {w : Write}
    (hne : f.type ≠ .component) (hw : w ∈ f.writes reserved record) : w.key = f.name := by
  have hplain : ∀ w ∈ Write.plain? record f, w.key = f.name := by
    intro w hw
    rw [Write.plain?] at hw
    split at hw
    · cases hw
      rfl
    · cases hw
  have hboolean : ∀ w ∈ Write.boolean? record f, w.key = f.name := by
    intro w hw
    rw [Write.boolean?] at hw
    split at hw
    · cases hw
      rfl
    · cases hw
  cases htype : f.type with
  | string => exact hplain w (by simpa [writes, htype] using hw)
  | richText => exact hplain w (by simpa [writes, htype] using hw)
  | boolean => exact hboolean w (by simpa [writes, htype] using hw)
  | component => exact absurd htype hne
  | relation =>
    simp only [writes, htype, List.mem_singleton] at hw
    rw [hw]
    rfl
  | date => simp [writes, htype] at hw
  | number => simp [writes, htype] at hw
  | media => simp [writes, htype] at hw
  | nullish => simp [writes, htype] at hw
  | unknown => simp [writes, htype] at hw

/-! ## Keys -/

/-- The data are what the writes leave, carried out one after the other. -/
theorem compileData_eq_ofWrites (reserved : Reserved) (p : Partition) (record : Record) :
    compileData reserved p record =
      Keyed.ofWrites ((p.writes reserved record).map fun w => (w.key, w.value)) := by
  rw [Keyed.ofWrites, List.foldl_map]
  rfl

/-- The keys of data are those of the writes, in order of first appearance. -/
theorem keys_compileData (reserved : Reserved) (p : Partition) (record : Record) :
    (compileData reserved p record).map Prod.fst =
      Keyed.extend [] ((p.writes reserved record).map Write.key) := by
  rw [compileData_eq_ofWrites, Keyed.map_fst_ofWrites, List.map_map]
  rfl

/-- The record holds an object in a component field, with a member of the name that is not reserved among
the members of components. -/
def Exposes (reserved : Reserved) (e : EntitySchema) (record : Record) (name : String) : Prop :=
  ∃ f ∈ e.fields, f.type = .component ∧ f.name ∉ reserved.fields ∧
    ∃ members, Keyed.get? f.name record = some (.object members) ∧
      name ∈ members.map Prod.fst ∧ name ∉ reserved.subFields

/-- **Keys.**  A name is a key of a record's data exactly if a field of the name that is no component
writes something, or a component exposes the name. -/
theorem mem_keys_compileData (reserved : Reserved) (e : EntitySchema) (record : Record)
    (name : String) :
    name ∈ (compileData reserved (Partition.of reserved e) record).map Prod.fst ↔
      (∃ f ∈ e.fields, f.name = name ∧ f.name ∉ reserved.fields ∧ f.type ≠ .component ∧
        f.writes reserved record ≠ []) ∨
      Exposes reserved e record name := by
  rw [keys_compileData, Keyed.mem_extend, List.mem_map]
  constructor
  · rintro (h | ⟨w, hw, rfl⟩)
    · cases h
    · obtain ⟨f, hf, hr, hw⟩ := mem_writes_iff.mp hw
      by_cases htype : f.type = .component
      · refine Or.inr ⟨f, hf, htype, hr, ?_⟩
        simp only [Field.writes, htype, Write.component] at hw
        split at hw
        · rename_i members hget
          obtain ⟨member, hmember, rfl⟩ := List.mem_map.mp hw
          rw [List.mem_filter] at hmember
          refine ⟨members, hget, List.mem_map_of_mem hmember.1, ?_⟩
          simpa [Reserved.hasSubField] using hmember.2
        · cases hw
      · exact Or.inl ⟨f, hf, (Field.key_of_mem_writes htype hw).symm, hr, htype,
          List.ne_nil_of_mem hw⟩
  · rintro (⟨f, hf, rfl, hr, htype, hwrites⟩ | ⟨f, hf, htype, hr, members, hget, hmember, hsub⟩)
    · obtain ⟨w, hw⟩ := List.exists_mem_of_ne_nil _ hwrites
      exact Or.inr ⟨w, mem_writes_iff.mpr ⟨f, hf, hr, hw⟩, Field.key_of_mem_writes htype hw⟩
    · obtain ⟨member, hmem, rfl⟩ := List.mem_map.mp hmember
      refine Or.inr ⟨⟨f.name, member.1, member.2⟩, mem_writes_iff.mpr ⟨f, hf, hr, ?_⟩, rfl⟩
      simp only [Field.writes, htype, Write.component, hget]
      refine List.mem_map.mpr ⟨member, List.mem_filter.mpr ⟨hmem, ?_⟩, rfl⟩
      simpa [Reserved.hasSubField] using hsub

/-- **Reserved keys.**  A reserved name is a key of a record's data exactly if a component of the record
exposes it. -/
theorem mem_keys_compileData_iff {reserved : Reserved} (e : EntitySchema) (record : Record)
    {name : String} (hname : name ∈ reserved.fields) :
    name ∈ (compileData reserved (Partition.of reserved e) record).map Prod.fst ↔
      Exposes reserved e record name := by
  rw [mem_keys_compileData]
  refine or_iff_right ?_
  rintro ⟨f, -, rfl, hr, -⟩
  exact hr hname

/-! ## Compiled payloads -/

/-- The payloads of a compilation are those of the records of the schema's entities. -/
theorem mem_payloads_compile_iff {fetch : Fetcher} {settings : CompileSettings} {s : Schema}
    {d : Dataset} {payload : Payload} :
    payload ∈ (compile fetch settings s d).result.entities.flatMap EntityPayloads.payloads ↔
      ∃ e ∈ s.entities, ∃ records, d.records? e.name = some records ∧ ∃ record ∈ records,
        (compileRecord fetch settings (Partition.of settings.reserved e) record).result =
          .ok payload := by
  have hpayload : ∀ compiled : CompiledRecord,
      compiled.payload? = some payload ↔ compiled.outcome = .ok payload := by
    intro compiled
    obtain ⟨index, outcome⟩ := compiled
    cases outcome <;> simp [CompiledRecord.payload?]
  rw [compile_result]
  simp only [List.mem_flatMap, List.mem_filterMap, compileEntityOf_result, Option.map_eq_some_iff,
    EntityPayloads.payloads, hpayload]
  constructor
  · rintro ⟨_, ⟨e, he, records, hrecords, rfl⟩, compiled, hcompiled, hok⟩
    simp only [compileEntity_result] at hcompiled
    obtain ⟨index, hindex, rfl⟩ := List.mem_mapIdx.mp hcompiled
    exact ⟨e, he, records, hrecords, _, List.getElem_mem hindex, hok⟩
  · rintro ⟨e, he, records, hrecords, record, hrecord, hok⟩
    refine ⟨_, ⟨e, he, records, hrecords, rfl⟩, ?_⟩
    obtain ⟨index, hindex, rfl⟩ := List.getElem_of_mem hrecord
    simp only [compileEntity_result]
    exact ⟨_, List.mem_mapIdx.mpr ⟨index, hindex, rfl⟩, hok⟩

/-- A file of a payload is one of a field that is not reserved. -/
theorem field_notMem_of_mem_files {fetch : Fetcher} {settings : CompileSettings} {e : EntitySchema}
    {record : Record} {payload : Payload}
    (h : (compileRecord fetch settings (Partition.of settings.reserved e) record).result =
      .ok payload) {a : Attachment} (ha : a ∈ payload.files) :
    a.field ∉ settings.reserved.fields := by
  have hfiles := ((compileRecord_eq_ok_iff fetch settings e record payload).mp h).2
  obtain ⟨f, hf, asset, got, -, -, rfl⟩ : ∃ f ∈ e.mediaFields settings.reserved record,
      AttachedAs fetch settings record f a := by
    obtain ⟨i, hi, rfl⟩ := List.getElem_of_mem ha
    have hi' : i < (e.mediaFields settings.reserved record).length := by
      rw [hfiles.length_eq]
      exact hi
    exact ⟨_, List.getElem_mem hi', hfiles.get hi' hi⟩
  simp only [EntitySchema.mediaFields, List.mem_filter, decide_eq_true_eq] at hf
  exact hf.2.2.1

/-- No reserved name is a key of the data or the field of a file. -/
structure Payload.KeepsReserved (reserved : Reserved) (p : Payload) : Prop where
  data : ∀ key ∈ p.data.map Prod.fst, key ∉ reserved.fields
  files : ∀ a ∈ p.files, a.field ∉ reserved.fields

/-- No reserved name is in a payload. -/
def CompiledPayloads.KeepsReserved (reserved : Reserved) (c : CompiledPayloads) : Prop :=
  ∀ payload ∈ c.entities.flatMap EntityPayloads.payloads, payload.KeepsReserved reserved

section Compile

variable (fetch : Fetcher) (settings : CompileSettings) (s : Schema) (d : Dataset)

/-- **One compilation.**  Reserved names are kept out of the payloads exactly if no record that has a
payload exposes one. -/
theorem keepsReserved_iff_forall_not_exposes :
    (compile fetch settings s d).result.KeepsReserved settings.reserved ↔
      ∀ e ∈ s.entities, ∀ records, d.records? e.name = some records → ∀ record ∈ records,
        (∃ payload, (compileRecord fetch settings (Partition.of settings.reserved e) record).result =
          .ok payload) →
        ∀ name ∈ settings.reserved.fields, ¬ Exposes settings.reserved e record name := by
  constructor
  · rintro h e he records hrecords record hrecord ⟨payload, hok⟩ name hname hexposes
    have hmem := mem_payloads_compile_iff.mpr ⟨e, he, records, hrecords, record, hrecord, hok⟩
    refine (h payload hmem).data name ?_ hname
    rw [((compileRecord_eq_ok_iff fetch settings e record payload).mp hok).1]
    exact (mem_keys_compileData_iff e record hname).mpr hexposes
  · intro h payload hmem
    obtain ⟨e, he, records, hrecords, record, hrecord, hok⟩ := mem_payloads_compile_iff.mp hmem
    refine ⟨fun name hkey hname => ?_, fun a ha => field_notMem_of_mem_files hok ha⟩
    refine h e he records hrecords record hrecord ⟨payload, hok⟩ name hname ?_
    rw [← mem_keys_compileData_iff e record hname,
      ← ((compileRecord_eq_ok_iff fetch settings e record payload).mp hok).1]
    exact hkey

end Compile

/-- A record with one member, an object with one member, in an entity with one component field. -/
theorem exposes_singleton {reserved : Reserved} {field name : String}
    (hfield : field ∉ reserved.fields) (hname : name ∉ reserved.subFields) :
    Exposes reserved ⟨"", [Field.fresh field .component]⟩ [(field, .object [(name, .null)])] name :=
  ⟨_, List.mem_singleton.mpr rfl, rfl, hfield, [(name, .null)],
    by simp [Keyed.get?, Keyed.find?, Field.fresh], by simp, hname⟩

/-- A record of an entity without media fields has a payload. -/
theorem exists_compileRecord_eq_ok (fetch : Fetcher) (settings : CompileSettings) {e : EntitySchema}
    (h : ∀ f ∈ e.fields, f.type ≠ .media) (record : Record) :
    ∃ payload, (compileRecord fetch settings (Partition.of settings.reserved e) record).result =
      .ok payload := by
  have hnone : e.mediaFields settings.reserved record = [] := by
    rw [EntitySchema.mediaFields, List.filter_eq_nil_iff]
    intro f hf
    simp [h f hf]
  refine ⟨⟨_, []⟩, (compileRecord_eq_ok_iff fetch settings e record _).mpr ⟨rfl, ?_⟩⟩
  rw [hnone]
  exact List.Forall₂.nil

/-- **Reserved names.**  Files are never those of reserved fields.  Data have a key of a reserved name
exactly if a record that has a payload exposes it in a component.  So reserved names are kept out of
all payloads, whatever the schema and the dataset, exactly if each name that is reserved for fields is
reserved for the members of components as well. -/
theorem keepsReserved_compile_iff (settings : CompileSettings) :
    (∀ fetch s d, ∀ payload ∈
        (compile fetch settings s d).result.entities.flatMap EntityPayloads.payloads,
      ∀ a ∈ payload.files, a.field ∉ settings.reserved.fields) ∧
    (∀ fetch s d, (compile fetch settings s d).result.KeepsReserved settings.reserved ↔
      ∀ e ∈ s.entities, ∀ records, d.records? e.name = some records → ∀ record ∈ records,
        (∃ payload, (compileRecord fetch settings (Partition.of settings.reserved e) record).result =
          .ok payload) →
        ∀ name ∈ settings.reserved.fields, ¬ Exposes settings.reserved e record name) ∧
    ((∀ fetch s d, (compile fetch settings s d).result.KeepsReserved settings.reserved) ↔
      ∀ name ∈ settings.reserved.fields, name ∈ settings.reserved.subFields) := by
  refine ⟨?_, fun fetch s d => keepsReserved_iff_forall_not_exposes fetch settings s d, ?_, ?_⟩
  · intro fetch s d payload hmem a ha
    obtain ⟨e, -, -, -, record, -, hok⟩ := mem_payloads_compile_iff.mp hmem
    exact field_notMem_of_mem_files hok ha
  · intro h name hname
    by_contra hsub
    -- A component in a field of an unreserved name exposes the name.
    obtain ⟨field, hfield⟩ := Infinite.exists_notMem_finset settings.reserved.fields.toFinset
    rw [List.mem_toFinset] at hfield
    let e : EntitySchema := ⟨"", [Field.fresh field .component]⟩
    let record : Record := [(field, .object [(name, .null)])]
    have hkept := (keepsReserved_iff_forall_not_exposes (fun url => .error (.connection url)) settings
      ⟨[e]⟩ ⟨[("", [record])]⟩).mp (h _ _ _)
    have hok := exists_compileRecord_eq_ok (fun url => .error (.connection url)) settings (e := e)
      (by simp [e, Field.fresh]) record
    exact hkept e (List.mem_singleton.mpr rfl) [record] rfl record (List.mem_singleton.mpr rfl) hok
      name hname (exposes_singleton hfield hsub)
  · intro h fetch s d
    rw [keepsReserved_iff_forall_not_exposes]
    rintro e - records - record - - name hname ⟨f, -, -, -, members, -, -, hsub⟩
    exact hsub (h name hname)

/-- The date of creation of a component becomes a key of the payload, although it is a reserved name. -/
theorem not_keepsReserved_of_component :
    let schema : Schema := ⟨[⟨"posts", [Field.fresh "social" .component]⟩]⟩
    let dataset : Dataset := ⟨[("posts", [[("social", .object [("id", .string "1"),
      ("createdAt", .string "2021-01-01"), ("facebook", .string "fb")])]])]⟩
    let compiled := (compile (fun url => .error (.connection url)) .standard schema dataset).result
    compiled.entities.flatMap EntityPayloads.payloads =
        [⟨[("createdAt", .string "2021-01-01"), ("facebook", .string "fb")], []⟩] ∧
      "createdAt" ∈ CompileSettings.standard.reserved.fields ∧
      ¬ compiled.KeepsReserved CompileSettings.standard.reserved := by
  intro schema dataset compiled
  have hpayloads : compiled.entities.flatMap EntityPayloads.payloads =
      [⟨[("createdAt", .string "2021-01-01"), ("facebook", .string "fb")], []⟩] := by decide
  refine ⟨hpayloads, by decide, fun h => ?_⟩
  refine (h _ (hpayloads ▸ List.mem_singleton.mpr rfl)).data "createdAt" ?_ (by decide)
  exact List.mem_cons_self

end ContentModel
