import ContentModel.Proofs.Payload.Revision
import ContentModel.Proofs.Schema.Edits

/-
# Attachments after a run of edits

A revision drops the files of the field whose type was changed and keeps all others.  Where the schema
has been edited in other ways since the compilation, the files that are kept are still those of the
media fields at that time: no file is missing, but files of other fields that have gone stay, and files
stand in the order in which the fields stood.

Main statements: `attachedFor_reviseRecord_iff` (the files of one revised record) and
`attachedFor_reviseTypeChange_iff` (which revised payloads have the files of the edited schema).
-/

namespace ContentModel

/-! ## The files of a payload -/

/-- The names of the media fields of a record, in order. -/
def EntitySchema.mediaNames (reserved : Reserved) (e : EntitySchema) (record : Record) :
    List String :=
  (e.mediaFields reserved record).map Field.name

/-- The files of the payload are those of the media fields of the record, in order. -/
def Payload.AttachedFor (reserved : Reserved) (e : EntitySchema) (record : Record) (p : Payload) :
    Prop :=
  p.files.map Attachment.field = e.mediaNames reserved record

instance (reserved : Reserved) (e : EntitySchema) (record : Record) (p : Payload) :
    Decidable (p.AttachedFor reserved e record) :=
  inferInstanceAs (Decidable (_ = _))

/-- Where edits make no media fields, the media fields of a record are among those before. -/
theorem Schema.MediaFrom.mem_mediaNames {e e' : EntitySchema} (h : Schema.MediaFrom e e')
    {reserved : Reserved} {record : Record} {name : String}
    (hname : name ∈ e'.mediaNames reserved record) : name ∈ e.mediaNames reserved record := by
  obtain ⟨f', hf', rfl⟩ := List.mem_map.mp hname
  simp only [EntitySchema.mediaFields, List.mem_filter, decide_eq_true_eq] at hf'
  obtain ⟨f, hf, hsame, htype⟩ := h f' hf'.1 hf'.2.1
  refine List.mem_map.mpr ⟨f, ?_, hsame⟩
  simp only [EntitySchema.mediaFields, List.mem_filter, decide_eq_true_eq]
  exact ⟨hf, htype, hsame ▸ hf'.2.2⟩

section Record

variable (fetch : Fetcher) (settings : CompileSettings)

/-- A compiled payload has the files of the media fields of its record. -/
theorem attachedFor_of_compileRecord {e : EntitySchema} {record : Record} {payload : Payload}
    (h : (compileRecord fetch settings (Partition.of settings.reserved e) record).result =
      .ok payload) : payload.AttachedFor settings.reserved e record := by
  have hfiles := ((compileRecord_eq_ok_iff fetch settings e record payload).mp h).2
  have hnames : List.Forall₂ (· = ·) ((e.mediaFields settings.reserved record).map Field.name)
      (payload.files.map Attachment.field) := by
    rw [List.forall₂_map_left_iff, List.forall₂_map_right_iff]
    refine hfiles.imp fun f a => ?_
    rintro ⟨asset, got, -, -, rfl⟩
    rfl
  rw [List.forall₂_eq_eq_eq] at hnames
  exact hnames.symm

/-- **One record.**  A record that had a payload keeps its files but for those of the changed field;
any other record has the files of its media fields after the change. -/
theorem fields_of_reviseRecord {e e' : EntitySchema} {field : String} {records : List Record}
    {record : Record} {index : Nat} (hrecord : records[index]? = some record) {payload : Payload}
    (h : (reviseRecord fetch settings (Partition.of settings.reserved e') field records
      ⟨index, (compileRecord fetch settings (Partition.of settings.reserved e) record).result⟩
        ).result.outcome = .ok payload) :
    (∃ first, (compileRecord fetch settings (Partition.of settings.reserved e) record).result =
        .ok first) ∧
      payload.files.map Attachment.field =
        (e.mediaNames settings.reserved record).filter (· ≠ field) ∨
    (∃ error, (compileRecord fetch settings (Partition.of settings.reserved e) record).result =
        .error error) ∧
      payload.AttachedFor settings.reserved e' record := by
  rw [reviseRecord, hrecord] at h
  cases hfirst : (compileRecord fetch settings (Partition.of settings.reserved e) record).result with
  | error error =>
    rw [hfirst] at h
    exact Or.inr ⟨⟨error, rfl⟩, attachedFor_of_compileRecord fetch settings h⟩
  | ok first =>
    rw [hfirst] at h
    obtain rfl := Except.ok.inj h
    refine Or.inl ⟨⟨first, rfl⟩, ?_⟩
    rw [← attachedFor_of_compileRecord fetch settings hfirst, List.filter_map]
    rfl

/-- **One record after edits.**  Where the edits made no media fields, and the changed field is none, the
revised payload has the files of the media fields after the edits exactly if the record had no payload
before or its other media fields are the same.  No file is missing. -/
theorem attachedFor_reviseRecord_iff {e e' : EntitySchema} (hmedia : Schema.MediaFrom e e')
    {field : String} {records : List Record} {record : Record} {index : Nat}
    (hrecord : records[index]? = some record)
    (hfield : field ∉ e'.mediaNames settings.reserved record) {payload : Payload}
    (h : (reviseRecord fetch settings (Partition.of settings.reserved e') field records
      ⟨index, (compileRecord fetch settings (Partition.of settings.reserved e) record).result⟩
        ).result.outcome = .ok payload) :
    (payload.AttachedFor settings.reserved e' record ↔
      ((∃ first, (compileRecord fetch settings (Partition.of settings.reserved e) record).result =
          .ok first) →
        (e.mediaNames settings.reserved record).filter (· ≠ field) =
          e'.mediaNames settings.reserved record)) ∧
    ∀ name ∈ e'.mediaNames settings.reserved record, name ∈ payload.files.map Attachment.field := by
  rcases fields_of_reviseRecord fetch settings hrecord h with
    ⟨hfirst, hfiles⟩ | ⟨⟨error, herror⟩, hattached⟩
  · constructor
    · rw [Payload.AttachedFor, hfiles]
      exact ⟨fun hnames _ => hnames, fun hnames => hnames hfirst⟩
    · intro name hname
      have hne : name ≠ field := fun heq => hfield (heq ▸ hname)
      rw [hfiles, List.mem_filter]
      exact ⟨hmedia.mem_mediaNames hname, decide_eq_true hne⟩
  · constructor
    · refine ⟨?_, fun _ => hattached⟩
      rintro - ⟨first, hfirst⟩
      rw [herror] at hfirst
      cases hfirst
    · intro name hname
      rw [hattached]
      exact hname

end Record

/-! ## Revised payloads -/

section Revise

variable (fetch : Fetcher) (settings : CompileSettings) {s s' : Schema} (d : Dataset)

/-- The revised payloads of the changed entity are those of its records, each revised. -/
theorem entity?_reviseTypeChange_compile {change : TypeChange} {e e' : EntitySchema}
    {records : List Record} (he : s.entity? change.entity = some e)
    (he' : s'.entity? change.entity = some e') (hrecords : d.records? change.entity = some records) :
    ∃ payloads, (reviseTypeChange fetch settings s' d change
          (compile fetch settings s d).result).result.entity? change.entity = some payloads ∧
      payloads.records = records.mapIdx fun index record =>
        (reviseRecord fetch settings (Partition.of settings.reserved e') change.field records
          ⟨index, (compileRecord fetch settings (Partition.of settings.reserved e) record).result⟩
            ).result := by
  have hfound := entity?_compile_of_some fetch settings d he hrecords
  have hname : e.name = change.entity := (Keyed.mem_and_name_of_find? he).2
  rw [compileEntity_result] at hfound
  simp only [reviseTypeChange, he', hrecords, hfound, Traced.map, Traced.sequence, map_mapIdx]
  rw [CompiledPayloads.entity?, ← Keyed.find?_eq_find?] at hfound ⊢
  exact ⟨_, Keyed.find?_replaceFirst EntityPayloads.entity _ hname hfound, rfl⟩

/-- A field that has become a relation is no media field of its entity, where names are distinct. -/
theorem notMem_mediaNames_of_changeType {t : Schema} (ht : t.DistinctNames)
    {entity field : String} {target : FieldType} {change : TypeChange}
    (h : t.changeType entity field target = .ok (change, s')) {e' : EntitySchema}
    (he' : s'.entity? entity = some e') (reserved : Reserved) (record : Record) :
    field ∉ e'.mediaNames reserved record := by
  obtain ⟨e, he, hnew⟩ := Schema.entity?_of_changeType h
  obtain ⟨hmem, -⟩ := Keyed.mem_and_name_of_find? he
  obtain rfl := Option.some.inj (hnew.symm.trans he')
  rw [EntitySchema.mediaNames, mediaFields_setField_ofRelation (ht.fields e hmem), List.mem_map]
  rintro ⟨g, hg, rfl⟩
  simpa using (List.mem_filter.mp hg).2

/-- **Any run of edits.**  After a run of edits that ends with a change of a type, and a revision for
that change, the payload of a record of the changed entity has the files of its media fields in the
edited schema, in order, exactly if the record had no payload before, or if the edits before the change
neither took any of its other media fields away nor moved them among each other.  No file is missing in
any case. -/
theorem attachedFor_reviseTypeChange_iff (hs : s.DistinctNames) (edits : List Edit)
    {entity field : String} {target : FieldType} {change : TypeChange}
    (h : (edits.foldl Edit.run s).changeType entity field target = .ok (change, s')) :
    ∃ e e', s.entity? entity = some e ∧ s'.entity? entity = some e' ∧
      ∀ records, d.records? entity = some records →
        ∃ payloads, (reviseTypeChange fetch settings s' d change
            (compile fetch settings s d).result).result.entity? entity = some payloads ∧
          List.Forall₂ (fun record compiled => ∀ payload, compiled.outcome = .ok payload →
            (payload.AttachedFor settings.reserved e' record ↔
              ((∃ first, (compileRecord fetch settings (Partition.of settings.reserved e)
                  record).result = .ok first) →
                (e.mediaNames settings.reserved record).filter (· ≠ field) =
                  e'.mediaNames settings.reserved record)) ∧
            ∀ name ∈ e'.mediaNames settings.reserved record,
              name ∈ payload.files.map Attachment.field) records payloads.records := by
  have ht : (edits.foldl Edit.run s).DistinctNames := hs.foldl_run edits
  have hrun : s' = (edits ++ [Edit.changeType entity field target]).foldl Edit.run s := by
    simp only [List.foldl_concat, Edit.run, h]
    rfl
  obtain ⟨changed, -, he'⟩ := Schema.entity?_of_changeType h
  generalize changed.setField field (Field.ofRelation field) = e' at he'
  obtain ⟨e, he, hmedia⟩ := Schema.exists_media_of_foldl_run (hrun ▸ he')
  refine ⟨e, e', he, he', fun records hrecords => ?_⟩
  have hchange : change.entity = entity ∧ change.field = field := by
    obtain ⟨-, -, f, -, -, rfl, -⟩ := Schema.changeType_eq_ok_iff.mp h
    exact ⟨rfl, rfl⟩
  obtain ⟨rfl, rfl⟩ := hchange
  obtain ⟨payloads, hfound, hrevised⟩ :=
    entity?_reviseTypeChange_compile fetch settings d he he' hrecords
  refine ⟨payloads, hfound, ?_⟩
  rw [hrevised, List.forall₂_iff_get]
  refine ⟨(List.length_mapIdx ..).symm, fun i hi _ payload hok => ?_⟩
  simp only [List.get_eq_getElem, List.getElem_mapIdx] at hok ⊢
  exact attachedFor_reviseRecord_iff fetch settings hmedia (List.getElem?_eq_getElem hi)
    (notMem_mediaNames_of_changeType ht h he' settings.reserved records[i]) hok

end Revise

/-! ## Files that stay, and files out of order -/

/-- A media asset at an address. -/
def assetAt (url : String) : Json.Value :=
  let rendition : Json.Members :=
    [("name", .string "a"), ("hash", .string "h"), ("ext", .string ".jpg"),
      ("mime", .string "image/jpeg"), ("url", .string url), ("width", .number (.integer 1)),
      ("height", .number (.integer 1)), ("size", .number (.integer 1))]
  .object (rendition ++
    [("id", .string "1"), ("alternativeText", .string ""), ("caption", .string ""),
      ("provider", .string "local"), ("createdAt", .string "2020-11-19"),
      ("updatedAt", .string "2020-11-19"), ("__v", .number (.integer 0)),
      ("formats", .object [("thumbnail", .object rendition)])])

/-- Posts with a cover, a gallery and an author. -/
def picturesSchema : Schema :=
  ⟨[⟨"posts", [Field.fresh "cover" .media, Field.fresh "gallery" .media,
    Field.fresh "author" .component]⟩]⟩

/-- A post with both pictures. -/
def picturesPost : Record :=
  [("cover", assetAt "/a.jpg"), ("gallery", assetAt "/b.jpg"),
    ("author", .object [("id", .string "1")])]

/-- Every asset can be fetched. -/
def everywhere : Fetcher :=
  fun url => .ok ⟨Text.utf8 url, none⟩

/-- The author of a post becomes a relation. -/
def authorChange : TypeChange :=
  ⟨"posts", Field.fresh "author" .component, Field.ofRelation "author"⟩

/-- Moving the gallery before the cover and making the author a relation leaves the files of a post in
the order in which the fields stood; none is missing. -/
theorem attachedFor_reviseTypeChange_iff_reorder :
    let posts : EntitySchema := ⟨"posts", [Field.fresh "gallery" .media, Field.fresh "cover" .media,
      Field.ofRelation "author"]⟩
    let dataset : Dataset := ⟨[("posts", [picturesPost])]⟩
    let revised := (reviseTypeChange everywhere .standard ⟨[posts]⟩ dataset authorChange
      (compile everywhere .standard picturesSchema dataset).result).result
    picturesSchema.DistinctNames ∧
      ([Edit.reorder "posts" 1 (some 0)].foldl Edit.run picturesSchema).changeType "posts" "author"
        .relation = .ok (authorChange, ⟨[posts]⟩) ∧
      ∃ payload, revised.entities = [⟨"posts", [⟨0, .ok payload⟩]⟩] ∧
        (∀ name ∈ ["gallery", "cover"], name ∈ payload.files.map Attachment.field) ∧
        ¬ payload.AttachedFor Reserved.standard posts picturesPost := by
  intro posts dataset revised
  have hs : picturesSchema.DistinctNames := by decide
  have h : ([Edit.reorder "posts" 1 (some 0)].foldl Edit.run picturesSchema).changeType "posts"
      "author" .relation = .ok (authorChange, ⟨[posts]⟩) := by decide
  let payload : Payload := ⟨[("author", relationPlaceholder)],
    [⟨"cover", "a", "image/jpeg", Text.utf8 "/a.jpg"⟩, ⟨"gallery", "a", "image/jpeg", Text.utf8 "/b.jpg"⟩]⟩
  have hrevised : revised.entities = [⟨"posts", [⟨0, .ok payload⟩]⟩] := by decide +kernel
  obtain ⟨e, e', he, he', hrecords⟩ :=
    attachedFor_reviseTypeChange_iff everywhere .standard dataset hs _ h
  obtain rfl : _ = e := Option.some.inj he
  obtain rfl : _ = e' := Option.some.inj he'
  obtain ⟨payloads, hfound, hpayloads⟩ := hrecords [picturesPost] rfl
  rw [CompiledPayloads.entity?, hrevised] at hfound
  obtain rfl : _ = payloads := Option.some.inj hfound
  obtain ⟨hiff, hnames⟩ := (List.forall₂_cons.mp hpayloads).1 payload rfl
  refine ⟨hs, h, payload, hrevised, fun name hname => hnames name ?_, fun hattached => ?_⟩
  · have hmedia : posts.mediaNames .standard picturesPost = ["gallery", "cover"] := by decide
    exact hmedia ▸ hname
  · have hfirst : (compileRecord everywhere .standard (Partition.of Reserved.standard
        ⟨"posts", [Field.fresh "cover" .media, Field.fresh "gallery" .media,
          Field.fresh "author" .component]⟩) picturesPost).result =
        .ok ⟨[], payload.files⟩ := by decide +kernel
    exact absurd (hiff.mp hattached ⟨_, hfirst⟩) (by decide)

/-- Removing the cover and making the author a relation leaves the file of the cover in the payload of a
post, which has no such field any more. -/
theorem not_attachedFor_of_removeField :
    let posts : EntitySchema := ⟨"posts", [Field.fresh "gallery" .media, Field.ofRelation "author"]⟩
    let dataset : Dataset := ⟨[("posts", [picturesPost])]⟩
    let revised := (reviseTypeChange everywhere .standard ⟨[posts]⟩ dataset authorChange
      (compile everywhere .standard picturesSchema dataset).result).result
    picturesSchema.DistinctNames ∧
      ([Edit.removeField "posts" "cover"].foldl Edit.run picturesSchema).changeType "posts" "author"
        .relation = .ok (authorChange, ⟨[posts]⟩) ∧
      posts.mediaNames .standard picturesPost = ["gallery"] ∧
      ∃ payload ∈ revised.entities.flatMap EntityPayloads.payloads,
        payload.files.map Attachment.field = ["cover", "gallery"] ∧
        ¬ payload.AttachedFor .standard posts picturesPost := by
  decide +kernel

end ContentModel
