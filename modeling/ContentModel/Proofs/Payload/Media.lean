import ContentModel.Payload.Compile
import ContentModel.Proofs.Records
import ContentModel.Proofs.Traversal

/-
# The media of a record

Compiling a record goes over its media twice: first all values are checked, then all assets are
fetched.  Nothing is left out: a payload has one file for each media value of the record, and a record
with a value that is no asset, or whose asset cannot be fetched, has no payload.

Main statements: `compileRecord_result_eq` (the two passes as one), `mediaAssets_eq_mapM` (both read
the media fields in order) and `compileRecord_classifies` (which record has a payload, with which
files, and which error any other record has).
-/

namespace ContentModel

open Recognition

/-! ## Media fields and their assets -/

/-- The media fields of an entity that are not reserved and for which a record holds a value. -/
def EntitySchema.mediaFields (reserved : Reserved) (e : EntitySchema) (record : Record) :
    List Field :=
  e.fields.filter fun f =>
    f.type = .media ∧ f.name ∉ reserved.fields ∧ record.value? f.name ≠ none

/-- The record holds the asset in the field. -/
def Holds (record : Record) (f : Field) (asset : MediaAsset) : Prop :=
  ∃ v, record.value? f.name = some v ∧ MediaAsset.ofValue v = .ok asset

/-- The address from which an asset is fetched. -/
def CompileSettings.assetUrl (settings : CompileSettings) (asset : MediaAsset) : String :=
  resolveAssetUrl settings.assetBaseUrl asset.url

/-- The attachment is the file of the asset that the record holds in the field.  Its media type is
that of the asset; if the asset has none, it is the one that the host reported, if any. -/
def AttachedAs (fetch : Fetcher) (settings : CompileSettings) (record : Record) (f : Field)
    (a : Attachment) : Prop :=
  ∃ asset got, Holds record f asset ∧ fetch (settings.assetUrl asset) = .ok got ∧
    a = { field := f.name
          fileName := asset.name
          mime := if asset.mime = "" then got.contentType.getD "" else asset.mime
          content := got.content }

/-! ## The first pass: checking -/

/-- Checks the value that a record holds in a field. -/
def checkField (record : Record) (f : Field) : Except CompileError (String × MediaAsset) :=
  checkMedia (f.name, (record.value? f.name).getD .null)

/-- The media values of a record are those of its media fields. -/
theorem mediaValues_eq_map (reserved : Reserved) (e : EntitySchema) (record : Record) :
    mediaValues (Partition.of reserved e) record =
      (e.mediaFields reserved record).map fun f =>
        (f.name, (record.value? f.name).getD .null) := by
  rw [mediaValues, Partition.of, EntitySchema.mediaFields, ← List.filterMap_eq_map']
  simp only [List.filterMap_filter]
  congr 1
  funext f
  have hvalue : (Keyed.get? f.name record).bind Json.Value.nonNull? = record.value? f.name := rfl
  by_cases hr : f.name ∈ reserved.fields
  · simp [Reserved.hasField, hr]
  · by_cases ht : f.type = .media
    · cases hv : record.value? f.name <;> simp [Reserved.hasField, hr, ht, hv, hvalue]
    · simp [hr, ht]

/-- The assets of a record are read off its media fields in order. -/
theorem mediaAssets_eq_mapM (reserved : Reserved) (e : EntitySchema) (record : Record) :
    mediaAssets (Partition.of reserved e) record =
      (e.mediaFields reserved record).mapM (checkField record) := by
  rw [mediaAssets, mediaValues_eq_map, List.mapM_map]
  rfl

section CheckField

variable {record : Record} {f : Field}

/-- A check succeeds exactly with the name of the field and the asset that the record holds in it. -/
theorem checkField_eq_ok_iff (hf : record.value? f.name ≠ none) {named : String × MediaAsset} :
    checkField record f = .ok named ↔ named.1 = f.name ∧ Holds record f named.2 := by
  obtain ⟨v, hv⟩ := Option.ne_none_iff_exists'.mp hf
  obtain ⟨name, asset⟩ := named
  rw [checkField, hv, Option.getD_some, checkMedia, Holds]
  cases hasset : MediaAsset.ofValue v <;> simp [hv, hasset, eq_comm]

/-- A check fails exactly with the rejection of the value that the record holds in the field. -/
theorem checkField_eq_error_iff (hf : record.value? f.name ≠ none) {error : CompileError} :
    checkField record f = .error error ↔ ∃ v reason, record.value? f.name = some v ∧
      MediaAsset.ofValue v = .error reason ∧ error = .invalidMedia f.name reason := by
  obtain ⟨v, hv⟩ := Option.ne_none_iff_exists'.mp hf
  rw [checkField, hv, Option.getD_some, checkMedia]
  cases hasset : MediaAsset.ofValue v <;> simp [hasset, eq_comm]

end CheckField

/-- Every media field of a record has a value there. -/
theorem value?_ne_none_of_mem {reserved : Reserved} {e : EntitySchema} {record : Record} {f : Field}
    (h : f ∈ e.mediaFields reserved record) : record.value? f.name ≠ none := by
  simp only [EntitySchema.mediaFields, List.mem_filter, decide_eq_true_eq] at h
  exact h.2.2.2

/-! ## The second pass: fetching -/

/-- Fetches the asset of a field by its name. -/
def attachNamed (fetch : Fetcher) (settings : CompileSettings) (named : String × MediaAsset) :
    Except CompileError Attachment :=
  attach fetch settings.assetBaseUrl named.1 named.2

/-- Checks the value that a record holds in a field, and fetches its asset. -/
def attachField (fetch : Fetcher) (settings : CompileSettings) (record : Record) (f : Field) :
    Except CompileError Attachment :=
  checkField record f >>= attachNamed fetch settings

section AttachField

variable {fetch : Fetcher} {settings : CompileSettings} {record : Record} {f : Field}
  {asset : MediaAsset}

/-- An asset that is held is attached as what its host answers. -/
theorem attachField_of_ok (h : Holds record f asset) {got : FetchedAsset}
    (hgot : fetch (settings.assetUrl asset) = .ok got) :
    attachField fetch settings record f =
      .ok ⟨f.name, asset.name, attachmentMime asset.mime got.contentType, got.content⟩ := by
  obtain ⟨v, hv, hasset⟩ := h
  have hurl : fetch (resolveAssetUrl settings.assetBaseUrl asset.url) = .ok got := hgot
  simp [attachField, checkField, hv, checkMedia, hasset, attachNamed, attach, hurl, bind, Except.bind]

/-- An asset that is held and cannot be fetched is reported with its address. -/
theorem attachField_of_error (h : Holds record f asset) {error : FetchError}
    (herror : fetch (settings.assetUrl asset) = .error error) :
    attachField fetch settings record f =
      .error (.mediaFetch f.name (settings.assetUrl asset) error) := by
  obtain ⟨v, hv, hasset⟩ := h
  have hurl : fetch (resolveAssetUrl settings.assetBaseUrl asset.url) = .error error := herror
  simp [attachField, checkField, hv, checkMedia, hasset, attachNamed, attach, hurl, bind, Except.bind,
    CompileSettings.assetUrl]

/-- The media type of an attachment, in other words. -/
theorem attachmentMime_eq (mime : String) (reported : Option String) :
    attachmentMime mime reported = if mime = "" then reported.getD "" else mime := by
  cases reported <;> by_cases h : mime = "" <;> simp [attachmentMime, h]

/-- What is attached for a field is the file of the asset held in it. -/
theorem attachField_eq_ok_iff (hf : record.value? f.name ≠ none) {a : Attachment} :
    attachField fetch settings record f = .ok a ↔ AttachedAs fetch settings record f a := by
  constructor
  · intro ha
    cases hcheck : checkField record f with
    | error error =>
      rw [attachField, hcheck] at ha
      cases ha
    | ok named =>
      have h : Holds record f named.2 := ((checkField_eq_ok_iff hf).mp hcheck).2
      cases hfetch : fetch (settings.assetUrl named.2) with
      | error error =>
        rw [attachField_of_error h hfetch] at ha
        cases ha
      | ok got =>
        rw [attachField_of_ok h hfetch, attachmentMime_eq, Except.ok.injEq] at ha
        exact ⟨named.2, got, h, hfetch, ha.symm⟩
  · rintro ⟨asset, got, h, hfetch, rfl⟩
    rw [attachField_of_ok h hfetch, attachmentMime_eq]

end AttachField

/-! ## The outcome of a record -/

section Outcome

variable (fetch : Fetcher) (settings : CompileSettings)

/-- A record whose check fails has the error of the check, and nothing is fetched for it. -/
theorem compileRecord_of_rejected {p : Partition} {record : Record} {error : CompileError}
    (h : mediaAssets p record = .error error) :
    (compileRecord fetch settings p record).result = .error error ∧
      (compileRecord fetch settings p record).fetched = [] := by
  rw [compileRecord, h]
  exact ⟨rfl, rfl⟩

/-- A record whose check succeeds has what attaching its assets comes to, and each asset is fetched
once. -/
theorem compileRecord_of_checked {p : Partition} {record : Record}
    {assets : List (String × MediaAsset)} (h : mediaAssets p record = .ok assets) :
    (compileRecord fetch settings p record).result =
        (assets.mapM (attachNamed fetch settings)).map
          (Payload.mk (compileData settings.reserved p record)) ∧
      (compileRecord fetch settings p record).fetched =
        assets.map fun named => settings.assetUrl named.2 := by
  rw [compileRecord, h]
  exact ⟨rfl, rfl⟩

variable (e : EntitySchema) (record : Record)

/-- Every value of the media fields is an asset if and only if the check of the record succeeds. -/
theorem forall_holds_iff (reserved : Reserved) :
    (∀ f ∈ e.mediaFields reserved record, ∃ asset, Holds record f asset) ↔
      ∃ assets, mediaAssets (Partition.of reserved e) record = .ok assets := by
  rw [mediaAssets_eq_mapM, exists_mapM_eq_ok_iff]
  refine forall₂_congr fun f hf => ?_
  have hvalue := value?_ne_none_of_mem hf
  constructor
  · rintro ⟨asset, h⟩
    exact ⟨(f.name, asset), (checkField_eq_ok_iff hvalue).mpr ⟨rfl, h⟩⟩
  · rintro ⟨named, h⟩
    exact ⟨named.2, ((checkField_eq_ok_iff hvalue).mp h).2⟩

/-- **Both passes at once.**  Where every media value is an asset, the result of a record is what
attaching its media fields in order comes to. -/
theorem compileRecord_result_eq
    (h : ∀ f ∈ e.mediaFields settings.reserved record, ∃ asset, Holds record f asset) :
    (compileRecord fetch settings (Partition.of settings.reserved e) record).result =
      ((e.mediaFields settings.reserved record).mapM (attachField fetch settings record)).map
        (Payload.mk (compileData settings.reserved (Partition.of settings.reserved e) record)) := by
  obtain ⟨assets, hassets⟩ := (forall_holds_iff e record settings.reserved).mp h
  rw [(compileRecord_of_checked fetch settings hassets).1]
  rw [mediaAssets_eq_mapM] at hassets
  rw [mapM_of_mapM_eq_ok hassets]
  rfl

/-- Attaching the media fields of a record in order succeeds exactly with the files of the assets
held in them. -/
theorem mapM_attachField_eq_ok_iff (files : List Attachment) :
    (e.mediaFields settings.reserved record).mapM (attachField fetch settings record) = .ok files ↔
      List.Forall₂ (AttachedAs fetch settings record) (e.mediaFields settings.reserved record)
        files := by
  rw [mapM_eq_ok_iff]
  constructor
  · refine forall₂_imp_of_mem fun f hf a ha => ?_
    exact (attachField_eq_ok_iff (value?_ne_none_of_mem hf)).mp ha
  · refine forall₂_imp_of_mem fun f hf a ha => ?_
    exact (attachField_eq_ok_iff (value?_ne_none_of_mem hf)).mpr ha

/-- **Success.**  A record has a payload exactly if its media fields have attachments, and then it is
the payload of these attachments. -/
theorem compileRecord_eq_ok_iff (payload : Payload) :
    (compileRecord fetch settings (Partition.of settings.reserved e) record).result = .ok payload ↔
      payload.data = compileData settings.reserved (Partition.of settings.reserved e) record ∧
        List.Forall₂ (AttachedAs fetch settings record) (e.mediaFields settings.reserved record)
          payload.files := by
  obtain ⟨data, files⟩ := payload
  rw [← mapM_attachField_eq_ok_iff]
  by_cases h : ∀ f ∈ e.mediaFields settings.reserved record, ∃ asset, Holds record f asset
  · rw [compileRecord_result_eq fetch settings e record h]
    cases (e.mediaFields settings.reserved record).mapM (attachField fetch settings record) with
    | error error => simp [Except.map]
    | ok files' => simp [Except.map, eq_comm]
  · -- A value that is no asset fails the check, and attaching it fails as well.
    constructor
    · intro hok
      rw [forall_holds_iff] at h
      cases hassets : mediaAssets (Partition.of settings.reserved e) record with
      | ok assets => exact absurd ⟨assets, hassets⟩ h
      | error error =>
        rw [(compileRecord_of_rejected fetch settings hassets).1] at hok
        cases hok
    · rintro ⟨-, hfiles⟩
      refine absurd ?_ h
      intro f hf
      obtain ⟨a, ha⟩ := (exists_mapM_eq_ok_iff _ _).mp ⟨files, hfiles⟩ f hf
      obtain ⟨asset, -, hasset, -⟩ := (attachField_eq_ok_iff (value?_ne_none_of_mem hf)).mp ha
      exact ⟨asset, hasset⟩

/-- **A value that is no asset.**  The record has the rejection of the first such value as its error,
and nothing is fetched for it. -/
theorem compileRecord_of_not_holds
    (h : ∃ f ∈ e.mediaFields settings.reserved record, ∀ asset, ¬ Holds record f asset) :
    ∃ before f after v reason,
      e.mediaFields settings.reserved record = before ++ f :: after ∧
      (∀ g ∈ before, ∃ asset, Holds record g asset) ∧
      record.value? f.name = some v ∧ MediaAsset.ofValue v = .error reason ∧
      (compileRecord fetch settings (Partition.of settings.reserved e) record).result =
        .error (.invalidMedia f.name reason) ∧
      (compileRecord fetch settings (Partition.of settings.reserved e) record).fetched = [] := by
  -- The check reads the media fields in order, so its first failure is that of the first of them.
  cases hassets : mediaAssets (Partition.of settings.reserved e) record with
  | ok assets =>
    obtain ⟨f, hf, hnone⟩ := h
    obtain ⟨asset, hasset⟩ := (forall_holds_iff e record settings.reserved).mpr ⟨assets, hassets⟩ f hf
    exact absurd hasset (hnone asset)
  | error error =>
    obtain ⟨hresult, hfetched⟩ := compileRecord_of_rejected fetch settings hassets
    rw [mediaAssets_eq_mapM] at hassets
    obtain ⟨before, f, after, hsplit, hbefore, hf⟩ := (mapM_eq_error_iff _ _ error).mp hassets
    have hmem : ∀ g ∈ before ++ f :: after, record.value? g.name ≠ none := by
      intro g hg
      rw [← hsplit] at hg
      exact value?_ne_none_of_mem hg
    obtain ⟨v, reason, hv, hreason, rfl⟩ := (checkField_eq_error_iff (hmem f (by simp))).mp hf
    refine ⟨before, f, after, v, reason, hsplit, ?_, hv, hreason, hresult, hfetched⟩
    intro g hg
    obtain ⟨named, hnamed⟩ := hbefore g hg
    have hvalue := hmem g (List.mem_append_left _ hg)
    exact ⟨named.2, ((checkField_eq_ok_iff hvalue).mp hnamed).2⟩

/-- Where every media value is an asset, each media field is fetched once, in order. -/
theorem fetched_of_forall_holds
    (h : ∀ f ∈ e.mediaFields settings.reserved record, ∃ asset, Holds record f asset) :
    List.Forall₂ (fun f url => ∃ asset, Holds record f asset ∧ url = settings.assetUrl asset)
      (e.mediaFields settings.reserved record)
      (compileRecord fetch settings (Partition.of settings.reserved e) record).fetched := by
  obtain ⟨assets, hassets⟩ := (forall_holds_iff e record settings.reserved).mp h
  rw [(compileRecord_of_checked fetch settings hassets).2, List.forall₂_map_right_iff]
  rw [mediaAssets_eq_mapM, mapM_eq_ok_iff] at hassets
  refine forall₂_imp_of_mem (fun f hf named hnamed => ?_) hassets
  exact ⟨named.2, ((checkField_eq_ok_iff (value?_ne_none_of_mem hf)).mp hnamed).2, rfl⟩

/-- **An asset that cannot be fetched.**  Where every media value is an asset, the record has the
first failure to fetch as its error. -/
theorem compileRecord_of_unfetched
    (h : ∀ f ∈ e.mediaFields settings.reserved record, ∃ asset, Holds record f asset)
    (hfail : ∃ f ∈ e.mediaFields settings.reserved record, ∃ asset error, Holds record f asset ∧
      fetch (settings.assetUrl asset) = .error error) :
    ∃ before f after asset error,
      e.mediaFields settings.reserved record = before ++ f :: after ∧
      (∀ g ∈ before, ∃ a, AttachedAs fetch settings record g a) ∧
      Holds record f asset ∧ fetch (settings.assetUrl asset) = .error error ∧
      (compileRecord fetch settings (Partition.of settings.reserved e) record).result =
        .error (.mediaFetch f.name (settings.assetUrl asset) error) := by
  rw [compileRecord_result_eq fetch settings e record h]
  cases hfiles : (e.mediaFields settings.reserved record).mapM
      (attachField fetch settings record) with
  | ok files =>
    obtain ⟨f, hf, asset, error, hasset, herror⟩ := hfail
    obtain ⟨a, ha⟩ := (exists_mapM_eq_ok_iff _ _).mp ⟨files, hfiles⟩ f hf
    rw [attachField_of_error hasset herror] at ha
    cases ha
  | error error =>
    obtain ⟨before, f, after, hsplit, hbefore, hf⟩ := (mapM_eq_error_iff _ _ error).mp hfiles
    have hmem : ∀ g ∈ before ++ f :: after, g ∈ e.mediaFields settings.reserved record := by
      intro g hg
      rwa [hsplit]
    obtain ⟨asset, hasset⟩ := h f (hmem f (by simp))
    have hattached : ∀ g ∈ before, ∃ a, AttachedAs fetch settings record g a := by
      intro g hg
      obtain ⟨a, ha⟩ := hbefore g hg
      have hvalue := value?_ne_none_of_mem (hmem g (List.mem_append_left _ hg))
      exact ⟨a, (attachField_eq_ok_iff hvalue).mp ha⟩
    cases hfetch : fetch (settings.assetUrl asset) with
    | ok got =>
      rw [attachField_of_ok hasset hfetch] at hf
      cases hf
    | error fetchError =>
      rw [attachField_of_error hasset hfetch, Except.error.injEq] at hf
      subst hf
      exact ⟨before, f, after, asset, fetchError, hsplit, hattached, hasset, hfetch, rfl⟩

end Outcome

/-- **No attachment is silently missing.**  A record has a payload if and only if each of its media
fields holds an asset that can be fetched, and then the payload has exactly the files of these fields,
in order.  A value that is no asset is reported for the first such field, before anything is fetched;
otherwise each field is fetched once, and the first failure is reported. -/
theorem compileRecord_classifies (fetch : Fetcher) (settings : CompileSettings) (e : EntitySchema)
    (record : Record) :
    let media := e.mediaFields settings.reserved record
    let compiled := compileRecord fetch settings (Partition.of settings.reserved e) record
    ((∃ payload, compiled.result = .ok payload) ↔
      ∀ f ∈ media, ∃ asset got, Holds record f asset ∧
        fetch (settings.assetUrl asset) = .ok got) ∧
    (∀ payload, compiled.result = .ok payload →
      payload.data = compileData settings.reserved (Partition.of settings.reserved e) record ∧
        List.Forall₂ (AttachedAs fetch settings record) media payload.files) ∧
    ((∃ f ∈ media, ∀ asset, ¬ Holds record f asset) →
      ∃ before f after v reason, media = before ++ f :: after ∧
        (∀ g ∈ before, ∃ asset, Holds record g asset) ∧
        record.value? f.name = some v ∧ MediaAsset.ofValue v = .error reason ∧
        compiled.result = .error (.invalidMedia f.name reason) ∧ compiled.fetched = []) ∧
    ((∀ f ∈ media, ∃ asset, Holds record f asset) →
      List.Forall₂ (fun f url => ∃ asset, Holds record f asset ∧ url = settings.assetUrl asset) media
        compiled.fetched ∧
      ((∃ f ∈ media, ∃ asset error, Holds record f asset ∧
          fetch (settings.assetUrl asset) = .error error) →
        ∃ before f after asset error, media = before ++ f :: after ∧
          (∀ g ∈ before, ∃ a, AttachedAs fetch settings record g a) ∧
          Holds record f asset ∧ fetch (settings.assetUrl asset) = .error error ∧
          compiled.result = .error (.mediaFetch f.name (settings.assetUrl asset) error))) := by
  intro media compiled
  have hok := compileRecord_eq_ok_iff fetch settings e record
  refine ⟨⟨?_, ?_⟩, fun payload h => (hok payload).mp h,
    compileRecord_of_not_holds fetch settings e record, fun h =>
      ⟨fetched_of_forall_holds fetch settings e record h,
        compileRecord_of_unfetched fetch settings e record h⟩⟩
  · rintro ⟨payload, h⟩ f hf
    have hfiles := (mapM_attachField_eq_ok_iff ..).mpr ((hok payload).mp h).2
    obtain ⟨a, ha⟩ := (exists_mapM_eq_ok_iff _ _).mp ⟨_, hfiles⟩ f hf
    obtain ⟨asset, got, hasset, hgot, -⟩ :=
      (attachField_eq_ok_iff (value?_ne_none_of_mem hf)).mp ha
    exact ⟨asset, got, hasset, hgot⟩
  · intro h
    have heach : ∀ f ∈ media, ∃ a, attachField fetch settings record f = .ok a := by
      intro f hf
      obtain ⟨asset, got, hasset, hgot⟩ := h f hf
      exact ⟨_, attachField_of_ok hasset hgot⟩
    obtain ⟨files, hfiles⟩ := (exists_mapM_eq_ok_iff _ _).mpr heach
    rw [mapM_attachField_eq_ok_iff] at hfiles
    exact ⟨⟨_, files⟩, (hok _).mpr ⟨rfl, hfiles⟩⟩

end ContentModel
