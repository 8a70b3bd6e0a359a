import ContentModel.Payload.Basic
import ContentModel.Payload.Data
import ContentModel.Schema.Edit
import ContentModel.Settings.Basic
import ContentModel.Text.Blank

/-
# Compiling payloads

All media values of a record are checked before any is fetched, all are fetched even if one fails, and
the first failure in the order of the fields is the record's.  Compiling shows, next to its result, the
addresses fetched and the lines logged.

After a change of a field's type the payloads of its entity are revised: data are built anew, the
attachments of the changed field are dropped, and records without a payload are compiled again.
-/

namespace ContentModel

open Recognition

/-! ## Assets -/

/-- What a host answers for an asset. -/
structure FetchedAsset where
  content : Bytes
  contentType : Option String
  deriving DecidableEq, Repr, Inhabited

/-- A source of assets: what each address answers. -/
abbrev Fetcher := String → Except FetchError FetchedAsset

/-- The address of an asset.  One without a protocol is relative to the base, if there is a base. -/
def resolveAssetUrl (base : Option String) (url : String) : String :=
  if url.startsWith "http://" || url.startsWith "https://" then url
  else match base with
    | some base => Text.joinSlash base url
    | none => url

/-- The media type of an attachment: that of the asset, or what the host reported if the asset has
none. -/
def attachmentMime (assetMime : String) (contentType : Option String) : String :=
  match contentType with
  | some reported => if assetMime = "" then reported else assetMime
  | none => assetMime

/-- Fetches the asset of a field. -/
def attach (fetch : Fetcher) (base : Option String) (field : String) (asset : MediaAsset) :
    Except CompileError Attachment :=
  let url := resolveAssetUrl base asset.url
  match fetch url with
  | .ok fetched =>
    .ok ⟨field, asset.name, attachmentMime asset.mime fetched.contentType, fetched.content⟩
  | .error e => .error (.mediaFetch field url e)

/-- The media values of a record that are there, with the names of their fields. -/
def mediaValues (p : Partition) (record : Record) : List (String × Json.Value) :=
  p.media.filterMap fun f =>
    ((Keyed.get? f.name record).bind Json.Value.nonNull?).map fun v => (f.name, v)

/-- Checks a media value. -/
def checkMedia (media : String × Json.Value) : Except CompileError (String × MediaAsset) :=
  match MediaAsset.ofValue media.2 with
  | .ok asset => .ok (media.1, asset)
  | .error reason => .error (.invalidMedia media.1 reason)

/-- The assets of a record, if all its media values are assets. -/
def mediaAssets (p : Partition) (record : Record) :
    Except CompileError (List (String × MediaAsset)) :=
  (mediaValues p record).mapM checkMedia

/-! ## Results with what was fetched and logged -/

/-- A result, the addresses fetched and the lines logged on the way. -/
structure Traced (α : Type) where
  result : α
  fetched : List String
  log : List LogLine
  deriving Repr, Inhabited

namespace Traced

/-- Changes the result only. -/
def map {α β : Type} (f : α → β) (t : Traced α) : Traced β :=
  ⟨f t.result, t.fetched, t.log⟩

/-- Logs more lines. -/
def addLog {α : Type} (lines : List LogLine) (t : Traced α) : Traced α :=
  { t with log := t.log ++ lines }

/-- The results of several operations, one after the other. -/
def sequence {α : Type} (ts : List (Traced α)) : Traced (List α) :=
  ⟨ts.map result, ts.flatMap fetched, ts.flatMap log⟩

end Traced

/-! ## Compiling -/

/-- Compiles one record. -/
def compileRecord (fetch : Fetcher) (settings : CompileSettings) (p : Partition) (record : Record) :
    Traced (Except CompileError Payload) :=
  let data := compileData settings.reserved p record
  let log := dataWarnings settings.reserved p record
  match mediaAssets p record with
  | .error e => ⟨.error e, [], log⟩
  | .ok assets =>
    let files := assets.mapM fun (field, asset) => attach fetch settings.assetBaseUrl field asset
    let urls := assets.map fun (_, asset) => resolveAssetUrl settings.assetBaseUrl asset.url
    ⟨files.map fun files => ⟨data, files⟩, urls, log⟩

/-- The warning about a record without a payload. -/
def failureWarning (entity : String) (index : Nat) (e : CompileError) : LogLine :=
  .warn ("Record " ++ Nat.repr index ++ " of '" ++ entity ++ "' failed: " ++ e.message)

/-- Compiles the record at an index of an entity. -/
def compileRecordAt (fetch : Fetcher) (settings : CompileSettings) (entity : String) (p : Partition)
    (index : Nat) (record : Record) : Traced CompiledRecord :=
  let compiled := compileRecord fetch settings p record
  let warnings :=
    match compiled.result with
    | .ok _ => []
    | .error e => [failureWarning entity index e]
  (compiled.map fun outcome => ⟨index, outcome⟩).addLog warnings

/-- Compiles the records of an entity. -/
def compileEntity (fetch : Fetcher) (settings : CompileSettings) (e : EntitySchema)
    (records : List Record) : Traced EntityPayloads :=
  let p := Partition.of settings.reserved e
  (Traced.sequence (records.mapIdx (compileRecordAt fetch settings e.name p))).map fun records =>
    ⟨e.name, records⟩

/-- Compiles the records that a dataset has for an entity, if it has that entity. -/
def compileEntityOf (fetch : Fetcher) (settings : CompileSettings) (d : Dataset)
    (e : EntitySchema) : Traced (Option EntityPayloads) :=
  match d.records? e.name with
  | some records => (compileEntity fetch settings e records).map some
  | none =>
    ⟨none, [], [.warn ("Entity '" ++ e.name ++ "' has no records in the dataset, skipping")]⟩

/-- The lines logged at the end of a compilation. -/
def compilationLog (c : CompiledPayloads) : List LogLine :=
  let failed := c.failures.length
  (if failed = 0 then [] else [.warn (failedMessage failed)]) ++
    [.inform ("Compiled " ++ Nat.repr c.compiledCount ++ " payload(s)")]

/-- Compiles the records of all entities of a schema that a dataset has. -/
def compile (fetch : Fetcher) (settings : CompileSettings) (s : Schema) (d : Dataset) :
    Traced CompiledPayloads :=
  let compiled := (Traced.sequence (s.entities.map (compileEntityOf fetch settings d))).map
    fun entities => CompiledPayloads.mk (entities.filterMap id)
  compiled.addLog (compilationLog compiled.result)

/-! ## Revising -/

/-- Brings the outcome of one record in line with a changed entity. -/
def reviseRecord (fetch : Fetcher) (settings : CompileSettings) (p : Partition) (changed : String)
    (records : List Record) (compiled : CompiledRecord) : Traced CompiledRecord :=
  match records[compiled.index]? with
  | none => ⟨compiled, [], []⟩
  | some record =>
    match compiled.outcome with
    | .ok payload =>
      let files := payload.files.filter fun a => a.field ≠ changed
      ⟨{ compiled with outcome := .ok ⟨compileData settings.reserved p record, files⟩ }, [],
        dataWarnings settings.reserved p record⟩
    | .error _ =>
      (compileRecord fetch settings p record).map fun outcome => { compiled with outcome }

/-- Brings the payloads of a changed entity in line with the schema, which carries the change. -/
def reviseTypeChange (fetch : Fetcher) (settings : CompileSettings) (s : Schema) (d : Dataset)
    (change : TypeChange) (c : CompiledPayloads) : Traced CompiledPayloads :=
  match s.entity? change.entity, d.records? change.entity, c.entity? change.entity with
  | some e, some records, some payloads =>
    let p := Partition.of settings.reserved e
    let revised := Traced.sequence
      (payloads.records.map (reviseRecord fetch settings p change.field records))
    revised.map fun records =>
      ⟨replaceFirst (fun e => e.entity = change.entity) ⟨payloads.entity, records⟩ c.entities⟩
  | _, _, _ => ⟨c, [], []⟩

end ContentModel
