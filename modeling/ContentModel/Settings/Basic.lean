import ContentModel.Schema.Codec
import ContentModel.Schema.Inference

/-
# Settings

What to infer, to export and to compile with, and the migration's own settings, from which the other
three follow.  Each has an encoding as a JSON value and a reader of documents.
-/

namespace ContentModel

open Notation (Node)

/-! ## Kinds of settings -/

/-- How to export definitions. -/
structure ExportSettings where
  /-- Fields of reserved names are not exported. -/
  reserved : Reserved
  draftAndPublish : Bool
  componentIcon : String
  /-- The kinds of files that a media attribute allows. -/
  mediaAllowedTypes : List String
  deriving DecidableEq, Repr, Inhabited

/-- How to compile payloads. -/
structure CompileSettings where
  /-- Fields of reserved names are not compiled. -/
  reserved : Reserved
  /-- What relative addresses of assets are resolved against. -/
  assetBaseUrl : Option String
  /-- How many records may be compiled at once, which no answer depends on. -/
  maxConcurrentRecords : Nat
  deriving DecidableEq, Repr, Inhabited

/-- The settings of a migration. -/
structure Settings where
  /-- The address of the source system. -/
  endpoint : String
  /-- The routes to dump, each an entity. -/
  routes : List String
  /-- The address of the target system. -/
  migrationEndpoint : String
  reserved : Reserved
  deriving DecidableEq, Repr, Inhabited

/-! ## Standard settings -/

namespace ExportSettings

/-- What is exported unless settings say otherwise. -/
def standard : ExportSettings where
  reserved := .standard
  draftAndPublish := false
  componentIcon := "apps"
  mediaAllowedTypes := ["images", "files", "videos", "audios"]

end ExportSettings

namespace CompileSettings

/-- What is compiled unless settings say otherwise. -/
def standard : CompileSettings where
  reserved := .standard
  assetBaseUrl := none
  maxConcurrentRecords := 8

/-- Sets how many records may be compiled at once, at least one. -/
def withMaxConcurrentRecords (n : Nat) (c : CompileSettings) : CompileSettings :=
  { c with maxConcurrentRecords := max n 1 }

end CompileSettings

namespace Settings

/-- The address of a system on this machine. -/
def localEndpoint : String :=
  "http://localhost:1337"

/-- The settings when nothing is set. -/
def standard : Settings where
  endpoint := localEndpoint
  routes := []
  migrationEndpoint := localEndpoint
  reserved := .standard

/-- How to infer under these settings. -/
def inference (s : Settings) : InferenceSettings :=
  { InferenceSettings.standard with reserved := s.reserved }

/-- How to export under these settings. -/
def exporting (s : Settings) : ExportSettings :=
  { ExportSettings.standard with reserved := s.reserved }

/-- How to compile under these settings: assets come from the source system. -/
def compiling (s : Settings) : CompileSettings :=
  { CompileSettings.standard with reserved := s.reserved, assetBaseUrl := some s.endpoint }

end Settings

/-! ## Encoding -/

/-- A natural number as a JSON value. -/
def countValue (n : Nat) : Json.Value :=
  .number (.integer n)

/-- Settings of inference as a JSON value. -/
def InferenceSettings.toValue (s : InferenceSettings) : Json.Value :=
  .object [("sampleSize", countValue s.sampleSize), ("reserved", s.reserved.toValue)]

/-- Settings of export as a JSON value. -/
def ExportSettings.toValue (s : ExportSettings) : Json.Value :=
  .object [("reserved", s.reserved.toValue), ("draftAndPublish", .bool s.draftAndPublish),
    ("componentIcon", .string s.componentIcon),
    ("mediaAllowedTypes", textsValue s.mediaAllowedTypes)]

/-- Settings of compilation as a JSON value; an address that is not set is left out. -/
def CompileSettings.toValue (s : CompileSettings) : Json.Value :=
  .object ([("reserved", s.reserved.toValue)] ++
    (s.assetBaseUrl.toList.map fun url => ("assetBaseUrl", .string url)) ++
    [("maxConcurrentRecords", countValue s.maxConcurrentRecords)])

/-- Settings of a migration as a JSON value. -/
def Settings.toValue (s : Settings) : Json.Value :=
  .object [("endpoint", .string s.endpoint), ("routes", textsValue s.routes),
    ("migrationEndpoint", .string s.migrationEndpoint), ("reserved", s.reserved.toValue)]

/-! ## Reading -/

/-- Reads settings of inference. -/
def InferenceSettings.ofNode? (n : Node) : Option InferenceSettings := do
  let fields ← n.fields? ["sampleSize", "reserved"]
  some ⟨← Node.required "sampleSize" Node.count? fields,
    ← Node.required "reserved" Reserved.ofNode? fields⟩

/-- Reads settings of export. -/
def ExportSettings.ofNode? (n : Node) : Option ExportSettings := do
  let fields ← n.fields? ["reserved", "draftAndPublish", "componentIcon", "mediaAllowedTypes"]
  some ⟨← Node.required "reserved" Reserved.ofNode? fields,
    ← Node.required "draftAndPublish" Node.bool? fields,
    ← Node.required "componentIcon" Node.text? fields,
    ← Node.required "mediaAllowedTypes" Node.texts? fields⟩

/-- Reads settings of compilation. -/
def CompileSettings.ofNode? (n : Node) : Option CompileSettings := do
  let fields ← n.fields? ["reserved", "assetBaseUrl", "maxConcurrentRecords"]
  let default := CompileSettings.standard
  some ⟨← Node.withDefault "reserved" Reserved.ofNode? default.reserved fields,
    ← Node.withDefault "assetBaseUrl" Node.optionalText? default.assetBaseUrl fields,
    ← Node.withDefault "maxConcurrentRecords" Node.count? default.maxConcurrentRecords fields⟩

/-- Reads settings of a migration. -/
def Settings.ofNode? (n : Node) : Option Settings := do
  let fields ← n.fields? ["endpoint", "routes", "migrationEndpoint", "reserved"]
  let default := Settings.standard
  some ⟨← Node.withDefault "endpoint" Node.text? default.endpoint fields,
    ← Node.withDefault "routes" Node.texts? default.routes fields,
    ← Node.withDefault "migrationEndpoint" Node.text? default.migrationEndpoint fields,
    ← Node.withDefault "reserved" Reserved.ofNode? default.reserved fields⟩

end ContentModel
