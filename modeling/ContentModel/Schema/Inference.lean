import ContentModel.Dataset
import ContentModel.Schema.Observation

/-
# Inferring a schema

Each entity of a dataset is inferred by itself, from a sample of its records: its fields are the keys of
those records in order of first appearance, and each is observed over all of them.
-/

namespace ContentModel

/-- How to infer. -/
structure InferenceSettings where
  /-- How many records of an entity are looked at; zero stands for all. -/
  sampleSize : Nat
  reserved : Reserved
  deriving DecidableEq, Repr, Inhabited

/-- All records, and the standard reserved names. -/
def InferenceSettings.standard : InferenceSettings :=
  ⟨0, .standard⟩

namespace Field

/-- Observes a field over records, one after the other. -/
def observeRecords (reserved : Reserved) (name : String) (records : List Record) (b : Notebook) :
    Option Field × Notebook :=
  records.foldl
    (fun (existing, b) record =>
      let (f, b) := observe reserved name existing (Keyed.get? name record) b
      (some f, b))
    (none, b)

end Field

namespace EntitySchema

/-- The records that are looked at. -/
def sample (size : Nat) (records : List Record) : List Record :=
  if size = 0 then records else records.take size

/-- The keys of records, in order of first appearance. -/
def keysOf (records : List Record) : List String :=
  Keyed.extend [] (records.flatMap fun record => record.map Prod.fst)

/-- The fields of given names, observed over records with one notebook. -/
def fieldsOf (reserved : Reserved) (records : List Record) :
    List String → Notebook → List Field
  | [], _ => []
  | name :: names, b =>
    let (f, b) := Field.observeRecords reserved name records b
    f.toList ++ fieldsOf reserved records names b

/-- Infers the fields of one entity. -/
def infer (settings : InferenceSettings) (name : String) (records : List Record) : EntitySchema :=
  let records := sample settings.sampleSize records
  ⟨name, fieldsOf settings.reserved records (keysOf records) .empty⟩

end EntitySchema

/-- Infers the schema of a dataset. -/
def Schema.infer (settings : InferenceSettings) (d : Dataset) : Schema :=
  d.entities.foldl
    (fun s (name, records) => s.insertEntity (EntitySchema.infer settings name records)) .empty

end ContentModel
