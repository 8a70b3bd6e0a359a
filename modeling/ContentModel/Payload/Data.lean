import ContentModel.Log
import ContentModel.Dataset
import ContentModel.Json.Printer
import ContentModel.Schema.Basic
import ContentModel.Schema.Reserved

/-
# The data of a payload

An entity's fields are grouped by how they are written.  A record gives one sequence of writes: texts,
truth values as texts, the members of components, and placeholders of relations.  The data of its
payload keeps each key at its first write with the value of its last one.
-/

namespace ContentModel

open ContentModel.Json (Value Members)

/-! ## Groups of fields -/

/-- The fields of an entity that a payload carries, by how they are written. -/
structure Partition where
  /-- Texts, copied. -/
  plain : List Field
  /-- Truth values, as texts. -/
  boolean : List Field
  /-- Files, attached. -/
  media : List Field
  /-- Objects, whose members are written one by one. -/
  component : List Field
  /-- Relations, written as placeholders. -/
  relation : List Field
  deriving DecidableEq, Repr, Inhabited

/-- The groups of the fields whose names are not reserved.  Dates, numbers and fields without a known
type are in none. -/
def Partition.of (reserved : Reserved) (e : EntitySchema) : Partition :=
  let fields := e.fields.filter fun f => !reserved.hasField f.name
  { plain := fields.filter fun f => f.type.isTextual
    boolean := fields.filter fun f => f.type = .boolean
    media := fields.filter fun f => f.type = .media
    component := fields.filter fun f => f.type = .component
    relation := fields.filter fun f => f.type = .relation }

/-! ## Writes -/

/-- A write of a value under a key. -/
structure Write where
  /-- The field that it comes from. -/
  source : String
  key : String
  value : Value
  deriving DecidableEq, Repr, Inhabited

/-- The value written for a relation. -/
def relationPlaceholder : Value :=
  .object [("id", .null)]

namespace Write

/-- A write under the name of its field. -/
def ofField (f : Field) (value : Value) : Write :=
  ⟨f.name, f.name, value⟩

/-- The write of a text. -/
def plain? (record : Record) (f : Field) : Option Write :=
  match Keyed.get? f.name record with
  | some (.string s) => some (ofField f (.string s))
  | _ => none

/-- The write of a truth value. -/
def boolean? (record : Record) (f : Field) : Option Write :=
  match Keyed.get? f.name record with
  | some (.bool b) => some (ofField f (.string (if b then "true" else "false")))
  | _ => none

/-- The writes of the members of a component, except those of reserved names. -/
def component (reserved : Reserved) (record : Record) (f : Field) : List Write :=
  match Keyed.get? f.name record with
  | some (.object members) =>
    (members.filter fun m => !reserved.hasSubField m.1).map fun (key, value) => ⟨f.name, key, value⟩
  | _ => []

/-- The write of a relation. -/
def relation (f : Field) : Write :=
  ofField f relationPlaceholder

end Write

namespace Partition

/-- The writes of texts and truth values, which replace earlier ones silently. -/
def scalarWrites (p : Partition) (record : Record) : List Write :=
  p.plain.filterMap (Write.plain? record) ++ p.boolean.filterMap (Write.boolean? record)

/-- The writes of components and relations, which warn when they replace an earlier one. -/
def structuredWrites (reserved : Reserved) (p : Partition) (record : Record) : List Write :=
  p.component.flatMap (Write.component reserved record) ++ p.relation.map Write.relation

/-- All writes of a record, in order. -/
def writes (reserved : Reserved) (p : Partition) (record : Record) : List Write :=
  p.scalarWrites record ++ p.structuredWrites reserved record

end Partition

/-! ## Data -/

/-- Carries out one write. -/
def Write.apply (data : Members) (w : Write) : Members :=
  Keyed.put w.key w.value data

/-- The data of a record's payload. -/
def compileData (reserved : Reserved) (p : Partition) (record : Record) : Members :=
  (p.writes reserved record).foldl Write.apply []

/-- The warning about a write that replaces a value. -/
def Write.overwriteWarning (w : Write) (previous : Value) : LogLine :=
  .warn ("Field '" ++ w.source ++ "' overwrites payload key '" ++ w.key ++ "' (previous value " ++
    previous.compact ++ ")")

/-- The warnings about writes, carried out one after the other. -/
def overwriteWarnings : Members → List Write → List LogLine
  | _, [] => []
  | data, w :: ws =>
    ((Keyed.get? w.key data).map w.overwriteWarning).toList ++ overwriteWarnings (w.apply data) ws

/-- The warnings about a record's data. -/
def dataWarnings (reserved : Reserved) (p : Partition) (record : Record) : List LogLine :=
  overwriteWarnings ((p.scalarWrites record).foldl Write.apply [])
    (p.structuredWrites reserved record)

end ContentModel
