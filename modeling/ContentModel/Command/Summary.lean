import ContentModel.Definition.Document
import ContentModel.Http.Submission
import ContentModel.Payload.Basic
import ContentModel.Schema.Basic

/-
# Summaries for the terminal

What commands say about schemas, definitions, payloads and submissions.
-/

namespace ContentModel

/-! ## Schemas -/

/-- A field with its type. -/
def Field.summary (f : Field) : String :=
  f.name ++ ": " ++ f.type.tag

/-- The flags of a field that are set, in brackets. -/
def Field.flagSummary (f : Field) : String :=
  match (if f.required then ["required"] else []) ++ (if f.unique then ["unique"] else []) with
  | [] => ""
  | flags => " [" ++ ", ".intercalate flags ++ "]"

/-- The lines for a field and its sub-fields. -/
def Field.summaryLines (f : Field) : String :=
  "  - " ++ f.summary ++ f.flagSummary ++ "\n" ++
    String.join (f.subFields.map fun s => "      " ++ s.summary ++ "\n")

/-- The lines for an entity. -/
def EntitySchema.summary (e : EntitySchema) : String :=
  "\n" ++ e.name ++ " (" ++ Nat.repr e.fields.length ++ " field(s))\n" ++
    String.join (e.fields.map Field.summaryLines)

/-- The table of the fields of a schema. -/
def Schema.summary (s : Schema) : String :=
  "\n✅ Inferred " ++ Nat.repr s.size ++ " entit(ies):\n" ++
    String.join (s.entities.map EntitySchema.summary)

/-! ## Definitions -/

/-- How many documents were exported, and where they belong. -/
def Definition.summary (documents : List Definition.Document) : String :=
  let components := (documents.filter fun d => d.kind = .component).length
  "\n✅ Exported " ++ Nat.repr (documents.length - components) ++ " collection type(s) and " ++
    Nat.repr components ++ " component(s):\n" ++
    String.join (documents.map fun d => "  - " ++ d.hint ++ "\n")

/-! ## Payloads -/

/-- The line for an entity: its records, their files, and those that have no payload. -/
def EntityPayloads.summary (e : EntityPayloads) : String :=
  let attachments := (e.payloads.flatMap Payload.files).length
  "  " ++ e.entity ++ ": " ++ Nat.repr e.records.length ++ " record(s), " ++ Nat.repr attachments ++
    " attachment(s), " ++ Nat.repr e.failures.length ++ " failed\n"

/-- A heading with a warning sign. -/
def warningHeading (text : String) : String :=
  "\n⚠️  " ++ text ++ ":\n"

/-- The lines for all entities, and the failures if there are any. -/
def CompiledPayloads.summary (c : CompiledPayloads) : String :=
  String.join (c.entities.map EntityPayloads.summary) ++
    match c.failures with
    | [] => "\n✅ Compiled " ++ Nat.repr c.compiledCount ++ " payload(s)\n"
    | failures =>
      warningHeading (Nat.repr failures.length ++ " record(s) failed") ++
        String.join (failures.map fun f => "  - " ++ f.message ++ "\n")

/-! ## Submissions -/

/-- The line for an outcome that is an error. -/
def Http.rejectionLine (o : Http.SubmitOutcome) (e : Http.SubmitError) : String :=
  "  - " ++ o.entity ++ "[" ++ Nat.repr o.index ++ "]: " ++ e.message ++ "\n"

/-- How many records were submitted, and which were not. -/
def Http.submissionSummary (outcomes : List Http.SubmitOutcome) : String :=
  "\n✅ Submitted " ++ Http.submittedCount outcomes ++ "\n" ++
    match Http.failedOutcomes outcomes with
    | [] => ""
    | failed =>
      warningHeading "Rejected" ++ String.join (failed.map fun (o, e) => Http.rejectionLine o e)

end ContentModel
