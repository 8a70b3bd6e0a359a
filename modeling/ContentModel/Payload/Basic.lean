import ContentModel.Recognition.Shape
import ContentModel.Json.Printer
import ContentModel.Text.Utf8

/-
# Payloads

What one record is submitted as: a JSON object and the files of its media fields.  A compilation gives
every record a payload or the reason why it has none.
-/

namespace ContentModel

/-! ## Errors -/

/-- Why an asset could not be fetched. -/
inductive FetchError where
  | connection (reason : String)
  | timeout (seconds : Nat)
  | status (url : String) (status : Nat)
  deriving DecidableEq, Repr, Inhabited

/-- The wording of an error. -/
def FetchError.message : FetchError → String
  | .connection reason => "Failed to connect: " ++ reason
  | .timeout seconds => "Request timed out after " ++ Nat.repr seconds ++ " seconds"
  | .status url code => "HTTP " ++ Nat.repr code ++ " while fetching " ++ url

/-- Why there is no payload: the first two for one record, the last one when the payloads of all records are
asked for. -/
inductive CompileError where
  | mediaFetch (field url : String) (source : FetchError)
  | invalidMedia (field : String) (reason : Recognition.Rejection)
  /-- Some records have no payload; the first of them is named in words. -/
  | incomplete (failed : Nat) (first : String)
  deriving DecidableEq, Repr, Inhabited

/-- The words for the number of failures. -/
def failedMessage (failed : Nat) : String :=
  Nat.repr failed ++ " record(s) failed to compile"

/-- The wording of an error. -/
def CompileError.message : CompileError → String
  | .mediaFetch field url source =>
    "Failed to fetch media for field '" ++ field ++ "' from " ++ url ++ ": " ++ source.message
  | .invalidMedia field reason =>
    "Field '" ++ field ++ "' does not hold a media asset: " ++ reason.message
  | .incomplete failed first => failedMessage failed ++ ", first failure: " ++ first

/-! ## Payloads -/

/-- A file of a payload. -/
structure Attachment where
  /-- The field whose asset it is. -/
  field : String
  fileName : String
  mime : String
  content : Bytes
  deriving DecidableEq, Repr, Inhabited

/-- The name of an attachment's part in a form. -/
def Attachment.formKey (a : Attachment) : String :=
  "files." ++ a.field

/-- What one record is submitted as. -/
structure Payload where
  data : Json.Members
  files : List Attachment
  deriving DecidableEq, Repr, Inhabited

/-- The first file of a field. -/
def Payload.file? (field : String) (p : Payload) : Option Attachment :=
  p.files.find? fun a => a.field = field

/-! ## Compilations -/

instance decidableEqResult {ε α : Type} [DecidableEq ε] [DecidableEq α] : DecidableEq (Except ε α)
  | .ok a, .ok b => decidable_of_iff (a = b) (by simp)
  | .error a, .error b => decidable_of_iff (a = b) (by simp)
  | .ok _, .error _ => isFalse (by simp)
  | .error _, .ok _ => isFalse (by simp)

/-- The outcome for one record. -/
structure CompiledRecord where
  /-- The place of the record among those of its entity. -/
  index : Nat
  outcome : Except CompileError Payload
  deriving DecidableEq, Repr, Inhabited

/-- The outcomes for one entity. -/
structure EntityPayloads where
  entity : String
  records : List CompiledRecord
  deriving DecidableEq, Repr, Inhabited

/-- The outcomes for all entities. -/
structure CompiledPayloads where
  entities : List EntityPayloads
  deriving DecidableEq, Repr, Inhabited

/-- A record without a payload. -/
structure Failure where
  entity : String
  index : Nat
  error : CompileError
  deriving DecidableEq, Repr, Inhabited

/-- The words for a failure. -/
def Failure.message (f : Failure) : String :=
  f.entity ++ "[" ++ Nat.repr f.index ++ "]: " ++ f.error.message

namespace CompiledRecord

/-- The payload of a record that has one. -/
def payload? (r : CompiledRecord) : Option Payload :=
  match r.outcome with
  | .ok p => some p
  | .error _ => none

/-- The failure of a record that has no payload. -/
def failure? (entity : String) (r : CompiledRecord) : Option Failure :=
  match r.outcome with
  | .ok _ => none
  | .error e => some ⟨entity, r.index, e⟩

end CompiledRecord

namespace EntityPayloads

/-- The payloads of an entity. -/
def payloads (e : EntityPayloads) : List Payload :=
  e.records.filterMap CompiledRecord.payload?

/-- The failures of an entity. -/
def failures (e : EntityPayloads) : List Failure :=
  e.records.filterMap (CompiledRecord.failure? e.entity)

end EntityPayloads

namespace CompiledPayloads

/-- The outcomes for the first entity of a name. -/
def entity? (name : String) (c : CompiledPayloads) : Option EntityPayloads :=
  c.entities.find? fun e => e.entity = name

/-- The compiled records, each with the name of its entity, in order. -/
def records (c : CompiledPayloads) : List (String × CompiledRecord) :=
  c.entities.flatMap fun e => e.records.map fun r => (e.entity, r)

/-- All failures, in order. -/
def failures (c : CompiledPayloads) : List Failure :=
  c.entities.flatMap EntityPayloads.failures

/-- How many records have a payload. -/
def compiledCount (c : CompiledPayloads) : Nat :=
  (c.entities.flatMap EntityPayloads.payloads).length

/-- The payloads of each entity, if every record has one. -/
def complete (c : CompiledPayloads) : Except CompileError (List (String × List Payload)) :=
  match c.failures with
  | [] => .ok (c.entities.map fun e => (e.entity, e.payloads))
  | f :: fs => .error (.incomplete (f :: fs).length f.message)

end CompiledPayloads

end ContentModel
