import ContentModel.Http.Exchange
import ContentModel.Http.MediaType
import ContentModel.Payload.Basic
import ContentModel.Log
import ContentModel.Json.Tree
import ContentModel.Text.Blank

/-
# Submitting payloads

A payload is posted to the address of its entity as a form: one part for its data and one for each of
its files.  Every record of a compilation has one outcome, in order; a record without a payload, or with
a file whose media type is none, sends nothing.
-/

namespace ContentModel.Http

/-! ## Errors -/

/-- Why a record was not submitted. -/
inductive SubmitError where
  | connection (url reason : String)
  | rejected (entity : String) (status : Nat) (body : String)
  | invalidAttachment (fileName : String)
  /-- The target answered with a body that is no JSON text. -/
  | unreadableBody
  | notCompiled (entity : String) (index : Nat) (source : CompileError)
  deriving DecidableEq, Repr, Inhabited

/-- The wording of an error; what is wrong with a media type or a body is left out. -/
def SubmitError.message : SubmitError → String
  | .connection url reason => "Failed to connect to " ++ url ++ ": " ++ reason
  | .rejected entity code body =>
    "Target rejected payload for '" ++ entity ++ "' (HTTP " ++ Nat.repr code ++ "): " ++ body
  | .invalidAttachment fileName => "Invalid attachment '" ++ fileName ++ "': "
  | .unreadableBody => "Serialization error: "
  | .notCompiled entity index source =>
    "Record " ++ Nat.repr index ++ " of '" ++ entity ++ "' did not compile: " ++ source.message

/-! ## One payload -/

/-- The address of an entity. -/
def entityUrl (base entity : String) : String :=
  Text.dropEnd '/' base ++ "/api/" ++ Text.percentEncode entity

/-- The part of an attachment. -/
def Part.ofAttachment (a : Attachment) : Part :=
  ⟨a.formKey, some (a.fileName, a.mime), a.content⟩

/-- The parts of a payload's form. -/
def formParts (p : Payload) : List Part :=
  ⟨"data", none, Text.utf8 (Json.Value.object p.data).compact⟩ :: p.files.map Part.ofAttachment

/-- The first file of a payload whose media type is none. -/
def invalidFile? (p : Payload) : Option Attachment :=
  p.files.find? fun a => !MediaType.isValid a.mime

/-- The request that submits a payload. -/
def submitRequest (base entity : String) (p : Payload) : Except SubmitError Request :=
  match invalidFile? p with
  | some a => .error (.invalidAttachment a.fileName)
  | none => .ok (.post (entityUrl base entity) (formParts p))

/-- The JSON value of an answer's body; a blank body stands for `null`. -/
def bodyValue (body : String) : Except SubmitError Json.Value :=
  if body.toList.all Text.isBlank then .ok .null
  else match Json.Value.parse? body with
    | some v => .ok v
    | none => .error .unreadableBody

/-- What submitting to an address comes to, by the answer to the request. -/
def submitResult (url entity : String) : Except SendError Response → Except SubmitError Json.Value
  | .error e => .error (.connection url e.message)
  | .ok r =>
    match r.body with
    | none => .error (.connection url decodingError)
    | some bytes =>
      let body := Text.ofUtf8Lossy bytes
      if r.isSuccess then bodyValue body else .error (.rejected entity r.status body)

/-- Submits a payload; shows the body of the answer. -/
def submit (net : Network) (base entity : String) (p : Payload) :
    Exchanged (Except SubmitError Json.Value) :=
  match submitRequest base entity p with
  | .error e => ⟨.error e, []⟩
  | .ok request => (send net request).map (submitResult request.url entity)

/-! ## All records -/

/-- The outcome of one record. -/
structure SubmitOutcome where
  entity : String
  index : Nat
  result : Except SubmitError Json.Value
  deriving DecidableEq, Repr, Inhabited

/-- Submits a record of an entity, if it has a payload. -/
def submitRecord (net : Network) (base : String) (x : String × CompiledRecord) : Exchanged SubmitOutcome :=
  match x.2.outcome with
  | .ok p => (submit net base x.1 p).map fun result => ⟨x.1, x.2.index, result⟩
  | .error e => ⟨⟨x.1, x.2.index, .error (.notCompiled x.1 x.2.index e)⟩, []⟩

/-- Submits records, one after the other. -/
def submitRecords (net : Network) (base : String) (records : List (String × CompiledRecord)) :
    Exchanged (List SubmitOutcome) :=
  Exchanged.forEach (fun net x => submitRecord net base x) net records

/-- Submits the records of all entities, in order. -/
def submitAll (net : Network) (base : String) (c : CompiledPayloads) : Exchanged (List SubmitOutcome) :=
  submitRecords net base c.records

/-- The outcomes that are errors. -/
def failedOutcomes (outcomes : List SubmitOutcome) : List (SubmitOutcome × SubmitError) :=
  outcomes.filterMap fun o =>
    match o.result with
    | .ok _ => none
    | .error e => some (o, e)

/-- How many outcomes are successes, of how many. -/
def submittedCount (outcomes : List SubmitOutcome) : String :=
  Nat.repr (outcomes.length - (failedOutcomes outcomes).length) ++ "/" ++
    Nat.repr outcomes.length ++ " record(s)"

/-- The lines logged by submitting. -/
def submissionLog (outcomes : List SubmitOutcome) : List LogLine :=
  (failedOutcomes outcomes).map (fun (_, e) => .warn e.message) ++
    [.inform ("Submitted " ++ submittedCount outcomes)]

end ContentModel.Http
