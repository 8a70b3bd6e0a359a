import ContentModel.Proofs.Payload.Completeness

/-
# What each record sends

Submitting goes over the compiled records in order, and what it sends for a record depends on that record and on
how addresses are read, and on no reply: a record without a payload sends nothing, nor does one with a file
whose media type is none, and any other record sends its payload in one post, if the address of its entity can
be read.  The outcome of a record depends on the reply to its post and on nothing else.

Main statements: `delivers` (one record), `sent_submitAll` (all requests), `submitAll_append_cons` (the turn of a
record) and `submitAll_delivers`.
-/

namespace ContentModel.Http

/-! ## One payload -/

section Payload

variable (base entity : String) {p : Payload}

/-- A payload has a file whose media type is none exactly if there is a first one. -/
theorem invalidFile?_eq_some_iff {a : Attachment} :
    invalidFile? p = some a ↔ ∃ before after, p.files = before ++ a :: after ∧
      (∀ b ∈ before, MediaType.isValid b.mime = true) ∧ MediaType.isValid a.mime = false := by
  rw [invalidFile?, List.find?_eq_some_iff_append]
  simp only [Bool.not_eq_true', Bool.not_not]
  constructor
  · rintro ⟨ha, before, after, hsplit, hbefore⟩
    exact ⟨before, after, hsplit, hbefore, ha⟩
  · rintro ⟨before, after, hsplit, hbefore, ha⟩
    exact ⟨ha, before, after, hsplit, hbefore⟩

/-- All files of a payload have media types exactly if there is no first one without. -/
theorem invalidFile?_eq_none_iff :
    invalidFile? p = none ↔ ∀ a ∈ p.files, MediaType.isValid a.mime = true := by
  rw [invalidFile?, List.find?_eq_none]
  simp

end Payload

/-! ## One record -/

/-- The requests of a record, as they are sent: one post, or none. -/
def requestsOf (net : Network) (base : String) (x : String × CompiledRecord) : List Request :=
  (x.2.payload?.bind fun p => (submitRequest base x.1 p).toOption.bind net.outgoing?).toList

/-- What becomes of a record: its outcome and its exchanges in each network. -/
structure Delivers (base : String) (x : String × CompiledRecord)
    (act : Network → Exchanged SubmitOutcome) : Prop where
  entity : ∀ net, (act net).result.entity = x.1
  index : ∀ net, (act net).result.index = x.2.index
  /-- A record without a payload sends nothing and keeps its error. -/
  notCompiled : ∀ error, x.2.outcome = .error error → ∀ net,
    (act net).exchanges = [] ∧ (act net).result.result = .error (.notCompiled x.1 x.2.index error)
  /-- A payload with a file whose media type is none sends nothing; the first such file is named. -/
  invalidAttachment : ∀ p before a after, x.2.outcome = .ok p → p.files = before ++ a :: after →
    (∀ b ∈ before, MediaType.isValid b.mime = true) → MediaType.isValid a.mime = false → ∀ net,
    (act net).exchanges = [] ∧ (act net).result.result = .error (.invalidAttachment a.fileName)
  /-- Any other payload is sent in one post: its data first, and then its files in order. -/
  posted : ∀ p, x.2.outcome = .ok p → (∀ a ∈ p.files, MediaType.isValid a.mime = true) →
    ∀ net address, net.address (entityUrl base x.1) = .ok address →
      let parts := ⟨"data", none, Text.utf8 (Json.Value.object p.data).compact⟩ ::
        p.files.map fun a => ⟨"files." ++ a.field, some (a.fileName, a.mime), a.content⟩
      (act net).exchanges =
        [⟨.post (entityUrl base x.1) parts, address, net.reply [] (.post address parts)⟩]
  /-- Unless no request can be built for the address of its entity. -/
  unsendable : ∀ p error, x.2.outcome = .ok p → (∀ a ∈ p.files, MediaType.isValid a.mime = true) →
    ∀ net, net.address (entityUrl base x.1) = .error error →
      (act net).exchanges = [] ∧ (act net).result.result =
        .error (.connection (entityUrl base x.1) (SendError.badUrl error).message)
  /-- Nothing else is asked of the network. -/
  asks : ∀ net net', net.address (entityUrl base x.1) = net'.address (entityUrl base x.1) →
    (∀ exchange ∈ (act net).exchanges, net'.reply [] exchange.sent = exchange.reply) → act net = act net'

section Record

variable {net : Network} {base : String} {x : String × CompiledRecord} {p : Payload}

/-- What a record sends does not depend on what was sent before. -/
theorem sent_submitRecord_after (past : List Request) (x : String × CompiledRecord) :
    (submitRecord (net.after past) base x).sent = requestsOf net base x := by
  rw [requestsOf, CompiledRecord.payload?]
  cases hx : x.2.outcome with
  | error e =>
    rw [submitRecord_of_error hx]
    rfl
  | ok p =>
    rw [submitRecord_of_ok hx, Exchanged.sent_map, submit, Option.bind_some]
    cases submitRequest base x.1 p with
    | error e => rfl
    | ok request => exact sent_send

/-- The outcome of a record has its entity and its index. -/
theorem heading_submitRecord :
    (submitRecord net base x).result.entity = x.1 ∧ (submitRecord net base x).result.index = x.2.index := by
  cases hx : x.2.outcome with
  | error e =>
    rw [submitRecord_of_error hx]
    exact ⟨rfl, rfl⟩
  | ok p =>
    rw [submitRecord_of_ok hx]
    exact ⟨rfl, rfl⟩

/-- Networks that read addresses in the same way are sent the same. -/
theorem requestsOf_congr {net' : Network} (h : net'.address = net.address)
    (x : String × CompiledRecord) : requestsOf net' base x = requestsOf net base x := by
  have houtgoing : net'.outgoing? = net.outgoing? := by
    funext r
    rw [Network.outgoing?, Network.outgoing?, h]
  rw [requestsOf, requestsOf, houtgoing]

/-- **One record.**  What becomes of a record depends on the record only, and on the reply to what it sends. -/
theorem delivers (base : String) (x : String × CompiledRecord) :
    Delivers base x (fun net => submitRecord net base x) := by
  refine ⟨fun net => heading_submitRecord.1, fun net => heading_submitRecord.2, ?_, ?_, ?_, ?_, ?_⟩
  -- Without a payload nothing is asked for, and with an invalid file no request is made.
  · intro error hx net
    rw [submitRecord_of_error hx]
    exact ⟨rfl, rfl⟩
  · intro p before a after hp hsplit hbefore ha net
    have hinvalid := invalidFile?_eq_some_iff.mpr ⟨before, after, hsplit, hbefore, ha⟩
    rw [submitRecord_of_ok hp, submit_of_invalidFile hinvalid]
    exact ⟨rfl, rfl⟩
  -- The one request of any other payload goes out if its address can be read.
  · intro p hp hvalid net address hreads
    rw [submitRecord_of_ok hp, Exchanged.exchanges_map,
      submit_of_readable (invalidFile?_eq_none_iff.mpr hvalid) hreads]
    rfl
  · intro p error hp hvalid net hreads
    rw [submitRecord_of_ok hp, submit_of_unreadable (invalidFile?_eq_none_iff.mpr hvalid) hreads]
    exact ⟨rfl, rfl⟩
  · intro net net' haddress hreplies
    cases hx : x.2.outcome with
    | error e => rw [submitRecord_of_error hx, submitRecord_of_error hx]
    | ok p =>
      rw [submitRecord_of_ok hx, submitRecord_of_ok hx]
      rw [submitRecord_of_ok hx, Exchanged.exchanges_map] at hreplies
      cases hinvalid : invalidFile? p with
      | some a => rw [submit_of_invalidFile hinvalid, submit_of_invalidFile hinvalid]
      | none =>
        cases hreads : net.address (entityUrl base x.1) with
        | error e =>
          rw [submit_of_unreadable hinvalid hreads, submit_of_unreadable hinvalid (haddress ▸ hreads)]
        | ok address =>
          rw [submit_of_readable hinvalid hreads] at hreplies
          have hreply : net'.reply [] (.post address (formParts p)) = net.reply [] (.post address (formParts p)) :=
            hreplies _ List.mem_cons_self
          rw [submit_of_readable hinvalid hreads, submit_of_readable hinvalid (haddress ▸ hreads), hreply]

end Record

/-! ## All records -/

section Records

variable {net : Network} {base : String}

/-- There is one outcome for each record, with its entity and its index. -/
theorem map_result_submitAll (c : CompiledPayloads) :
    (submitAll net base c).result.map (fun o => (o.entity, o.index)) =
      c.records.map fun x => (x.1, x.2.index) := by
  rw [submitAll, submitRecords]
  induction c.records generalizing net with
  | nil => rfl
  | cons x xs ih =>
    rw [Exchanged.forEach, List.map_cons, List.map_cons, ih, heading_submitRecord.1, heading_submitRecord.2]

/-- **Requests.**  The requests are those of the records, in order. -/
theorem sent_submitRecords (records : List (String × CompiledRecord)) :
    (submitRecords net base records).sent = records.flatMap (requestsOf net base) :=
  Exchanged.sent_forEach sent_submitRecord_after records

/-- The requests for all compiled records. -/
theorem sent_submitAll (c : CompiledPayloads) :
    (submitAll net base c).sent = c.records.flatMap (requestsOf net base) :=
  sent_submitRecords c.records

/-- **The turn of a record.**  Each record finds the network after the requests of the records before it. -/
theorem submitAll_append_cons {c : CompiledPayloads} {before : List (String × CompiledRecord)}
    {x : String × CompiledRecord} {after : List (String × CompiledRecord)}
    (hsplit : c.records = before ++ x :: after) :
    let past := before.flatMap (requestsOf net base)
    let first := submitRecords net base before
    let here := submitRecord (net.after past) base x
    let last := submitRecords (net.after (past ++ requestsOf net base x)) base after
    submitAll net base c =
      ⟨first.result ++ here.result :: last.result, first.exchanges ++ (here.exchanges ++ last.exchanges)⟩ := by
  rw [submitAll, hsplit]
  exact Exchanged.forEach_append_cons sent_submitRecord_after before x after

/-- Another record in the place of one changes what is sent at its place only. -/
theorem sent_submitAll_of_replaced {c : CompiledPayloads} {before : List (String × CompiledRecord)}
    {x : String × CompiledRecord} {after : List (String × CompiledRecord)}
    (hsplit : c.records = before ++ x :: after) :
    ∃ first last, (submitAll net base c).sent = first ++ requestsOf net base x ++ last ∧
      ∀ net' c' y, net'.address = net.address → c'.records = before ++ y :: after →
        (submitAll net' base c').sent = first ++ requestsOf net base y ++ last := by
  refine ⟨before.flatMap (requestsOf net base), after.flatMap (requestsOf net base), ?_, ?_⟩
  · rw [sent_submitAll, hsplit, List.flatMap_append, List.flatMap_cons, List.append_assoc]
  · intro net' c' y haddress hsplit'
    have hrequests : requestsOf net' base = requestsOf net base := funext (requestsOf_congr haddress)
    rw [sent_submitAll, hsplit', hrequests, List.flatMap_append, List.flatMap_cons, List.append_assoc]

end Records

/-- **Delivery.**  There is one outcome for each compiled record, in order, and the requests are those of the
records, in order; each record finds the network as the records before it left it.  A record without a payload,
or with a file whose media type is none, sends nothing and says why; any other record sends its payload in one
post to the address of its entity, if that can be read.  Another record in the place of one changes nothing of
what the others send. -/
theorem submitAll_delivers (base : String) (c : CompiledPayloads) :
    (∀ net, (submitAll net base c).result.map (fun o => (o.entity, o.index)) =
        c.records.map fun x => (x.1, x.2.index)) ∧
      (∀ net, (submitAll net base c).sent = c.records.flatMap (requestsOf net base)) ∧
      (∀ net before x after, c.records = before ++ x :: after →
        let past := before.flatMap (requestsOf net base)
        let first := submitRecords net base before
        let here := submitRecord (net.after past) base x
        let last := submitRecords (net.after (past ++ requestsOf net base x)) base after
        first.result.length = before.length ∧ submitAll net base c =
          ⟨first.result ++ here.result :: last.result, first.exchanges ++ (here.exchanges ++ last.exchanges)⟩) ∧
      (∀ x, Delivers base x (fun net => submitRecord net base x)) ∧
      ∀ net before x after, c.records = before ++ x :: after →
        ∃ first last, (submitAll net base c).sent = first ++ requestsOf net base x ++ last ∧
          ∀ net' c' y, net'.address = net.address → c'.records = before ++ y :: after →
            (submitAll net' base c').sent = first ++ requestsOf net base y ++ last :=
  ⟨fun _ => map_result_submitAll c, fun _ => sent_submitAll c,
    fun net before _ _ hsplit => ⟨Exchanged.length_result_forEach net before, submitAll_append_cons hsplit⟩,
    delivers base, fun _ _ _ _ hsplit => sent_submitAll_of_replaced hsplit⟩

/-- A post of one text. -/
def plainPost : Payload :=
  ⟨[("title", .string "a")], []⟩

/-- One post, compiled. -/
def onePost : CompiledPayloads :=
  ⟨[⟨"posts", [⟨0, .ok plainPost⟩]⟩]⟩

/-- With a base that is no absolute address, a payload without files is not sent. -/
theorem not_posted_of_relative_base :
    onePost.records = [("posts", ⟨0, .ok plainPost⟩)] ∧
      (∀ a ∈ plainPost.files, MediaType.isValid a.mime = true) ∧
      ∀ reply, submitAll ⟨Url.read, reply⟩ "nope" onePost =
        ⟨[⟨"posts", 0, .error (.connection "nope/api/posts" "builder error")⟩], []⟩ := by
  have hvalid : ∀ a ∈ plainPost.files, MediaType.isValid a.mime = true := by simp [plainPost]
  have haddress : entityUrl "nope" "posts" = "nope/api/posts" := by decide +kernel
  have hurl : Url.read (entityUrl "nope" "posts") = .error .notAbsolute := by decide +kernel
  refine ⟨rfl, hvalid, fun reply => ?_⟩
  have hsubmit : submit ⟨Url.read, reply⟩ "nope" "posts" plainPost =
      ⟨.error (.connection "nope/api/posts" "builder error"), []⟩ := by
    rw [submit_of_unreadable (invalidFile?_eq_none_iff.mpr hvalid) hurl, haddress]
    rfl
  have hrecord : submitRecord ⟨Url.read, reply⟩ "nope" ("posts", ⟨0, .ok plainPost⟩) =
      ⟨⟨"posts", 0, .error (.connection "nope/api/posts" "builder error")⟩, []⟩ := by
    rw [submitRecord_of_ok rfl, hsubmit]
    rfl
  rw [submitAll, submitRecords, show onePost.records = [("posts", ⟨0, .ok plainPost⟩)] from rfl,
    Exchanged.forEach, hrecord]
  rfl

end ContentModel.Http
