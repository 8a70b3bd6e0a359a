import ContentModel.Proofs.Http.Delivery
import ContentModel.Proofs.Text.Utf8

/-
# What a failed submission says

A payload is refused if no request for it can be sent, if the connection fails, breaks off or times out, and if
the answer is no success; otherwise the target has accepted it.  Every refused payload fails, and so does an
accepted one if the answer has a body that is neither blank nor a JSON text.  Whoever submits the failed
records again submits what was accepted, unless every such body is readable.

Main statements: `accepted_or_refused`, `submit_eq_error_iff` and `failures_refused_iff`.
-/

namespace ContentModel.Http

/-! ## Readable bodies -/

/-- Whether a body is blank or a JSON text. -/
def isReadable (body : String) : Bool :=
  body.toList.all Text.isBlank || (Json.Value.parse? body).isSome

/-- Every body has a value, or is not readable. -/
theorem bodyValue_cases (body : String) :
    (isReadable body = true ∧ ∃ v, bodyValue body = .ok v) ∨
      (isReadable body = false ∧ bodyValue body = .error .unreadableBody) := by
  rw [isReadable, bodyValue]
  by_cases hblank : body.toList.all Text.isBlank = true
  · rw [if_pos hblank, hblank]
    exact .inl ⟨rfl, .null, rfl⟩
  · rw [if_neg hblank, Bool.eq_false_iff.mpr hblank, Bool.false_or]
    cases Json.Value.parse? body with
    | some v => exact .inl ⟨rfl, v, rfl⟩
    | none => exact .inr ⟨rfl, rfl⟩

/-! ## One payload -/

/-- The target answered the post of a payload with success, and with a body, all of which came. -/
structure Accepted (net : Network) (base entity : String) (p : Payload) (body : Bytes) : Prop where
  valid : ∀ a ∈ p.files, MediaType.isValid a.mime = true
  answered : ∃ address response, net.address (entityUrl base entity) = .ok address ∧
    net.reply [] (.post address (formParts p)) = .answered response ∧
    (200 ≤ response.status ∧ response.status < 300) ∧ response.body = some body

/-- The target did not take a payload, and the error that says why. -/
inductive Refused (net : Network) (base entity : String) (p : Payload) : SubmitError → Prop where
  /-- No form can be built. -/
  | attachment {before after : List Attachment} {a : Attachment} (split : p.files = before ++ a :: after)
      (first : ∀ b ∈ before, MediaType.isValid b.mime = true) (invalid : MediaType.isValid a.mime = false) :
      Refused net base entity p (.invalidAttachment a.fileName)
  /-- No request can be built. -/
  | address {error : UrlError} (valid : ∀ a ∈ p.files, MediaType.isValid a.mime = true)
      (unread : net.address (entityUrl base entity) = .error error) :
      Refused net base entity p (.connection (entityUrl base entity) (SendError.badUrl error).message)
  | connection {url : String} (valid : ∀ a ∈ p.files, MediaType.isValid a.mime = true)
      (read : net.address (entityUrl base entity) = .ok url)
      (lost : net.reply [] (.post url (formParts p)) = .unreachable ∨
        net.reply [] (.post url (formParts p)) = .dropped) :
      Refused net base entity p (.connection (entityUrl base entity) (SendError.connection url).message)
  | timedOut {url : String} (valid : ∀ a ∈ p.files, MediaType.isValid a.mime = true)
      (read : net.address (entityUrl base entity) = .ok url)
      (late : net.reply [] (.post url (formParts p)) = .timedOut) :
      Refused net base entity p (.connection (entityUrl base entity) (SendError.timedOut url).message)
  /-- The connection breaks while the body comes, whatever the status before it was. -/
  | broken {url : String} {response : Response} (valid : ∀ a ∈ p.files, MediaType.isValid a.mime = true)
      (read : net.address (entityUrl base entity) = .ok url)
      (answered : net.reply [] (.post url (formParts p)) = .answered response)
      (incomplete : response.body = none) :
      Refused net base entity p (.connection (entityUrl base entity) decodingError)
  | status {url : String} {response : Response} {body : Bytes}
      (valid : ∀ a ∈ p.files, MediaType.isValid a.mime = true)
      (read : net.address (entityUrl base entity) = .ok url)
      (answered : net.reply [] (.post url (formParts p)) = .answered response)
      (failure : response.status < 200 ∨ 300 ≤ response.status) (complete : response.body = some body) :
      Refused net base entity p (.rejected entity response.status (Text.ofUtf8Lossy body))

section Payload

variable {net : Network} {base entity : String} {p : Payload}

/-- A payload whose files have media types fails if no request for it can be built. -/
theorem result_submit_of_unread {e : UrlError} (h : ∀ a ∈ p.files, MediaType.isValid a.mime = true)
    (hread : net.address (entityUrl base entity) = .error e) :
    (submit net base entity p).result =
      .error (.connection (entityUrl base entity) (SendError.badUrl e).message) := by
  rw [submit_of_unreadable (invalidFile?_eq_none_iff.mpr h) hread]

/-- Otherwise the reply to its post decides. -/
theorem result_submit_of_reply {address : String} {reply : Reply}
    (h : ∀ a ∈ p.files, MediaType.isValid a.mime = true)
    (hread : net.address (entityUrl base entity) = .ok address)
    (hreply : net.reply [] (.post address (formParts p)) = reply) :
    (submit net base entity p).result =
      submitResult (entityUrl base entity) entity (reply.response address) := by
  rw [submit_of_readable (invalidFile?_eq_none_iff.mpr h) hread, hreply]

/-- The body of the answer that accepts a payload is one. -/
theorem Accepted.eq {body body' : Bytes} (h : Accepted net base entity p body)
    (h' : Accepted net base entity p body') : body = body' := by
  obtain ⟨address, response, hread, hreply, -, hbody⟩ := h.answered
  obtain ⟨address', response', hread', hreply', -, hbody'⟩ := h'.answered
  obtain rfl := Except.ok.inj (hread.symm.trans hread')
  obtain rfl := Reply.answered.inj (hreply.symm.trans hreply')
  exact Option.some.inj (hbody.symm.trans hbody')

/-- What submitting an accepted payload gives is what the body is read as. -/
theorem submit_of_accepted {body : Bytes} (h : Accepted net base entity p body) :
    (submit net base entity p).result = bodyValue (Text.ofUtf8Lossy body) := by
  obtain ⟨address, response, hread, hreply, hsuccess, hbody⟩ := h.answered
  rw [result_submit_of_reply h.valid hread hreply, Reply.response, submitResult, hbody]
  exact if_pos (Response.isSuccess_iff.mpr hsuccess)

/-- Submitting a refused payload fails. -/
theorem submit_of_refused {e : SubmitError} (h : Refused net base entity p e) :
    (submit net base entity p).result = .error e := by
  cases h with
  | attachment split first invalid =>
    rw [submit_of_invalidFile (invalidFile?_eq_some_iff.mpr ⟨_, _, split, first, invalid⟩)]
  | address valid unread => exact result_submit_of_unread valid unread
  | connection valid read lost =>
    obtain lost | lost := lost
    · exact result_submit_of_reply valid read lost
    · exact result_submit_of_reply valid read lost
  | timedOut valid read late => exact result_submit_of_reply valid read late
  | broken valid read answered incomplete =>
    rw [result_submit_of_reply valid read answered, Reply.response, submitResult, incomplete]
  | status valid read answered failure complete =>
    rw [result_submit_of_reply valid read answered, Reply.response, submitResult, complete]
    exact if_neg (Bool.eq_false_iff.mp (Response.isSuccess_eq_false_iff.mpr failure))

/-- Every payload is accepted or refused. -/
theorem accepted_or_refused (net : Network) (base entity : String) (p : Payload) :
    (∃ body, Accepted net base entity p body) ∨ ∃ e, Refused net base entity p e := by
  cases hinvalid : invalidFile? p with
  | some a =>
    obtain ⟨before, after, split, first, invalid⟩ := invalidFile?_eq_some_iff.mp hinvalid
    exact .inr ⟨_, .attachment split first invalid⟩
  | none =>
    have valid := invalidFile?_eq_none_iff.mp hinvalid
    cases hread : net.address (entityUrl base entity) with
    | error e => exact .inr ⟨_, .address valid hread⟩
    | ok url =>
      cases hreply : net.reply [] (.post url (formParts p)) with
      | unreachable => exact .inr ⟨_, .connection valid hread (.inl hreply)⟩
      | dropped => exact .inr ⟨_, .connection valid hread (.inr hreply)⟩
      | timedOut => exact .inr ⟨_, .timedOut valid hread hreply⟩
      | answered response =>
        cases hbody : response.body with
        | none => exact .inr ⟨_, .broken valid hread hreply hbody⟩
        | some body =>
          cases hsuccess : response.isSuccess with
          | false =>
            exact .inr ⟨_, .status valid hread hreply (Response.isSuccess_eq_false_iff.mp hsuccess) hbody⟩
          | true =>
            exact .inl ⟨body, valid, url, response, hread, hreply, Response.isSuccess_iff.mp hsuccess, hbody⟩

/-- No payload is both. -/
theorem not_refused_of_accepted {body : Bytes} (h : Accepted net base entity p body) (e : SubmitError) :
    ¬ Refused net base entity p e := by
  obtain ⟨address, response, hread, hreply, hsuccess, hbody⟩ := h.answered
  -- What refuses a payload at a reply speaks of the same address, and so of the same reply.
  have hsame : ∀ {url reply}, net.address (entityUrl base entity) = .ok url →
      net.reply [] (.post url (formParts p)) = reply → reply = .answered response := by
    intro url reply hurl hother
    obtain rfl := Except.ok.inj (hread.symm.trans hurl)
    exact hother.symm.trans hreply
  intro hrefused
  cases hrefused with
  | attachment split first invalid =>
    have hsome := invalidFile?_eq_some_iff.mpr ⟨_, _, split, first, invalid⟩
    exact Option.some_ne_none _ (hsome.symm.trans (invalidFile?_eq_none_iff.mpr h.valid))
  | address _ unread => cases hread.symm.trans unread
  | connection _ read lost => obtain lost | lost := lost <;> cases hsame read lost
  | timedOut _ read late => cases hsame read late
  | broken _ read answered incomplete =>
    obtain rfl := Reply.answered.inj (hsame read answered)
    cases hbody.symm.trans incomplete
  | status _ read answered failure _ =>
    obtain rfl := Reply.answered.inj (hsame read answered)
    omega

/-- **Errors.**  A submission fails exactly if the payload is refused, or accepted with a body that is not
readable. -/
theorem submit_eq_error_iff {e : SubmitError} :
    (submit net base entity p).result = .error e ↔
      Refused net base entity p e ∨
        e = .unreadableBody ∧ ∃ body, Accepted net base entity p body ∧
          isReadable (Text.ofUtf8Lossy body) = false := by
  obtain ⟨body, haccepted⟩ | ⟨e', hrefused⟩ := accepted_or_refused net base entity p
  -- An accepted payload can fail on the body of the answer only.
  · have hnone := not_refused_of_accepted haccepted
    rw [submit_of_accepted haccepted]
    obtain ⟨hreadable, v, hv⟩ | ⟨hreadable, hv⟩ := bodyValue_cases (Text.ofUtf8Lossy body)
    · rw [hv]
      refine ⟨nofun, ?_⟩
      rintro (hrefused | ⟨-, body', haccepted', hreadable'⟩)
      · exact absurd hrefused (hnone e)
      · rw [haccepted.eq haccepted', hreadable'] at hreadable
        exact absurd hreadable Bool.false_ne_true
    · rw [hv]
      constructor
      · rintro ⟨⟩
        exact .inr ⟨rfl, body, haccepted, hreadable⟩
      · rintro (hrefused | ⟨rfl, -⟩)
        · exact absurd hrefused (hnone e)
        · rfl
  -- A refused one has failed, and no answer to its post counts as acceptance.
  · rw [submit_of_refused hrefused]
    constructor
    · rintro ⟨⟩
      exact .inl hrefused
    · rintro (hrefused' | ⟨-, body, haccepted, -⟩)
      · exact (submit_of_refused hrefused).symm.trans (submit_of_refused hrefused')
      · exact absurd hrefused (not_refused_of_accepted haccepted e')

/-- An accepted payload is submitted exactly if the body of the answer is readable. -/
theorem submit_isOk_iff_of_accepted {body : Bytes} (h : Accepted net base entity p body) :
    (∃ v, (submit net base entity p).result = .ok v) ↔ isReadable (Text.ofUtf8Lossy body) = true := by
  rw [submit_of_accepted h]
  obtain ⟨hreadable, hv⟩ | ⟨hreadable, hv⟩ := bodyValue_cases (Text.ofUtf8Lossy body)
  · exact ⟨fun _ => hreadable, fun _ => hv⟩
  · rw [hv, hreadable]
    simp

/-- A payload fails if and only if it is refused, exactly if what accepts it answers readably. -/
theorem fails_iff_refused_iff :
    ((∃ e, (submit net base entity p).result = .error e) ↔ ∃ e, Refused net base entity p e) ↔
      ∀ body, Accepted net base entity p body → isReadable (Text.ofUtf8Lossy body) = true := by
  constructor
  · intro h body haccepted
    by_contra hreadable
    have hfails : (submit net base entity p).result = .error .unreadableBody :=
      submit_eq_error_iff.mpr (.inr ⟨rfl, body, haccepted, Bool.eq_false_iff.mpr hreadable⟩)
    obtain ⟨e, hrefused⟩ := h.mp ⟨_, hfails⟩
    exact not_refused_of_accepted haccepted e hrefused
  · intro h
    refine exists_congr fun e => submit_eq_error_iff.trans (or_iff_left ?_)
    rintro ⟨-, body, haccepted, hreadable⟩
    exact Bool.false_ne_true (hreadable.symm.trans (h body haccepted))

end Payload

/-! ## All records -/

/-- The target accepted the payload of a record. -/
def Stored (net : Network) (base : String) (x : String × CompiledRecord) (body : Bytes) : Prop :=
  ∃ p, x.2.outcome = .ok p ∧ Accepted net base x.1 p body

section Records

variable {net : Network} {base : String}

/-- A record is listed with the failures, in its turn, exactly if its outcome is an error. -/
theorem mem_failedOutcomes_submitAll_iff {c : CompiledPayloads} {before : List (String × CompiledRecord)}
    {x : String × CompiledRecord} {after : List (String × CompiledRecord)}
    (hsplit : c.records = before ++ x :: after) {e : SubmitError} :
    ((submitRecord (net.after (before.flatMap (requestsOf net base))) base x).result, e) ∈
        failedOutcomes (submitAll net base c).result ↔
      (submitRecord (net.after (before.flatMap (requestsOf net base))) base x).result.result = .error e := by
  rw [failedOutcomes, List.mem_filterMap]
  constructor
  · rintro ⟨o, -, ho⟩
    cases hresult : o.result with
    | ok v => simp [hresult] at ho
    | error e' =>
      rw [hresult] at ho
      obtain ⟨rfl, rfl⟩ := Prod.mk.inj (Option.some.inj ho)
      exact hresult
  · intro hresult
    refine ⟨_, ?_, by rw [hresult]⟩
    rw [submitAll_append_cons hsplit]
    exact List.mem_append_right _ List.mem_cons_self

/-- A record that is stored fails exactly if the body of the answer is not readable. -/
theorem result_eq_error_iff_of_stored {x : String × CompiledRecord} {body : Bytes}
    (h : Stored net base x body) :
    (∃ e, (submitRecord net base x).result.result = .error e) ↔
      isReadable (Text.ofUtf8Lossy body) = false := by
  obtain ⟨p, hp, haccepted⟩ := h
  rw [submitRecord_of_ok hp, ← Bool.not_eq_true, ← submit_isOk_iff_of_accepted haccepted,
    Exchanged.result_map]
  dsimp only
  cases (submit net base x.1 p).result <;> simp

end Records

/-- **Acceptance.**  A submission fails with the error of a refusal, or because the target has accepted the
payload with a body that is neither blank nor a JSON text; nothing is both refused and accepted.  So a
failure means a refusal, and no record that is listed as failed has been stored in its turn, exactly as far as
all bodies of such answers are readable. -/
theorem failures_refused_iff (net : Network) (base : String) :
    (∀ entity p,
      (∀ e, (submit net base entity p).result = .error e ↔
        Refused net base entity p e ∨
          e = .unreadableBody ∧ ∃ body, Accepted net base entity p body ∧
            isReadable (Text.ofUtf8Lossy body) = false) ∧
      ((∃ body, Accepted net base entity p body) ↔ ¬ ∃ e, Refused net base entity p e) ∧
      (((∃ e, (submit net base entity p).result = .error e) ↔ ∃ e, Refused net base entity p e) ↔
        ∀ body, Accepted net base entity p body → isReadable (Text.ofUtf8Lossy body) = true)) ∧
    ∀ c : CompiledPayloads,
      (∀ before x after, c.records = before ++ x :: after →
        let turn := net.after (before.flatMap (requestsOf net base))
        ∀ e, ((submitRecord turn base x).result, e) ∈ failedOutcomes (submitAll net base c).result →
          ∀ body, ¬ Stored turn base x body) ↔
      ∀ before x after, c.records = before ++ x :: after →
        ∀ body, Stored (net.after (before.flatMap (requestsOf net base))) base x body →
          isReadable (Text.ofUtf8Lossy body) = true := by
  refine ⟨fun entity p => ⟨fun e => submit_eq_error_iff, ⟨?_, ?_⟩, fails_iff_refused_iff⟩, fun c => ?_⟩
  · rintro ⟨body, haccepted⟩ ⟨e, hrefused⟩
    exact not_refused_of_accepted haccepted e hrefused
  · exact (accepted_or_refused net base entity p).resolve_right
  · refine forall₂_congr fun before x => forall₂_congr fun after hsplit => ?_
    simp only [mem_failedOutcomes_submitAll_iff hsplit]
    constructor
    · intro h body hstored
      by_contra hreadable
      obtain ⟨e, he⟩ := (result_eq_error_iff_of_stored hstored).mpr (Bool.eq_false_iff.mpr hreadable)
      exact h e he body hstored
    · intro h e he body hstored
      have hreadable := (result_eq_error_iff_of_stored hstored).mp ⟨e, he⟩
      exact Bool.false_ne_true (hreadable.symm.trans (h body hstored))

/-- A post that is answered with a status of success and a plain word is accepted, and yet listed as
failed. -/
theorem listed_of_unreadable_answer :
    let net : Network := ⟨Url.read, fun _ _ => .answered ⟨201, none, some (Text.utf8 "Created")⟩⟩
    let base := "http://localhost:1337"
    onePost.records = [] ++ ("posts", ⟨0, .ok plainPost⟩) :: [] ∧
      Stored net base ("posts", ⟨0, .ok plainPost⟩) (Text.utf8 "Created") ∧
      ((submitRecord net base ("posts", ⟨0, .ok plainPost⟩)).result, .unreadableBody) ∈
        failedOutcomes (submitAll net base onePost).result := by
  intro net base
  have hbody : bodyValue "Created" = .error .unreadableBody := by decide +kernel
  have haddress : Url.read (entityUrl "http://localhost:1337" "posts") =
      .ok "http://localhost:1337/api/posts" := by decide +kernel
  have hread : net.address (entityUrl base "posts") = .ok "http://localhost:1337/api/posts" := by
    rw [← haddress]
  have haccepted : Accepted net base "posts" plainPost (Text.utf8 "Created") :=
    ⟨by simp [plainPost], "http://localhost:1337/api/posts", ⟨201, none, some (Text.utf8 "Created")⟩, hread,
      rfl, by decide +kernel, rfl⟩
  have hrecord : (submitRecord net base ("posts", ⟨0, .ok plainPost⟩)).result.result =
      .error .unreadableBody := by
    rw [submitRecord_of_ok rfl, Exchanged.result_map, submit_of_accepted haccepted, Text.ofUtf8Lossy_utf8]
    exact hbody
  have hsplit : onePost.records = [] ++ ("posts", ⟨0, .ok plainPost⟩) :: [] := rfl
  have hlisted := @mem_failedOutcomes_submitAll_iff net base _ _ _ _ hsplit .unreadableBody
  rw [List.flatMap_nil, Network.after_nil] at hlisted
  exact ⟨hsplit, ⟨plainPost, rfl, haccepted⟩, hlisted.mpr hrecord⟩

end ContentModel.Http
