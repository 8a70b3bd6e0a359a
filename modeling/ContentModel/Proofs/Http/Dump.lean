import ContentModel.Http.Source
import ContentModel.Proofs.Dataset
import ContentModel.Proofs.Http.Exchange
import ContentModel.Proofs.Records

/-
# The dataset of a dump

Every route is requested in its turn, whatever becomes of the others, and its answer is what the reply to its
request says.  A dump then takes the answers into one object, of a route that is named twice the last one, and
answers the dataset whose value that object is.  What was read from an answer is well-formed, and so is the
object; it has one level more than the answers.

Main statements: `fetchRoute_eq_iff` (one route), `getElem?_fetchRoutes` (every route in its turn),
`assemble_of_unfetched`, `assemble_of_malformed` and `assemble_of_records` (what the answers come to) and
`depth_toValue_le_iff` (how many levels a dump has).
-/

namespace ContentModel.Http

open Json (Value)

variable {net : Network} {timeout : Nat} {endpoint : String}

/-! ## One route -/

/-- What fetching the JSON value under an address comes to, by the reply of the network. -/
inductive Answered (net : Network) (timeout : Nat) (url : String) : Except FetchError Value → Prop where
  /-- No request can be built. -/
  | unsendable {e : UrlError} (reads : net.address url = .error e) :
      Answered net timeout url (.error (.connection (SendError.badUrl e).message))
  | lost {address : String} (reads : net.address url = .ok address)
      (reply : net.reply [] (.get address) = .unreachable ∨ net.reply [] (.get address) = .dropped) :
      Answered net timeout url (.error (.connection (SendError.connection address).message))
  | late {address : String} (reads : net.address url = .ok address)
      (reply : net.reply [] (.get address) = .timedOut) :
      Answered net timeout url (.error (.timeout timeout))
  | refused {address : String} {r : Response} (reads : net.address url = .ok address)
      (reply : net.reply [] (.get address) = .answered r) (failure : r.status < 200 ∨ 300 ≤ r.status) :
      Answered net timeout url (.error (.status url r.status))
  /-- The body breaks off, or its bytes are no JSON text. -/
  | unreadable {address : String} {r : Response} (reads : net.address url = .ok address)
      (reply : net.reply [] (.get address) = .answered r)
      (success : 200 ≤ r.status ∧ r.status < 300)
      (body : ∀ bytes text, r.body = some bytes → Text.ofUtf8? bytes = some text →
        Value.parse? text = none) :
      Answered net timeout url (.error (.connection decodingError))
  | json {address : String} {r : Response} {bytes : Bytes} {text : String} {v : Value}
      (reads : net.address url = .ok address) (reply : net.reply [] (.get address) = .answered r)
      (success : 200 ≤ r.status ∧ r.status < 300) (body : r.body = some bytes) (spells : Text.ofUtf8? bytes = some text)
      (value : Value.parse? text = some v) : Answered net timeout url (.ok v)

/-- The value of an answer is that of the text that its body spells. -/
theorem json_eq_ok_iff {r : Response} {v : Value} :
    r.json = .ok v ↔
      ∃ bytes text, r.body = some bytes ∧ Text.ofUtf8? bytes = some text ∧ Value.parse? text = some v := by
  have hread : r.json = .ok v ↔ (r.body.bind Text.ofUtf8?).bind Value.parse? = some v := by
    rw [Response.json]
    cases (r.body.bind Text.ofUtf8?).bind Value.parse? <;> simp
  rw [hread, Option.bind_eq_some_iff]
  simp only [Option.bind_eq_some_iff]
  constructor
  · rintro ⟨text, ⟨bytes, hbody, hspells⟩, hvalue⟩
    exact ⟨bytes, text, hbody, hspells, hvalue⟩
  · rintro ⟨bytes, text, hbody, hspells, hvalue⟩
    exact ⟨text, ⟨bytes, hbody, hspells⟩, hvalue⟩

/-- Otherwise the answer cannot be read. -/
theorem json_eq_error_iff {r : Response} {e : FetchError} :
    r.json = .error e ↔ e = .connection decodingError ∧
      ∀ bytes text, r.body = some bytes → Text.ofUtf8? bytes = some text → Value.parse? text = none := by
  have hread : (∀ v, r.json ≠ .ok v) ↔
      ∀ bytes text, r.body = some bytes → Text.ofUtf8? bytes = some text → Value.parse? text = none := by
    simp only [ne_eq, json_eq_ok_iff, Option.eq_none_iff_forall_ne_some]
    constructor
    · intro h bytes text hbody hspells v hvalue
      exact h v ⟨bytes, text, hbody, hspells, hvalue⟩
    · rintro h v ⟨bytes, text, hbody, hspells, hvalue⟩
      exact h bytes text hbody hspells v hvalue
  rw [← hread, Response.json]
  cases (r.body.bind Text.ofUtf8?).bind Value.parse? <;> simp [eq_comm]

section Route

variable {route : String}

/-- What fetching a route comes to, if a request can be built. -/
theorem result_fetchRoute {address : String} (h : net.address (routeUrl endpoint route) = .ok address) :
    (fetchRoute net timeout endpoint route).result =
      (fetchResult timeout (routeUrl endpoint route)
        ((net.reply [] (.get address)).response address)).bind Response.json := by
  rw [fetchRoute, fetch, send_get h]
  rfl

/-- Fetching a route comes to what the reply to its request says. -/
theorem fetchRoute_of_answered {answer : Except FetchError Value}
    (h : Answered net timeout (routeUrl endpoint route) answer) :
    (fetchRoute net timeout endpoint route).result = answer := by
  cases h with
  | unsendable reads =>
    rw [fetchRoute, fetch, send_of_error reads]
    rfl
  | lost reads reply =>
    rw [result_fetchRoute reads]
    obtain reply | reply := reply <;> rw [reply] <;> rfl
  | late reads reply =>
    rw [result_fetchRoute reads, reply]
    rfl
  | refused reads reply failure =>
    rw [← Response.isSuccess_eq_false_iff, ← Bool.not_eq_true] at failure
    rw [result_fetchRoute reads, reply, Reply.response, fetchResult, if_neg failure]
    rfl
  | unreadable reads reply success body =>
    rw [result_fetchRoute reads, reply, Reply.response, fetchResult,
      if_pos (Response.isSuccess_iff.mpr success)]
    exact json_eq_error_iff.mpr ⟨rfl, body⟩
  | json reads reply success body spells value =>
    rw [result_fetchRoute reads, reply, Reply.response, fetchResult,
      if_pos (Response.isSuccess_iff.mpr success)]
    exact json_eq_ok_iff.mpr ⟨_, _, body, spells, value⟩

/-- Every reply says what fetching comes to. -/
theorem exists_answered (net : Network) (timeout : Nat) (url : String) :
    ∃ answer, Answered net timeout url answer := by
  cases hreads : net.address url with
  | error e => exact ⟨_, .unsendable hreads⟩
  | ok address =>
    cases hreply : net.reply [] (.get address) with
    | unreachable => exact ⟨_, .lost hreads (.inl hreply)⟩
    | dropped => exact ⟨_, .lost hreads (.inr hreply)⟩
    | timedOut => exact ⟨_, .late hreads hreply⟩
    | answered r =>
      cases hsuccess : r.isSuccess with
      | false => exact ⟨_, .refused hreads hreply (Response.isSuccess_eq_false_iff.mp hsuccess)⟩
      | true =>
        rw [Response.isSuccess_iff] at hsuccess
        cases hjson : r.json with
        | ok v =>
          obtain ⟨bytes, text, hbody, hspells, hvalue⟩ := json_eq_ok_iff.mp hjson
          exact ⟨_, .json hreads hreply hsuccess hbody hspells hvalue⟩
        | error e => exact ⟨_, .unreadable hreads hreply hsuccess (json_eq_error_iff.mp hjson).2⟩

/-- So the reply to the request for a route does. -/
theorem answered_fetchRoute :
    Answered net timeout (routeUrl endpoint route) (fetchRoute net timeout endpoint route).result := by
  obtain ⟨answer, hanswer⟩ := exists_answered net timeout (routeUrl endpoint route)
  rw [fetchRoute_of_answered hanswer]
  exact hanswer

/-- **One route.**  Fetching it comes to what the reply to its request says, and to nothing else. -/
theorem fetchRoute_eq_iff {answer : Except FetchError Value} :
    (fetchRoute net timeout endpoint route).result = answer ↔
      Answered net timeout (routeUrl endpoint route) answer :=
  ⟨fun h => h ▸ answered_fetchRoute, fetchRoute_of_answered⟩

/-- What a route answers with was read from a text. -/
theorem wellFormed_of_answered {url : String} {v : Value} (h : Answered net timeout url (.ok v)) :
    v.WellFormed ∧ v.depth ≤ Json.nestingLimit := by
  cases h with
  | json reads reply success body spells value => exact Value.wellFormed_of_parse? value

end Route

/-! ## All routes -/

/-- The requests for routes, each as it is sent. -/
def routeRequests (net : Network) (endpoint : String) (routes : List String) : List Request :=
  routes.flatMap fun route => (net.outgoing? (.get (routeUrl endpoint route))).toList

/-- A route is requested in the same way whatever was sent before. -/
theorem sent_fetchRoute_after (past : List Request) (route : String) :
    ((fetchRoute (net.after past) timeout endpoint route).map fun answer => (route, answer)).sent =
      (net.outgoing? (.get (routeUrl endpoint route))).toList :=
  sent_send

/-- The first route is fetched, and then the others. -/
theorem result_fetchRoutes_cons (route : String) (routes : List String) :
    (fetchRoutes net timeout endpoint (route :: routes)).result =
      (route, (fetchRoute net timeout endpoint route).result) ::
        (fetchRoutes (net.after (fetchRoute net timeout endpoint route).sent) timeout endpoint routes).result :=
  rfl

/-- **Requests.**  Every route is requested, in order, whatever becomes of the others. -/
theorem sent_fetchRoutes (routes : List String) :
    (fetchRoutes net timeout endpoint routes).sent = routeRequests net endpoint routes :=
  Exchanged.sent_forEach sent_fetchRoute_after routes

/-- **Every route in its turn.**  Its answer stands at its place; it is what the reply says after the requests
for the routes before it. -/
theorem getElem?_fetchRoutes {before : List String} {route : String} {after : List String} :
    ∃ answer,
      (fetchRoutes net timeout endpoint (before ++ route :: after)).result[before.length]? =
          some (route, answer) ∧
        Answered (net.after (routeRequests net endpoint before)) timeout (routeUrl endpoint route) answer :=
  ⟨_, Exchanged.getElem?_result_forEach sent_fetchRoute_after before route after, answered_fetchRoute⟩

/-- There is one answer for each route, in order. -/
theorem map_fst_fetchRoutes (net : Network) (routes : List String) :
    (fetchRoutes net timeout endpoint routes).result.map Prod.fst = routes := by
  rw [fetchRoutes]
  induction routes generalizing net with
  | nil => rfl
  | cons route routes ih =>
    rw [Exchanged.forEach, List.map_cons, ih]
    rfl

/-- What routes answer with was read from texts. -/
theorem wellFormed_of_mem_fetchRoutes {routes : List String} {route : String} {v : Value}
    (h : (route, .ok v) ∈ (fetchRoutes net timeout endpoint routes).result) :
    v.WellFormed ∧ v.depth ≤ Json.nestingLimit := by
  obtain ⟨before, _, after, rfl, hanswer⟩ :=
    (Exchanged.mem_result_forEach_iff sent_fetchRoute_after).mp h
  obtain ⟨rfl, hvalue⟩ := Prod.mk.inj hanswer
  exact wellFormed_of_answered (fetchRoute_eq_iff.mp hvalue)

/-! ## What the answers come to -/

/-- Of the answers of a route, the last one. -/
def LastAnswer (answers : List (String × Except FetchError Value)) (route : String)
    (answer : Except FetchError Value) : Prop :=
  Keyed.LastPut Prod.fst answers route (route, answer)

/-- Routes that all have answered. -/
def answersOf (bodies : Json.Members) : List (String × Except FetchError Value) :=
  bodies.map fun body => (body.1, .ok body.2)

section Assemble

variable {answers : List (String × Except FetchError Value)} {bodies : Json.Members}

/-- The last answers are what is written into the object of all answers. -/
theorem lastAnswer_answersOf_iff {route : String} {v : Value} :
    LastAnswer (answersOf bodies) route (.ok v) ↔ (route, v) ∈ Keyed.ofWrites bodies := by
  rw [Keyed.mem_ofWrites_iff, LastAnswer, Keyed.LastPut, answersOf]
  constructor
  · rintro ⟨before, after, hsplit, -, hafter⟩
    obtain ⟨before, rest, rfl, rfl, hrest⟩ := List.map_eq_append_iff.mp hsplit
    obtain ⟨⟨_, w⟩, after, rfl, hbody, rfl⟩ := List.map_eq_cons_iff.mp hrest
    obtain ⟨rfl, hw⟩ := Prod.mk.inj hbody
    obtain rfl := Except.ok.inj hw
    refine ⟨before, after, rfl, ?_⟩
    rwa [List.map_map] at hafter
  · rintro ⟨before, after, rfl, hafter⟩
    refine ⟨answersOf before, answersOf after, by simp [answersOf], rfl, ?_⟩
    rwa [answersOf, List.map_map]

/-- Answers have bodies exactly if they are those of the routes that have answered. -/
theorem mapM_routeBody_eq_ok_iff : answers.mapM routeBody = .ok bodies ↔ answers = answersOf bodies := by
  have hentry : ∀ (entry : String × Except FetchError Value) (body : String × Value),
      routeBody entry = .ok body ↔ entry = (body.1, .ok body.2) := by
    rintro ⟨route, answer⟩ ⟨name, v⟩
    cases answer <;> simp [routeBody]
  rw [mapM_eq_ok_iff, answersOf]
  simp only [hentry]
  rw [← List.forall₂_eq_eq_eq, List.forall₂_map_right_iff]

/-- **A route that could not be fetched.**  The first of them, in order, is reported, whatever the other routes
answer. -/
theorem assemble_of_unfetched (h : ∃ entry ∈ answers, ∃ e, entry.2 = .error e) :
    ∃ before route e after, answers = before ++ (route, .error e) :: after ∧
      (∀ entry ∈ before, ∃ v, entry.2 = .ok v) ∧ assemble answers = .error (.fetch route e) := by
  rw [assemble]
  cases hmapM : answers.mapM routeBody with
  | ok bodies =>
    obtain ⟨entry, hentry, e, he⟩ := h
    rw [mapM_routeBody_eq_ok_iff.mp hmapM] at hentry
    obtain ⟨body, -, rfl⟩ := List.mem_map.mp hentry
    cases he
  | error error =>
    obtain ⟨before, ⟨route, answer⟩, after, hsplit, hbefore, hfails⟩ := (mapM_eq_error_iff _ _ _).mp hmapM
    cases answer with
    | ok v => cases hfails
    | error e =>
      obtain rfl := Except.error.inj hfails
      refine ⟨before, route, e, after, hsplit, ?_, rfl⟩
      rintro ⟨name, answer⟩ hentry
      obtain ⟨body, hbody⟩ := hbefore _ hentry
      cases answer with
      | ok v => exact ⟨v, rfl⟩
      | error e => cases hbody

/-- Where every route has answered, the object of the answers is read. -/
theorem exists_answersOf (h : ∀ entry ∈ answers, ∃ v, entry.2 = .ok v) :
    ∃ bodies, answers = answersOf bodies ∧
      assemble answers = (Dataset.ofValue (.object (Keyed.ofWrites bodies))).mapError .malformed := by
  have heach : ∀ entry ∈ answers, ∃ body, routeBody entry = .ok body := by
    rintro ⟨route, answer⟩ hentry
    obtain ⟨v, rfl⟩ := h _ hentry
    exact ⟨(route, v), rfl⟩
  obtain ⟨bodies, hbodies⟩ := (exists_mapM_eq_ok_iff _ _).mpr heach
  refine ⟨bodies, mapM_routeBody_eq_ok_iff.mp hbodies, ?_⟩
  rw [assemble, hbodies]

/-- The object of the answers has the routes as its names, in order of first appearance. -/
theorem firstAppearances_ofWrites (bodies : Json.Members) :
    FirstAppearances ((Keyed.ofWrites bodies).map Prod.fst) ((answersOf bodies).map Prod.fst) := by
  rw [answersOf, List.map_map, Keyed.map_fst_ofWrites]
  exact Keyed.firstAppearances_extend _

/-- **An answer that is no list of records.**  Where every route has answered, the fault of the first route whose
last answer is none is reported, in the order in which the routes first appear. -/
theorem assemble_of_malformed (h : ∀ entry ∈ answers, ∃ v, entry.2 = .ok v)
    (hbad : ∃ route v, LastAnswer answers route (.ok v) ∧ ∀ records, v ≠ Dataset.recordsValue records) :
    ∃ before route after v e, FirstAppearances (before ++ route :: after) (answers.map Prod.fst) ∧
      (∀ r ∈ before, ∃ records, LastAnswer answers r (.ok (Dataset.recordsValue records))) ∧
      LastAnswer answers route (.ok v) ∧ Dataset.Fault route v e ∧
      assemble answers = .error (.malformed e) := by
  obtain ⟨bodies, rfl, hassemble⟩ := exists_answersOf h
  have hnames := firstAppearances_ofWrites bodies
  simp only [lastAnswer_answersOf_iff] at hbad ⊢
  rw [hassemble]
  cases hread : Dataset.ofValue (.object (Keyed.ofWrites bodies)) with
  | ok d =>
    obtain ⟨route, v, hmem, hne⟩ := hbad
    have hvalue := (Dataset.ofValue_object_eq_ok_iff (Keyed.nodup_ofWrites bodies)).mp hread
    rw [Value.object.inj hvalue] at hmem
    obtain ⟨entity, -, heq⟩ := List.mem_map.mp hmem
    exact absurd (Prod.mk.inj heq).2.symm (hne _)
  | error e =>
    obtain ⟨before, route, v, after, hsplit, hbefore, hfault⟩ := Dataset.ofValue_object_eq_error_iff.mp hread
    rw [hsplit] at hnames ⊢
    refine ⟨before.map Prod.fst, route, after.map Prod.fst, v, e, ?_, ?_, ?_, hfault, rfl⟩
    · rwa [List.map_append, List.map_cons] at hnames
    · intro r hr
      obtain ⟨body, hbody, rfl⟩ := List.mem_map.mp hr
      obtain ⟨records, hrecords⟩ := hbefore body hbody
      exact ⟨records, hrecords ▸ List.mem_append_left _ hbody⟩
    · exact List.mem_append_right _ List.mem_cons_self

/-- **Lists of records only.**  Where every route has answered, and last with a list of records, the dataset has
the routes as its entities, in order of first appearance, each with the records of its last answer. -/
theorem assemble_of_records (h : ∀ entry ∈ answers, ∃ v, entry.2 = .ok v)
    (hrecords : ∀ route v, LastAnswer answers route (.ok v) → ∃ records, v = Dataset.recordsValue records) :
    ∃ d, assemble answers = .ok d ∧
      FirstAppearances (d.entities.map Prod.fst) (answers.map Prod.fst) ∧
      ∀ entity ∈ d.entities, LastAnswer answers entity.1 (.ok (Dataset.recordsValue entity.2)) := by
  obtain ⟨bodies, rfl, hassemble⟩ := exists_answersOf h
  have hnames := firstAppearances_ofWrites bodies
  simp only [lastAnswer_answersOf_iff] at hrecords ⊢
  rw [hassemble]
  cases hread : Dataset.ofValue (.object (Keyed.ofWrites bodies)) with
  | error e =>
    obtain ⟨before, route, v, after, hsplit, -, hfault⟩ := Dataset.ofValue_object_eq_error_iff.mp hread
    obtain ⟨records, heq⟩ := hrecords route v (hsplit ▸ List.mem_append_right _ List.mem_cons_self)
    exact absurd heq (Dataset.exists_fault_iff.mp ⟨e, hfault⟩ records)
  | ok d =>
    have hvalue := Value.object.inj ((Dataset.ofValue_object_eq_ok_iff (Keyed.nodup_ofWrites bodies)).mp hread)
    refine ⟨d, rfl, ?_, fun entity hentity => ?_⟩
    · rw [hvalue, List.map_map] at hnames
      exact hnames
    · rw [hvalue]
      exact List.mem_map_of_mem hentity

/-- **What is assembled.**  A dataset is assembled exactly if every route has answered, and then its value is
the object of the answers. -/
theorem assemble_eq_ok_iff {d : Dataset} :
    assemble answers = .ok d ↔
      ∃ bodies, answers = answersOf bodies ∧ d.toValue = .object (Keyed.ofWrites bodies) := by
  have hread : ∀ bodies, assemble (answersOf bodies) = .ok d ↔
      d.toValue = .object (Keyed.ofWrites bodies) := by
    intro bodies
    rw [assemble, mapM_routeBody_eq_ok_iff.mpr rfl]
    dsimp only
    rw [eq_comm (a := d.toValue), ← Dataset.ofValue_object_eq_ok_iff (Keyed.nodup_ofWrites bodies)]
    cases Dataset.ofValue (.object (Keyed.ofWrites bodies)) <;> simp [Except.mapError]
  constructor
  · intro hd
    by_cases hanswered : ∀ entry ∈ answers, ∃ v, entry.2 = .ok v
    · obtain ⟨bodies, rfl, -⟩ := exists_answersOf hanswered
      exact ⟨bodies, rfl, (hread bodies).mp hd⟩
    · push Not at hanswered
      obtain ⟨⟨route, answer⟩, hentry, hanswer⟩ := hanswered
      cases answer with
      | ok v => exact absurd rfl (hanswer v)
      | error e =>
        obtain ⟨_, _, _, _, _, _, herror⟩ := assemble_of_unfetched ⟨_, hentry, e, rfl⟩
        rw [herror] at hd
        cases hd
  · rintro ⟨bodies, rfl, hd⟩
    exact (hread bodies).mpr hd

end Assemble

/-! ## A dumped dataset -/

section Dumped

variable {routes : List String} {d : Dataset} (h : (dump net timeout endpoint routes).result = .ok d)

include h

/-- The value of a dumped dataset is well-formed. -/
theorem wellFormed_toValue_of_dump : d.toValue.WellFormed := by
  obtain ⟨bodies, hanswers, heq⟩ := assemble_eq_ok_iff.mp h
  rw [heq]
  refine ⟨Keyed.nodup_ofWrites bodies, Value.wellFormedMembers_iff.mpr fun body hbody => ?_⟩
  have hanswer : (body.1, .ok body.2) ∈ (fetchRoutes net timeout endpoint routes).result := by
    rw [hanswers]
    exact List.mem_map.mpr ⟨body, Keyed.mem_of_mem_ofWrites hbody, rfl⟩
  exact (wellFormed_of_mem_fetchRoutes hanswer).1

/-- **Levels.**  A dumped dataset has one level more than the last answers of the routes. -/
theorem depth_toValue_le_iff {n : Nat} :
    d.toValue.depth ≤ n + 1 ↔
      ∀ route v, LastAnswer (fetchRoutes net timeout endpoint routes).result route (.ok v) → v.depth ≤ n := by
  obtain ⟨bodies, hanswers, heq⟩ := assemble_eq_ok_iff.mp h
  rw [heq, hanswers, Value.depth_object_le_iff]
  simp only [lastAnswer_answersOf_iff, Prod.forall]

end Dumped

end ContentModel.Http
