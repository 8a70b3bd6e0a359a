import Mathlib.Data.List.Basic
import ContentModel.Http.Exchange

/-
# Operations one after the other

A network that was used is the network after what was sent.  Where the requests for an element do not depend on
replies, each element of a list finds the network after the requests for the elements before it, and its result
stands at its place.

Main statements: `forEach_append_cons` (the turn of an element), `sent_forEach` (all requests) and `sent_send`
(one request).
-/

namespace ContentModel.Http

/-! ## Networks in use -/

namespace Network

@[simp]
theorem after_nil (net : Network) : net.after [] = net :=
  rfl

/-- Requests after requests. -/
@[simp]
theorem after_after (net : Network) (first later : List Request) :
    (net.after first).after later = net.after (first ++ later) := by
  simp only [after, List.append_assoc]

end Network

/-! ## Answers -/

namespace Response

variable {r : Response}

/-- A request succeeds with a status in the two hundreds. -/
theorem isSuccess_iff : r.isSuccess = true ↔ 200 ≤ r.status ∧ r.status < 300 := by
  rw [isSuccess, Bool.and_eq_true, decide_eq_true_eq, decide_eq_true_eq]

/-- With any other status it does not. -/
theorem isSuccess_eq_false_iff : r.isSuccess = false ↔ r.status < 200 ∨ 300 ≤ r.status := by
  rw [← Bool.not_eq_true, isSuccess_iff]
  omega

end Response

/-! ## Elements of a list -/

namespace Exchanged

variable {α β γ : Type}

@[simp]
theorem result_map (f : α → β) (t : Exchanged α) : (t.map f).result = f t.result :=
  rfl

@[simp]
theorem exchanges_map (f : α → β) (t : Exchanged α) : (t.map f).exchanges = t.exchanges :=
  rfl

@[simp]
theorem sent_map (f : α → β) (t : Exchanged α) : (t.map f).sent = t.sent :=
  rfl

variable {act : Network → α → Exchanged β}

/-- The elements of two lists, first those of the one, and then those of the other. -/
theorem forEach_append (net : Network) (xs ys : List α) :
    forEach act net (xs ++ ys) =
      let first := forEach act net xs
      let rest := forEach act (net.after first.sent) ys
      ⟨first.result ++ rest.result, first.exchanges ++ rest.exchanges⟩ := by
  induction xs generalizing net with
  | nil => rfl
  | cons x xs ih =>
    rw [List.cons_append, forEach, ih]
    simp only [forEach, sent, List.map_append, Network.after_after, List.cons_append, List.append_assoc]

/-- There is a result for every element. -/
theorem length_result_forEach (net : Network) (xs : List α) :
    (forEach act net xs).result.length = xs.length := by
  induction xs generalizing net with
  | nil => rfl
  | cons x xs ih => rw [forEach, List.length_cons, List.length_cons, ih]

section Requests

variable {net : Network} {requests : α → List Request}
  (hsent : ∀ past x, (act (net.after past) x).sent = requests x)

include hsent

/-- The requests for all elements, after some others. -/
theorem sent_forEach_after (past : List Request) (xs : List α) :
    (forEach act (net.after past) xs).sent = xs.flatMap requests := by
  induction xs generalizing past with
  | nil => rfl
  | cons x xs ih =>
    have hfirst := hsent past x
    have hrest := ih (past ++ requests x)
    rw [sent] at hfirst hrest
    rw [forEach, sent, List.map_append, hfirst, List.flatMap_cons, ← hrest]
    simp only [sent, hfirst, Network.after_after]

/-- **Requests.**  What is sent are the requests for the elements, in order. -/
theorem sent_forEach (xs : List α) : (forEach act net xs).sent = xs.flatMap requests :=
  sent_forEach_after hsent [] xs

/-- **The turn of an element.**  It finds the network after the requests for the elements before it. -/
theorem forEach_append_cons (before : List α) (x : α) (after : List α) :
    let first := forEach act net before
    let here := act (net.after (before.flatMap requests)) x
    let last := forEach act (net.after (before.flatMap requests ++ requests x)) after
    forEach act net (before ++ x :: after) =
      ⟨first.result ++ here.result :: last.result, first.exchanges ++ (here.exchanges ++ last.exchanges)⟩ := by
  intro first here last
  rw [forEach_append]
  simp only [forEach, sent_forEach hsent, hsent, Network.after_after]
  rfl

/-- The result of an element stands at its place. -/
theorem getElem?_result_forEach (before : List α) (x : α) (after : List α) :
    (forEach act net (before ++ x :: after)).result[before.length]? =
      some (act (net.after (before.flatMap requests)) x).result := by
  have hlength : (forEach act net before).result.length = before.length := length_result_forEach net before
  rw [forEach_append_cons hsent]
  dsimp only
  rw [← hlength, List.getElem?_append_right (Nat.le_refl _), Nat.sub_self]
  rfl

/-- The results are those of the elements, each in its turn. -/
theorem mem_result_forEach_iff {xs : List α} {y : β} :
    y ∈ (forEach act net xs).result ↔ ∃ before x after, xs = before ++ x :: after ∧
      (act (net.after (before.flatMap requests)) x).result = y := by
  constructor
  · intro hy
    obtain ⟨i, hi, rfl⟩ := List.mem_iff_getElem.mp hy
    have hx : i < xs.length := by rwa [length_result_forEach] at hi
    have hsplit : xs = xs.take i ++ xs[i] :: xs.drop (i + 1) := by simp
    refine ⟨xs.take i, xs[i], xs.drop (i + 1), hsplit, ?_⟩
    have hplace := getElem?_result_forEach hsent (xs.take i) xs[i] (xs.drop (i + 1))
    rw [← hsplit, List.length_take_of_le (Nat.le_of_lt hx), List.getElem?_eq_getElem hi] at hplace
    exact (Option.some.inj hplace).symm
  · rintro ⟨before, x, after, rfl, rfl⟩
    exact List.mem_of_getElem? (getElem?_result_forEach hsent before x after)

end Requests

end Exchanged

/-! ## One request -/

section Send

variable {net : Network} {r : Request}

/-- Nothing is sent to an address that cannot be read. -/
theorem send_of_error {e : UrlError} (h : net.address r.url = .error e) :
    send net r = ⟨.error (.badUrl e), []⟩ := by
  rw [send, h]

/-- To any other address the request is sent once. -/
theorem send_of_ok {address : String} (h : net.address r.url = .ok address) :
    send net r =
      ⟨(net.reply [] { r with url := address }).response address,
        [⟨r, address, net.reply [] { r with url := address }⟩]⟩ := by
  rw [send, h]

/-- The one exchange of a request for what stands under an address. -/
theorem send_get {url address : String} (h : net.address url = .ok address) :
    send net (.get url) =
      ⟨(net.reply [] (.get address)).response address, [⟨.get url, address, net.reply [] (.get address)⟩]⟩ :=
  send_of_ok h

/-- The one exchange of a request that sends a form. -/
theorem send_post {url address : String} {parts : List Part} (h : net.address url = .ok address) :
    send net (.post url parts) =
      ⟨(net.reply [] (.post address parts)).response address,
        [⟨.post url parts, address, net.reply [] (.post address parts)⟩]⟩ :=
  send_of_ok h

/-- Every request on the way is the one that was asked for. -/
theorem asked_of_mem_exchanges_send {x : Exchange} (h : x ∈ (send net r).exchanges) : x.asked = r := by
  rw [send] at h
  split at h
  · cases h
  · rw [List.mem_singleton.mp h]

/-- What is sent does not depend on replies. -/
theorem sent_send : (send net r).sent = (net.outgoing? r).toList := by
  rw [Network.outgoing?]
  cases h : net.address r.url with
  | error e => rw [send_of_error h]; rfl
  | ok address => rw [send_of_ok h]; rfl

end Send

end ContentModel.Http
