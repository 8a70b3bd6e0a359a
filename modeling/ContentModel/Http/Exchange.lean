import ContentModel.Http.Url
import ContentModel.Text.Utf8

/-
# Requests and replies

A network decides what becomes of a request.  It remembers what was sent before, so that the same request can
have one reply now and another one later.  Operations that send requests show their exchanges next to their
results; what they leave is the network after these requests.
-/

namespace ContentModel.Http

/-! ## Requests -/

/-- What a request asks for. -/
inductive Method where
  | get | post
  deriving DecidableEq, Repr, Inhabited

/-- The word for a method. -/
def Method.tag : Method → String
  | .get => "GET"
  | .post => "POST"

/-- A part of a form. -/
structure Part where
  name : String
  /-- The name and the media type of a file, if the part is a file. -/
  file : Option (String × String)
  content : Bytes
  deriving DecidableEq, Repr, Inhabited

/-- A request; one without parts has no body. -/
structure Request where
  method : Method
  url : String
  parts : List Part
  deriving DecidableEq, Repr, Inhabited

/-- A request for what stands under an address. -/
def Request.get (url : String) : Request :=
  ⟨.get, url, []⟩

/-- A request that sends a form. -/
def Request.post (url : String) (parts : List Part) : Request :=
  ⟨.post, url, parts⟩

/-! ## The head of a part -/

/-- A character of a file's name, as it stands between quotes. -/
def quoteChar (c : Char) : List Char :=
  if c = '"' ∨ c = '\\' ∨ c = '\n' ∨ c = '\x0d' then ['\\', c] else [c]

/-- The name of a part as a parameter; one that an address cannot hold as a segment is percent-encoded. -/
def nameParameter (name : String) : String :=
  let encoded :=
    String.ofList (name.toList.flatMap (Url.encodeChar (Url.pathExceptions ++ ['/', '%'])))
  if encoded = name then "name=\"" ++ name ++ "\"" else "name*=utf-8''" ++ encoded

/-- The header lines of a part. -/
def Part.headers (p : Part) : List String :=
  let disposition := "Content-Disposition: form-data; " ++ nameParameter p.name
  match p.file with
  | none => [disposition]
  | some (fileName, mime) =>
    [disposition ++ "; filename=\"" ++ String.ofList (fileName.toList.flatMap quoteChar) ++ "\"",
      "Content-Type: " ++ mime]

/-! ## Replies -/

/-- An answer of a host. -/
structure Response where
  status : Nat
  contentType : Option String
  /-- The body, unless the connection breaks before all of it has come. -/
  body : Option Bytes
  deriving DecidableEq, Repr, Inhabited

/-- Whether the status of an answer says that the request succeeded. -/
def Response.isSuccess (r : Response) : Bool :=
  200 ≤ r.status && r.status < 300

/-- What becomes of a request, when the redirections that a client follows by itself are behind it. -/
inductive Reply where
  /-- No host accepted the connection. -/
  | unreachable
  /-- The host took the request and closed the connection without an answer. -/
  | dropped
  /-- No answer came in time. -/
  | timedOut
  | answered (r : Response)
  deriving DecidableEq, Repr, Inhabited

/-- What a client relies on: how addresses are read, and what becomes of the requests that are sent. -/
structure Network where
  /-- The normal form of an address to which a request can be sent. -/
  address : String → Except UrlError String
  /-- What becomes of a request to an address in normal form, after other requests. -/
  reply : List Request → Request → Reply

namespace Network

/-- The network in which no host can be reached. -/
def offline : Network :=
  ⟨Url.read, fun _ _ => .unreachable⟩

/-- The network after some requests. -/
def after (net : Network) (sent : List Request) : Network :=
  { net with reply := fun later r => net.reply (sent ++ later) r }

/-- A request with the normal form of its address, if it can be sent. -/
def outgoing? (net : Network) (r : Request) : Option Request :=
  match net.address r.url with
  | .ok address => some { r with url := address }
  | .error _ => none

end Network

/-! ## Exchanges -/

/-- A request that was sent, and what became of it. -/
structure Exchange where
  /-- The request with the address that it was asked for with. -/
  asked : Request
  /-- The normal form of that address, under which the request was sent. -/
  address : String
  reply : Reply
  deriving DecidableEq, Repr, Inhabited

namespace Exchange

/-- The request as it was sent. -/
def sent (x : Exchange) : Request :=
  { x.asked with url := x.address }

/-- Whether a host took the request. -/
def isReceived (x : Exchange) : Bool :=
  x.reply ≠ .unreachable

end Exchange

/-- A result, and the exchanges on the way to it. -/
structure Exchanged (α : Type) where
  result : α
  exchanges : List Exchange
  deriving Repr, Inhabited

namespace Exchanged

variable {α β : Type}

/-- Changes the result only. -/
def map (f : α → β) (t : Exchanged α) : Exchanged β :=
  ⟨f t.result, t.exchanges⟩

/-- The requests that were sent, in order. -/
def sent (t : Exchanged α) : List Request :=
  t.exchanges.map Exchange.sent

/-- Does the same for every element of a list, each time with the network that is left. -/
def forEach (act : Network → α → Exchanged β) : Network → List α → Exchanged (List β)
  | _, [] => ⟨[], []⟩
  | net, x :: xs =>
    let first := act net x
    let rest := forEach act (net.after first.sent) xs
    ⟨first.result :: rest.result, first.exchanges ++ rest.exchanges⟩

end Exchanged

/-! ## Sending -/

/-- Why a request has no answer. -/
inductive SendError where
  | badUrl (error : UrlError)
  /-- The connection to the address failed. -/
  | connection (url : String)
  | timedOut (url : String)
  deriving DecidableEq, Repr, Inhabited

/-- The wording of an error. -/
def SendError.message : SendError → String
  | .badUrl .notAbsolute => "builder error"
  | .badUrl (.otherProtocol url) => "builder error for url (" ++ url ++ ")"
  | .connection url | .timedOut url => "error sending request for url (" ++ url ++ ")"

/-- The answer to a request that was sent to an address. -/
def Reply.response (address : String) : Reply → Except SendError Response
  | .unreachable | .dropped => .error (.connection address)
  | .timedOut => .error (.timedOut address)
  | .answered r => .ok r

/-- Sends a request, unless none can be built for its address. -/
def send (net : Network) (r : Request) : Exchanged (Except SendError Response) :=
  match net.address r.url with
  | .error e => ⟨.error (.badUrl e), []⟩
  | .ok address =>
    let reply := net.reply [] { r with url := address }
    ⟨reply.response address, [⟨r, address, reply⟩]⟩

/-- The wording when a body breaks off, or is none of the kind that is expected. -/
def decodingError : String :=
  "error decoding response body"

end ContentModel.Http
