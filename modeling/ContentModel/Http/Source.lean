import ContentModel.Http.Exchange
import ContentModel.Log
import ContentModel.Payload.Compile

/-
# The source system

Assets are fetched from their addresses.  A dump requests every route of the source system, also if one of them
fails, and then makes each route an entity of a dataset.  It fails with the first route, in order, that could
not be fetched; of a route that is named twice the last answer counts.

A client waits for all routes at once.  Here the requests stand in the order of the routes; since a reply may depend
on all that was sent before, every route can have any reply that it has there.
-/

namespace ContentModel.Http

/-! ## Fetching -/

/-- How long a source has to answer, in seconds, unless another time is given. -/
def fetchTimeout : Nat := 60

/-- What fetching an address comes to, by the answer to the request. -/
def fetchResult (timeout : Nat) (url : String) : Except SendError Response → Except FetchError Response
  | .error (.timedOut _) => .error (.timeout timeout)
  | .error e => .error (.connection e.message)
  | .ok r => if r.isSuccess then .ok r else .error (.status url r.status)

/-- Fetches what stands under an address, with a status that says that the request succeeded. -/
def fetch (net : Network) (timeout : Nat) (url : String) : Exchanged (Except FetchError Response) :=
  (send net (.get url)).map (fetchResult timeout url)

/-- The asset of an answer. -/
def Response.asset (r : Response) : Except FetchError FetchedAsset :=
  match r.body with
  | some content => .ok ⟨content, r.contentType⟩
  | none => .error (.connection decodingError)

/-- Fetches an asset. -/
def fetchAsset (net : Network) (timeout : Nat) (url : String) :
    Exchanged (Except FetchError FetchedAsset) :=
  (fetch net timeout url).map (·.bind Response.asset)

/-- The assets that a network holds.  They do not change while they are fetched: what an address answers does
not depend on other fetches. -/
def assets (net : Network) (timeout : Nat) : Fetcher := fun url =>
  (fetchAsset net timeout url).result

/-! ## Routes -/

/-- The address of a route. -/
def routeUrl (endpoint route : String) : String :=
  Text.joinSlash endpoint route

/-- The JSON value of an answer. -/
def Response.json (r : Response) : Except FetchError Json.Value :=
  match (r.body.bind Text.ofUtf8?).bind Json.Value.parse? with
  | some v => .ok v
  | none => .error (.connection decodingError)

/-- Fetches the JSON value of a route. -/
def fetchRoute (net : Network) (timeout : Nat) (endpoint route : String) :
    Exchanged (Except FetchError Json.Value) :=
  (fetch net timeout (routeUrl endpoint route)).map (·.bind Response.json)

/-- Fetches routes, one after the other; each answer stands beside its route. -/
def fetchRoutes (net : Network) (timeout : Nat) (endpoint : String) (routes : List String) :
    Exchanged (List (String × Except FetchError Json.Value)) :=
  Exchanged.forEach
    (fun net route => (fetchRoute net timeout endpoint route).map fun answer => (route, answer)) net routes

/-! ## Dumping -/

/-- Why a source system could not be dumped. -/
inductive DumpError where
  | fetch (route : String) (source : FetchError)
  | malformed (source : DatasetError)
  deriving DecidableEq, Repr, Inhabited

/-- The wording of an error. -/
def DumpError.message : DumpError → String
  | .fetch route source => "Failed to dump route '" ++ route ++ "': " ++ source.message
  | .malformed source => source.message

/-- A route with the value that it answered with. -/
def routeBody : String × Except FetchError Json.Value → Except DumpError (String × Json.Value)
  | (route, .ok v) => .ok (route, v)
  | (route, .error e) => .error (.fetch route e)

/-- The dataset of the answers of routes. -/
def assemble (answers : List (String × Except FetchError Json.Value)) : Except DumpError Dataset :=
  match answers.mapM routeBody with
  | .error e => .error e
  | .ok bodies => (Dataset.ofValue (.object (Keyed.ofWrites bodies))).mapError .malformed

/-- The dataset of the routes of a source system. -/
def dump (net : Network) (timeout : Nat) (endpoint : String) (routes : List String) :
    Exchanged (Except DumpError Dataset) :=
  (fetchRoutes net timeout endpoint routes).map assemble

/-- The lines logged by a dump: none before all routes have answered. -/
def dumpLog (endpoint : String) (routes : List String) (dumped : Except DumpError Dataset) : List LogLine :=
  match dumped with
  | .error (.fetch _ _) => []
  | _ => [.inform ("Dumped " ++ Nat.repr routes.length ++ " route(s) from " ++ endpoint)]

end ContentModel.Http
