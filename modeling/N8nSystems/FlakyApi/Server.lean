import N8nSystems.FlakyApi.Store
import N8nSystems.Lib.Pool

/-! The flaky API (`server.go`): item requests behind `withFaults`, and the admin
requests. A request runs in steps, one for each store it locks, and requests run
at once; reading the counters changes nothing and is left out. -/

namespace N8nSystems.FlakyApi

open Lib Lib.Go

inductive Route where
  | getItems | postItems | putItems | getItemByID
  deriving DecidableEq, Repr

structure RouteMode where
  errorRate : Rat
  status : Int
  latencyMS : Int
  retryAfterS : Int
  authFail : Bool

/-- The zero value, which a missing mode reads as. -/
def RouteMode.zero : RouteMode := ⟨0, 0, 0, 0, false⟩

structure MetricKey where
  route : Route
  code : Bytes
  deriving DecidableEq

structure Server where
  store : Store
  modes : GoMap Route RouteMode
  stats : GoMap Route UInt64
  metrics : GoMap MetricKey UInt64

def newServer : Server := ⟨.empty, .empty, .empty, .empty⟩

inductive Body where
  | error (message : Bytes)
  | items (items : List Item)
  | item (item : Item)
  | modeSet (route : Route)
  | ok
  | empty

structure Response where
  status : Int
  retryAfter : Option Bytes
  body : Body

def writeJSON (status : Int) (body : Body) : Response := ⟨status, none, body⟩

/-- What `net/http` sends of a response: an informational status only goes ahead of an implicit 200,
and some statuses have no body. -/
def Response.sent (response : Response) : Response :=
  if response.status = 100 ∨ 102 ≤ response.status ∧ response.status ≤ 199 then { response with status := 200 }
  else if response.status ∈ [101, 204, 304] then { response with body := .empty }
  else response

def badRequest (message : Bytes) : Response := writeJSON 400 (.error message)

/-- An item request, with what `decodeItem` makes of its body. -/
inductive ItemCall where
  | list
  | create (decoded : Except Bytes Item)
  | put (decoded : Except Bytes Item)
  | get (id : Bytes)

def ItemCall.route : ItemCall → Route
  | .list => .getItems
  | .create _ => .postItems
  | .put _ => .putItems
  | .get _ => .getItemByID

/-- A `modeRequest`, with what `normalizeRoute` makes of its route, method and path. -/
structure ModeRequest where
  route : Except Bytes Route
  mode : RouteMode

inductive Call where
  | item (call : ItemCall)
  | mode (decoded : Except Bytes ModeRequest)
  | reset

variable (runtime : Runtime)

def handleCreateItem (store : Store) : Except Bytes Item → Response × Store
  | .error message => (badRequest message, store)
  | .ok item =>
    match store.create runtime item with
    | (.error .conflict, store) => (writeJSON 409 (.error (lit "item already exists")), store)
    | (.error .missingID, store) => (badRequest (lit "missing id"), store)
    | (.ok created, store) => (writeJSON 201 (.item created), store)

def handlePutItem (store : Store) : Except Bytes Item → Response × Store
  | .error message => (badRequest message, store)
  | .ok item =>
    match store.upsert runtime item with
    | (.error .missingID, store) => (badRequest (lit "id is required"), store)
    | (.error .conflict, store) => (badRequest (lit "item already exists"), store)
    | (.ok updated, store) => (writeJSON 200 (.item updated), store)

def handleGetItem (store : Store) (id : Bytes) : Response :=
  if id = [] then badRequest (lit "id is required")
  else
    match store.get id with
    | none => writeJSON 404 (.error (lit "not found"))
    | some item => writeJSON 200 (.item item)

/-- `next(sw, r)`. -/
def ItemCall.handle (call : ItemCall) (draw : Rat) (store : Store) : Response × Store :=
  match call with
  | .list => (writeJSON 200 (.items (store.list runtime draw)), store)
  | .create decoded => handleCreateItem runtime store decoded
  | .put decoded => handlePutItem runtime store decoded
  | .get id => (handleGetItem store id, store)

/-- `shouldFail`, with the number that `rand.Float64()` draws. -/
def shouldFail (mode : RouteMode) (draw : Rat) : Bool :=
  if mode.errorRate < 0 then false
  else if 0 < mode.errorRate then
    if 1 ≤ mode.errorRate then true else draw < mode.errorRate
  else mode.status ≠ 0

/-- The response of a request that is made to fail. -/
def failure (mode : RouteMode) : Response :=
  let status := if mode.status = 0 then 500 else mode.status
  ⟨status, if 0 < mode.retryAfterS then some (formatInt mode.retryAfterS) else none,
    .error (runtime.statusText status)⟩

/-- `handleAdminMode`. -/
def handleAdminMode (modes : GoMap Route RouteMode) :
    Except Bytes ModeRequest → Response × GoMap Route RouteMode
  | .error message => (badRequest message, modes)
  | .ok request =>
    match request.route with
    | .error message => (badRequest message, modes)
    | .ok route =>
      if request.mode.errorRate < 0 ∨ 1 < request.mode.errorRate then
        (badRequest (lit "error_rate must be between 0 and 1"), modes)
      else if request.mode.latencyMS < 0 then (badRequest (lit "latency_ms must be >= 0"), modes)
      else if request.mode.retryAfterS < 0 then
        (badRequest (lit "retry_after_s must be >= 0"), modes)
      else if request.mode.status ≠ 0 ∧ (request.mode.status < 100 ∨ 599 < request.mode.status) then
        (badRequest (lit "status must be a valid HTTP status"), modes)
      else (writeJSON 200 (.modeSet route), modes.set route request.mode)

/-- How far a request has come. -/
inductive Phase where
  | waiting
  /-- Counted into the statistics. -/
  | counted
  /-- With its route's mode; it may sleep here. -/
  | admitted (mode : RouteMode)
  /-- With its response written, and not yet counted into the metrics. -/
  | answered (response : Response)
  | modesReset
  | statsReset
  | metricsReset
  | finished (response : Response)

/-- `withFaults` around the handler of the route, and `observe`. -/
def withFaults (call : ItemCall) (draw : Rat) : Phase → Server → Option (Phase × Server)
  | .waiting, server => some (.counted, { server with stats := server.stats.bump call.route })
  | .counted, server => some (.admitted ((server.modes.get? call.route).getD .zero), server)
  | .admitted mode, server =>
    if mode.authFail then some (.answered (writeJSON 401 (.error (lit "unauthorized"))), server)
    else if shouldFail mode draw then some (.answered (failure runtime mode), server)
    else
      let (response, store) := call.handle runtime draw server.store
      some (.answered response, { server with store })
  | .answered response, server =>
    let status := if response.status = 0 then 200 else response.status
    some (.finished response,
      { server with metrics := server.metrics.bump ⟨call.route, formatInt status⟩ })
  | _, _ => none

def handleAdminReset : Phase → Server → Option (Phase × Server)
  | .waiting, server => some (.modesReset, { server with modes := .empty })
  | .modesReset, server => some (.statsReset, { server with stats := .empty })
  | .statsReset, server => some (.metricsReset, { server with metrics := .empty })
  | .metricsReset, server => some (.finished (writeJSON 200 .ok), { server with store := .empty })
  | _, _ => none

/-- One step of a request; the environment chooses what is drawn. -/
def serve (calls : Request → Call) (request : Request) (draw : Rat) (phase : Phase) (server : Server) :
    Option (Phase × Server) :=
  match calls request, phase with
  | .item call, phase => withFaults runtime call draw phase server
  | .mode decoded, .waiting =>
    let (response, modes) := handleAdminMode server.modes decoded
    some (.finished response, { server with modes })
  | .mode _, _ => none
  | .reset, phase => handleAdminReset phase server

end N8nSystems.FlakyApi
