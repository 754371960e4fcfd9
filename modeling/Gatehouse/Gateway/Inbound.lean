import Gatehouse.Gateway.Basic

/-!
# A request through the gateway

A request gets a name, is admitted by the limiter, and finds what its path leads to. Requests to the
admin interface need the key and are not limited. A request that takes a route is under way until
its call ends, its own time runs out, or its caller goes away.

* `Gateway.arrive` : a request comes in, and is answered or under way;
* `Gateway.conclude` : a call under way ends;
* `Gateway.expire` : the timers of a call have run out;
* `Gateway.abandon` : a caller goes away;
* `Gateway.wake` : the clock has moved.
-/

namespace Gatehouse

open Gatehouse.Http Gatehouse.Text

/-! ## The last touch -/

def allowHeader : List Char := "allow".toList

def methodList (ms : List Method) : Bytes :=
  bytesOf (",".intercalate (ms.map fun m => .ofList m.name))

/-- A header is added unless the response has one of that name. -/
def Http.Response.addMissing (name : List Char) (value : Bytes) (r : Response) : Response :=
  if (Headers.first? name r.headers).isSome then r
  else { r with headers := r.headers ++ [⟨name, value⟩] }

/-- What every response gets on its way out: the name of the request, the methods that would have
been allowed when `refused` lists them, and no body when the method asks for none. -/
def outgoing (method : Method) (requestId : Bytes) (refused : Option (List Method)) (r : Response) :
    Response :=
  let r := r.addMissing requestIdHeader requestId
  if method.name = "CONNECT".toList ∧ r.status.isSuccess then { r with body := [] }
  else
    let r := match refused with
      | some ms => r.addMissing allowHeader (methodList ms)
      | none => r
    if method = .head then { r with body := [] } else r

/-- The request with a name: its own, or a fresh one. -/
def Http.Request.named (fresh : Bytes) (r : Request) : Request :=
  if (Headers.first? requestIdHeader r.headers).isSome then r
  else { r with headers := r.headers ++ [⟨requestIdHeader, fresh⟩] }

def Http.Request.name (r : Request) : Bytes := (Headers.first? requestIdHeader r.headers).getD []

namespace Gateway

variable {α : Type}

/-! ## Coming in -/

/-- What happens to a request when it comes in. -/
inductive Arrival where
  | answered (answer : Answer)
  | sent (request : Outbound)
  deriving DecidableEq, Repr

def measured (method : Method) (status : Status) (service : String) (outcome : Outcome)
    (duration : Span) : Event :=
  .measurement (.request method.name status service outcome.label duration)

/-- What is told about a routed request when it is answered. -/
def completed (inbound : Inbound) (now : Moment) (v : Verdict) : List Event :=
  [measured inbound.method v.answer.response.status inbound.service v.outcome
    (elapsed now inbound.started), .notice .requestCompleted]

def route (g : Gateway α) (now : Moment) (id : String) (timeout : Moment) (r : Request) :
    Arrival × Gateway α × List Event :=
  match g.table.find? r.method r.uri.path with
  | none =>
    (.answered ⟨Reply.routeNotFound, some .routeNotFound⟩, g,
      [.notice .requestReceived, .notice .requestUnrouted,
        measured r.method .notFound "none" .routeNotFound 0])
  | some route =>
    let inbound : Inbound := ⟨r.method, r.name, route.service, now, timeout⟩
    match g.dispatcher.start now route.target r with
    | (.answered v, d, events) =>
      (.answered v.answer, { g with dispatcher := d },
        .notice .requestReceived :: events ++ completed inbound now v)
    | (.sent forward request, d, events) =>
      (.sent request, { g with dispatcher := d, calls := g.calls ++ [⟨id, forward, some inbound⟩] },
        .notice .requestReceived :: events)

/-- A request that is not for the admin interface, once it is admitted. -/
def serve (g : Gateway α) (now : Moment) (id : String) (timeout : Moment) (resource : Resource)
    (r : Request) : Arrival × Gateway α × List Event :=
  match resource with
  | .backend => g.route now id timeout r
  | _ =>
    if resource.allows r.method then (.answered ⟨Reply.healthy, none⟩, g, [])
    else (.answered ⟨Reply.bare .methodNotAllowed, none⟩, g, [])

/-- A request that is not for the admin interface: the limiter is asked first, if it is on. -/
def enter [TokenArithmetic α] (g : Gateway α) (now : Moment) (id : String) (timeout : Moment)
    (resource : Resource) (r : Request) : Arrival × Gateway α × List Event :=
  if g.config.rateLimit.enabled then
    let (outcome, limiter) := g.limiter.admission r.client now
    let g := { g with limiter := limiter }
    match outcome with
    | .admitted => g.serve now id timeout resource r
    | outcome =>
      (.answered ⟨Reply.rateLimited, some outcome⟩, g,
        [.notice .limitExceeded, .measurement .rateLimited])
  else g.serve now id timeout resource r

def administer (g : Gateway α) (now : Moment) (resource : Resource) (r : Request) :
    Response × Gateway α × List Event :=
  let key := g.config.admin.apiKey.toList
  if !Admin.isAuthorised key r.headers then
    (Reply.bare .unauthorized, g, if key.isEmpty then [] else [.notice .adminRefused])
  else if !resource.allows r.method then (Reply.bare .methodNotAllowed, g, [])
  else
    match resource with
    | .status =>
      (Admin.status g.registry g.table.routes.length g.limiter.size now, g, [])
    | .breakers => (Admin.breakers g.registry now, g, [])
    | .reset segment =>
      let (response, registry, events) := Admin.reset g.registry segment now
      (response, g.withRegistry registry, events)
    | _ => (Reply.bare .notFound, g, [])

/-- A request comes in under the name `id`; `fresh` is the name that it gets if it carries none. A
request that has no time at all is answered before anything is done for it. -/
def arrive [TokenArithmetic α] (g : Gateway α) (now : Moment) (id : String) (fresh : Bytes)
    (r : Request) : Arrival × Gateway α × List Event :=
  let r := r.named fresh
  let resource := Resource.ofPath g.config.admin.enabled r.uri.path
  let finish (a : Answer) : Answer :=
    { a with response := outgoing r.method r.name (resource.refusal? r.method) a.response }
  let timeout := deadline now (Span.seconds g.config.timeouts.requestSecs.toNat)
  if isDue timeout now then (.answered (finish ⟨Reply.bare .requestTimeout, none⟩), g, [])
  else if resource.isAdmin then
    let (response, g, events) := g.administer now resource r
    (.answered (finish ⟨response, none⟩), g, events)
  else
    match g.enter now id timeout resource r with
    | (.answered a, g, events) => (.answered (finish a), g, events)
    | (.sent request, g, events) => (.sent request, g, events)

/-- A call that is made without a request from outside. -/
def dispatch (g : Gateway α) (now : Moment) (id : String) (target : Url) (r : Request) :
    Arrival × Gateway α × List Event :=
  match g.dispatcher.start now target r with
  | (.answered v, d, events) => (.answered v.answer, { g with dispatcher := d }, events)
  | (.sent forward request, d, events) =>
    (.sent request, { g with dispatcher := d, calls := g.calls ++ [⟨id, forward, none⟩] }, events)

/-! ## Going out -/

/-- The answer of a call on its way out. -/
def leave (call : Call) (now : Moment) (v : Verdict) : Answer × List Event :=
  match call.inbound with
  | some inbound =>
    ({ v.answer with
        response := outgoing inbound.method inbound.requestId none v.answer.response },
      completed inbound now v)
  | none => (v.answer, [])

/-- A call under way ends with a result. -/
def conclude (g : Gateway α) (now : Moment) (call : Call)
    (result : Except ForwardingFailure Response) : Answer × Gateway α × List Event :=
  let (v, d, events) := g.dispatcher.finish now call.forward result
  let (a, told) := leave call now v
  (a, { g.removeCall call.id with dispatcher := d }, events ++ told)

/-- The backend of a call does something. There may be no such call any more. -/
def respond (g : Gateway α) (now : Moment) (id : String) (backend : Backend) :
    Option Answer × Gateway α × List Event :=
  match g.call? id with
  | none => (none, g, [])
  | some call =>
    let (a, g, events) := g.conclude now call (backend.result g.dispatcher.backendTimeout)
    (some a, g, events)

/-- The caller of a call goes away; nothing is recorded. Says whether there was such a call. -/
def abandon (g : Gateway α) (id : String) : Bool × Gateway α :=
  ((g.call? id).isSome, g.removeCall id)

/-! ## Time -/

/-- The first moment at which a timer of a call runs out. -/
def Call.firstDeadline (c : Call) : Moment :=
  match c.inbound with
  | some inbound => min inbound.deadline c.forward.deadline
  | none => c.forward.deadline

/-- A timer of a call has run out. When the whole request has taken too long nothing is recorded,
otherwise the backend has failed. -/
def expire (g : Gateway α) (now : Moment) (call : Call) : Answer × Gateway α × List Event :=
  match call.inbound with
  | some inbound =>
    if isDue inbound.deadline now then
      (⟨outgoing inbound.method inbound.requestId none (Reply.bare .requestTimeout), none⟩,
        g.removeCall call.id, [])
    else g.conclude now call (Backend.keepsSilent.result g.dispatcher.backendTimeout)
  | none => g.conclude now call (Backend.keepsSilent.result g.dispatcher.backendTimeout)

/-- The calls that a timer of has run out, the one whose timer was first in front. -/
def dueCalls (g : Gateway α) (now : Moment) : List Call :=
  (g.calls.filter fun c => isDue (Call.firstDeadline c) now).mergeSort fun a b =>
    Call.firstDeadline a ≤ Call.firstDeadline b

/-- The clock has moved to `now`: every call whose time has run out is answered. -/
def wake (g : Gateway α) (now : Moment) : List (String × Answer) × Gateway α × List Event :=
  (g.dueCalls now).foldl
    (fun (answers, g, events) call =>
      let (a, g, more) := g.expire now call
      (answers ++ [(call.id, a)], g, events ++ more))
    ([], g, [])

end Gateway

end Gatehouse
