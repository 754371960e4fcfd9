import Gatehouse.Gateway.Server
import Gatehouse.Proofs.Isolation.Breakers

/-!
# The world around a gateway

A gateway that runs gets requests from its clients and answers from its backends; callers go away,
time passes, and the limiter is swept. Everything that can be seen of it is written down together
with the services that it tells about.

* `Subject` : what the answer to a request tells about;
* `Seen` : what can be seen: answers, requests to backends, measurements, and breakers that change;
* `World`, `Step`, `World.run` : a run of a gateway from its configuration.

Requests have names of their own, and a name that has been used is not used again. What a backend
does is marked with the service it does it for.
-/

namespace Gatehouse

open Gatehouse.Http Gatehouse.Text

/-! ## What can be seen -/

/-- What the answer to a request tells about. -/
inductive Subject where
  /-- No service in particular. -/
  | nothing
  /-- The service that the request is routed to, or whose breaker it resets. -/
  | service (name : String)
  /-- All services: a listing of the breakers. -/
  | everything
  deriving DecidableEq, Repr

def Subject.concerns (service : String) : Subject → Bool
  | nothing => false
  | .service name => name = service
  | everything => true

def Admin.subject (key : List Char) (resource : Resource) (r : Request) : Subject :=
  if isAuthorised key r.headers ∧ resource.allows r.method = true then
    match resource with
    | .reset segment => (textOf? (Url.percentDecode segment)).elim .nothing .service
    | _ => .everything
  else .nothing

namespace Gateway

variable {α : Type} (g : Gateway α) (r : Request)

def resource : Resource := .ofPath g.config.admin.enabled r.uri.path

def subject : Subject :=
  if (g.resource r).isAdmin = true then
    Admin.subject g.config.admin.apiKey.toList (g.resource r) r
  else if g.resource r = .backend then
    (g.table.find? r.method r.uri.path).elim .nothing fun route => .service route.service
  else .nothing

end Gateway

/-- Something that can be seen of a gateway: the answer to a request, a request to a backend, a
measurement, or a breaker that has changed. -/
inductive Seen where
  | answered (id : String) (subject : Subject) (answer : Answer)
  | sent (id : String) (subject : Subject) (request : Outbound)
  | measured (measurement : Measurement)
  | breaker (breaker : Breaker)
  deriving DecidableEq, Repr

namespace Seen

def concerns (service : String) : Seen → Bool
  | answered _ subject _ => subject.concerns service
  | sent _ subject _ => subject.concerns service
  | measured m => m.service? = some service
  | breaker b => b.service = service

/-- What is seen when a request comes in. A client that the limiter turns away is told about no
service at all. -/
def ofArrival (id : String) (subject : Subject) : Gateway.Arrival → Seen
  | .answered a => answered id (if a.outcome = some .rateLimited then .nothing else subject) a
  | .sent request => sent id subject request

def ofAnswers (subjects : List (String × Subject)) (answers : List (String × Answer)) : List Seen :=
  answers.map fun (id, a) => answered id ((subjects.lookup id).getD .nothing) a

def ofEvents (events : List Event) : List Seen := (Event.measurements events).map measured

def ofBreaker (before after : Option Breaker) : List Seen :=
  if before = after then [] else (after.map breaker).toList

def ofChange (before after : Registry) : List Seen :=
  after.entries.flatMap fun e => ofBreaker (before.get? e.service) (after.get? e.service)

end Seen

/-! ## Runs -/

/-- A gateway that runs at a moment, with what every request so far was about and all that has been
seen. -/
structure World (α : Type) where
  now : Moment
  server : Server α
  subjects : List (String × Subject)
  seen : List Seen

inductive Step where
  /-- A request comes in; `fresh` is the name that it gets for its header if it carries none. -/
  | request (id : String) (fresh : Bytes) (r : Request)
  /-- The backend of a service does something with a request that was routed to the service. -/
  | respond (service id : String) (backend : Backend)
  /-- The caller of a request goes away. -/
  | cancel (id : String)
  | advance (span : Span)
  /-- The limiter is swept by hand. -/
  | sweep
  deriving DecidableEq, Repr

/-- Whether a step is something that the backend of a service does. -/
def Step.isBackendOf (service : String) : Step → Bool
  | respond s _ _ => s = service
  | _ => false

namespace World

variable {α : Type}

def gateway (w : World α) : Gateway α := w.server.gateway

def registry (w : World α) : Registry := w.gateway.registry

/-- The world once something has happened to the gateway. -/
def next (w : World α) (server : Server α) (told : List Seen) (events : List Event) : World α :=
  { w with
    server := server
    seen := w.seen ++
      (told ++ Seen.ofEvents events ++ Seen.ofChange w.registry server.gateway.registry) }

/-- The world with another gateway in the place of the one that runs. -/
def nextGateway (w : World α) (g : Gateway α) (told : List Seen) (events : List Event) : World α :=
  w.next { w.server with gateway := g } told events

def step [TokenArithmetic α] (w : World α) : Step → World α
  | .request id fresh r =>
    if (w.subjects.lookup id).isSome then w
    else
      let subject := w.gateway.subject (r.named fresh)
      let (arrival, g, events) := w.gateway.arrive w.now id fresh r
      { w with subjects := (id, subject) :: w.subjects }.nextGateway g
        [.ofArrival id subject arrival] events
  | .respond service id backend =>
    if w.subjects.lookup id = some (.service service) then
      let (answer, g, events) := w.gateway.respond w.now id backend
      w.nextGateway g (Seen.ofAnswers w.subjects (answer.toList.map fun a => (id, a))) events
    else w
  | .cancel id => w.nextGateway (w.gateway.abandon id).2 [] []
  | .advance span =>
    let (told, s, events) := w.server.wake (w.now + span)
    { w with now := w.now + span }.next s (Seen.ofAnswers w.subjects told) events
  | .sweep =>
    let (_, limiter, events) := w.gateway.limiter.sweep w.now
    w.nextGateway { w.gateway with limiter := limiter } [] events

def begin [Idna] [TokenArithmetic α] (c : Config) (start : Moment) : World α :=
  ⟨start, (Server.start (Gateway.ofConfig c start).1 start).1, [], []⟩

def run [Idna] [TokenArithmetic α] (c : Config) (start : Moment) (steps : List Step) : World α :=
  steps.foldl step (begin c start)

end World

end Gatehouse
