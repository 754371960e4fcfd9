import Gatehouse.Breaker.Registry
import Gatehouse.Forwarding
import Gatehouse.Reply

/-!
# Calls to backends

A request that has found its target is passed on through the breaker of the service that the target
belongs to. The call is refused by an open circuit, fails at once when it cannot be written, or is
under way until the backend answers, the connection breaks, or time runs out.

* `Dispatcher.start` : a call begins;
* `Dispatcher.finish` : a call under way ends with a result, which its breaker records;
* `Backend.result` : the result that the behaviour of a backend leads to.
-/

namespace Gatehouse

open Gatehouse.Http

/-- What calls are made with: the breakers of the services, how requests are changed, and how long a
backend may take. -/
structure Dispatcher where
  registry : Registry
  rules : ForwardingRules
  backendTimeout : Span
  deriving DecidableEq, Repr, Inhabited

/-- A call under way: the name of its service, whether a breaker guards it, and when time runs
out. -/
structure Forward where
  service : String
  guarded : Bool
  deadline : Moment
  deriving DecidableEq, Repr, Inhabited

/-- An answer, with what became of the request where that is stored with it. -/
structure Answer where
  response : Response
  outcome : Option Outcome
  deriving DecidableEq, Repr, Inhabited

/-- What a call hands back: what became of the request, and the answer to its caller. -/
structure Verdict where
  outcome : Outcome
  answer : Answer
  deriving DecidableEq, Repr

/-- What became of the request is stored with the response. -/
def Verdict.of (outcome : Outcome) (response : Response) : Verdict :=
  ⟨outcome, ⟨response, some outcome⟩⟩

/-- What a backend does with a request. -/
inductive Backend where
  | answers (response : Response)
  /-- The connection is refused, or breaks off before an answer. -/
  | breaksOff
  /-- No answer comes in time. -/
  | keepsSilent
  deriving DecidableEq, Repr

/-- The result of a call to a backend that has so long to answer. -/
def Backend.result (limit : Span) : Backend → Except ForwardingFailure Response
  | answers r =>
    if Status.internalServerError.code ≤ r.status.code then .error (.serverError r) else .ok r
  | breaksOff => .error .transport
  | keepsSilent => .error (.timeout limit)

namespace Dispatcher

/-- What the caller is told about a result. -/
def conclude (service : String) :
    Except ForwardingFailure Response → Outcome × Response × List Event
  | .ok r => (.ofStatus r.status, r, [])
  | .error (.serverError r) => (.ofStatus r.status, r, [.notice .backendFailed])
  | .error (.timeout _) =>
    (.transportFailure service, Reply.badGateway service "Upstream request timed out",
      [.notice .forwardingFailed])
  | .error _ =>
    (.transportFailure service, Reply.badGateway service "Upstream request failed",
      [.notice .forwardingFailed])

def succeeded : Except ForwardingFailure Response → Bool
  | .ok _ => true
  | .error _ => false

/-- A call under way ends. Its breaker, if it has one, records the result. -/
def finish (d : Dispatcher) (now : Moment) (call : Forward)
    (result : Except ForwardingFailure Response) : Verdict × Dispatcher × List Event :=
  let (registry, recorded) :=
    if call.guarded then d.registry.update call.service fun b => b.record (succeeded result) now
    else (d.registry, [])
  let (outcome, response, told) := conclude call.service result
  (.of outcome response, { d with registry := registry }, recorded ++ told)

/-- How a call begins: it is answered at once, or it is under way with a request to a backend. -/
inductive Start where
  | answered (verdict : Verdict)
  | sent (call : Forward) (request : Outbound)
  deriving DecidableEq, Repr

def finishAtOnce (d : Dispatcher) (now : Moment) (call : Forward)
    (result : Except ForwardingFailure Response) : Start × Dispatcher × List Event :=
  let (verdict, d, events) := d.finish now call result
  (.answered verdict, d, events)

def send (d : Dispatcher) (now : Moment) (service : String) (guarded : Bool) (target : Url)
    (r : Request) : Start × Dispatcher × List Event :=
  let call : Forward := ⟨service, guarded, deadline now d.backendTimeout⟩
  match outbound d.rules target r with
  | .error e => d.finishAtOnce now call (.error (.invalidTarget e))
  | .ok (request, events) =>
    if isDue call.deadline now then
      let (start, d, more) := d.finishAtOnce now call (.error (.timeout d.backendTimeout))
      (start, d, events ++ more)
    else (.sent call request, d, events)

/-- What a call to a service hands back whose circuit is open. -/
def refusal (service : String) : Verdict :=
  .of (.breakerOpen service) (Reply.breakerOpen service)

def start (d : Dispatcher) (now : Moment) (target : Url) (r : Request) :
    Start × Dispatcher × List Event :=
  match d.registry.resolve target with
  | none => d.send now Registry.unknownService false target r
  | some b =>
    let (granted, b, asked) := b.begin now
    let d := { d with registry := d.registry.replace b }
    if granted then
      let (start, d, events) := d.send now b.service true target r
      (start, d, asked ++ events)
    else (.answered (refusal b.service), d, asked ++ [.notice .circuitRefused])

end Dispatcher

end Gatehouse
