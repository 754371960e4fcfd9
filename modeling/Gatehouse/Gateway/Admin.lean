import Gatehouse.Breaker.Registry
import Gatehouse.Gateway.Resource
import Gatehouse.Reply

/-!
# The admin interface

Callers who know the key may look at the breakers and reset them.

* `Admin.isAuthorised` : whether the headers of a request carry the key;
* `Admin.status`, `Admin.breakers`, `Admin.reset` : the three answers.
-/

namespace Gatehouse.Admin

open Gatehouse.Document Gatehouse.Http Gatehouse.Text

def authorizationHeader : List Char := "authorization".toList

/-- What stands in front of the key. -/
def scheme : List Char := "Bearer ".toList

/-- Whether the headers of a request carry the key. An empty key is never carried. -/
def isAuthorised (key : List Char) (headers : Headers) : Bool :=
  !key.isEmpty &&
    (((Headers.first? authorizationHeader headers).bind visibleText?).bind
      (afterPrefix? scheme)).any (· = key)

def snapshotTree (s : Breaker.Snapshot) : Tree :=
  .table [
    ("service", .text s.service),
    ("state", .text s.circuit.name),
    ("failures", .int s.failures),
    ("max_failures", .int s.maxFailures),
    ("open_timeout_ms", .int s.openTimeoutMs),
    ("half_open_timeout_ms", .int s.halfOpenTimeoutMs),
    ("last_failure_ms_ago", s.lastFailureMsAgo.elim .null fun n => .int n),
    ("state_age_ms", .int s.ageMs)]

def version : String := "0.1.0"

def openCircuits (snapshots : List Breaker.Snapshot) : Nat :=
  (snapshots.filter fun s => s.circuit ≠ .closed).length

def status (r : Registry) (routes clients : Nat) (now : Moment) : Response :=
  let opened := openCircuits (r.snapshots now)
  Reply.json .ok (.table [
    ("version", .text version),
    ("status", .text (if opened = 0 then "operational" else "degraded")),
    ("services", .int r.breakers.length),
    ("routes", .int routes),
    ("open_circuits", .int opened),
    ("tracked_clients", .int clients)])

def breakers (r : Registry) (now : Moment) : Response :=
  Reply.json .ok (.list ((r.snapshots now).map snapshotTree))

/-- The answer to a path that does not name a service in UTF-8. -/
def unreadableName : Response :=
  ⟨.badRequest, [⟨Reply.contentType, bytesOf "text/plain; charset=utf-8"⟩],
    bytesOf "Invalid URL: Invalid UTF-8 in `service`"⟩

/-- A breaker is reset; the service is named as it stands in the path. -/
def reset (r : Registry) (segment : List Char) (now : Moment) : Response × Registry × List Event :=
  match textOf? (Url.percentDecode segment) with
  | none => (unreadableName, r, [])
  | some service =>
    match r.reset service now with
    | (false, r, events) => (Reply.unknownService service, r, events)
    | (true, r, events) =>
      let shown := (r.get? service).elim (Reply.bare ⟨204⟩) fun b =>
        Reply.json .ok (snapshotTree (b.snapshot now))
      (shown, r, events ++ [.notice .adminReset])

end Gatehouse.Admin
