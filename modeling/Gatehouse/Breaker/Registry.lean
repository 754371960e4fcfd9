import Gatehouse.Breaker.Call
import Gatehouse.Url.Parser

/-!
# The breakers of all services

Each service has a breaker of its own. A call is made to an address, so the registry finds the
service that an address belongs to: the one whose base URL it is, or the one named by the first
label of its host, `auth-service` for `auth`. A call to any other address goes unguarded.

* `Registry.ofServices` : the registry of some services;
* `Registry.resolve` : the service whose breaker guards a target;
* `Registry.update` : an operation on the breaker of one service.
-/

namespace Gatehouse

open Gatehouse.Text

/-- A service by its name and the address of its backend, if that is a URL. -/
structure Registry.Entry where
  service : String
  base : Option Url
  deriving DecidableEq, Repr, Inhabited

/-- The breakers of all services, one for each name, in the order in which the names first came, and
the services as they were given. -/
structure Registry where
  breakers : List Breaker
  entries : List Registry.Entry
  deriving DecidableEq, Repr, Inhabited

namespace Registry

/-- The path of a URL without the slashes at its end. -/
def trimmedPath (u : Url) : List Char := dropEnd '/' u.path

/-- Whether two URLs lead to the same place: scheme, host, port, and path but for slashes at the
end. -/
def sameOrigin (a b : Url) : Bool :=
  a.scheme = b.scheme && a.hostText? = b.hostText? && a.effectivePort? = b.effectivePort? &&
    trimmedPath a = trimmedPath b

def beforeSuffix? (suffix s : List Char) : Option (List Char) :=
  if suffix.isSuffixOf s then some (s.take (s.length - suffix.length)) else none

/-- What the first label of a host names when it ends in `-service`. -/
def hostLabel? (u : Url) : Option (List Char) :=
  (pieces '.' (u.hostText?.getD [])).head?.bind (beforeSuffix? "-service".toList)

/-- Whether a label names a service: it is the name, or goes on after the name with a hyphen. -/
def labelNames (label service : List Char) : Bool :=
  label = service || (service ++ ['-']).isPrefixOf label

def serviceOf? (r : Registry) (target : Url) : Option String :=
  ((r.entries.find? fun e => e.base.any fun base => sameOrigin base target).or
    (r.entries.find? fun e => (hostLabel? target).any fun l => labelNames l e.service.toList)).map
      (·.service)

/-- The name for targets that belong to no service. -/
def unknownService : String := "unknown"

def serviceName (r : Registry) (target : Url) : String := (r.serviceOf? target).getD unknownService

def get? (r : Registry) (service : String) : Option Breaker :=
  r.breakers.find? fun b => b.service = service

/-- The breaker that guards a target, if one does. -/
def resolve (r : Registry) (target : Url) : Option Breaker := r.get? (r.serviceName target)

/-- The name under which calls to a target are known. -/
def protectionName (r : Registry) (target : Url) : String :=
  (r.resolve target).elim unknownService (·.service)

/-- The registry with another breaker in the place of the one of the same service. -/
def replace (r : Registry) (b : Breaker) : Registry :=
  { r with breakers := r.breakers.map fun c => if c.service = b.service then b else c }

/-- An operation on the breaker of one service. Nothing happens when there is no such service. -/
def update (r : Registry) (service : String) (operation : Breaker → Breaker × List Event) :
    Registry × List Event :=
  match r.get? service with
  | some b =>
    let (b, events) := operation b
    (r.replace b, events)
  | none => (r, [])

def tryAcquire (r : Registry) (service : String) (now : Moment) :
    Option Bool × Registry × List Event :=
  match r.get? service with
  | some b =>
    let (granted, b, events) := b.tryAcquire now
    (some granted, r.replace b, events)
  | none => (none, r, [])

/-- Closes the circuit of a service by hand. Says whether there is such a service. -/
def reset (r : Registry) (service : String) (now : Moment) : Bool × Registry × List Event :=
  match r.get? service with
  | some b =>
    let (b, events) := b.reset now
    (true, r.replace b, events)
  | none => (false, r, [])

/-- All breakers as they are shown at `now`, by name. -/
def snapshots (r : Registry) (now : Moment) : List Breaker.Snapshot :=
  (r.breakers.map (·.snapshot now)).mergeSort fun a b => a.service ≤ b.service

/-- A service is added: a breaker if its name is new, and an entry. -/
def add [Idna] (settings : Breaker.Settings) (now : Moment) (service base : String) (r : Registry) :
    Registry × List Event :=
  let b := Breaker.new service settings now
  let isNew := (r.get? service).isNone
  let url := (Url.parse base.toList).toOption
  (⟨if isNew then r.breakers ++ [b] else r.breakers, r.entries ++ [⟨service, url⟩]⟩,
    (if isNew then [b.gauge] else []) ++ (if url.isNone then [.notice .unusableBaseUrl] else []))

/-- The registry of some services, each given by its name and its base URL. -/
def ofServices [Idna] (services : List (String × String)) (settings : Breaker.Settings)
    (now : Moment) : Registry × List Event :=
  let (r, events) := services.foldl
    (fun (r, events) (service, base) =>
      let (r, new) := r.add settings now service base
      (r, events ++ new))
    (⟨[], []⟩, [])
  (r, events ++ [.notice .circuitsReady])

end Registry

end Gatehouse
