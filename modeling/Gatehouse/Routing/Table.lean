import Gatehouse.Config.Validity
import Gatehouse.Http.Message
import Gatehouse.Routing.Condition
import Gatehouse.Telemetry.Event

/-!
# The route table

The table holds the configured routes whose services have a usable address, the more important ones
first: higher priority before lower, and of the same priority longer prefixes before shorter ones.
The first route whose condition holds takes a request.

* `Route.compile?` : a route of the configuration with its target;
* `Table.ofConfig` : the table of a configuration;
* `Table.find?` : the route that takes a request.
-/

namespace Gatehouse.Routing

open Gatehouse.Http Gatehouse.Text

/-- A route that requests can take. `path` is its prefix without slashes at the end. -/
structure Route where
  name : String
  service : String
  target : Url
  priority : Nat
  path : List Char
  methods : List Method
  deriving DecidableEq, Repr, Inhabited

namespace Route

def condition (r : Route) : Condition := .all [.under r.path, .oneOf r.methods]

def takes (r : Route) (method : Method) (path : List Char) : Bool := r.condition.holds method path

/-- The length of the prefix, in bytes. -/
def pathSize (r : Route) : Nat := byteLength r.path

/-- Whether `a` may stand before `b` in the table. -/
def mayPrecede (a b : Route) : Bool :=
  b.priority < a.priority || (a.priority = b.priority && b.pathSize ≤ a.pathSize)

/-- The base URL of a service; of several services of one name the last counts. -/
def baseUrl? (services : List Config.Service) (name : String) : Option String :=
  (services.reverse.find? fun s => s.name = name).map (·.baseUrl)

/-- A route of the configuration with its target, or why it is left out. Entries that are no methods
are dropped. -/
def compile [Idna] (services : List Config.Service) (r : Config.Route) : Except Notice Route :=
  match baseUrl? services r.service with
  | none => .error .unknownServiceOfRoute
  | some base =>
    match Url.parse base.toList with
    | .error _ => .error .unusableTargetOfRoute
    | .ok target =>
      .ok ⟨r.name, r.service, target, r.priority.toNat, trimPrefix r.pathPrefix.toList,
        r.methods.filterMap Config.method?⟩

end Route

/-- The routes in the order in which they are tried. -/
structure Table where
  routes : List Route
  deriving DecidableEq, Repr, Inhabited

namespace Table

def ofConfig [Idna] (routes : List Config.Route) (services : List Config.Service) :
    Table × List Event :=
  let compiled := routes.map (Route.compile services)
  let skipped := compiled.filterMap fun
    | .error n => some (Event.notice n)
    | .ok _ => none
  let kept := compiled.filterMap Except.toOption
  (⟨kept.mergeSort Route.mayPrecede⟩, skipped ++ [.notice .routesReady])

def find? (t : Table) (method : Method) (path : List Char) : Option Route :=
  t.routes.find? fun r => r.takes method path

end Table

end Gatehouse.Routing
