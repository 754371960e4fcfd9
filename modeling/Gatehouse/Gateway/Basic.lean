import Gatehouse.Gateway.Admin
import Gatehouse.Gateway.Dispatch
import Gatehouse.RateLimit.Limiter
import Gatehouse.Routing.Table

/-!
# The gateway

Everything that the gateway knows at a moment: its configuration, the route table, the breakers, the
limiter, and the calls that are under way. The clock, the callers and the backends are outside; what
they do comes in as arguments.

* `Gateway.ofConfig` : the gateway of a configuration;
* `Call` : a call under way;
* `Inbound` : what is kept of the request behind it.
-/

namespace Gatehouse

open Gatehouse.Http Gatehouse.Routing Gatehouse.Text

/-- What is kept of a request while its call is under way. -/
structure Inbound where
  method : Method
  requestId : Bytes
  /-- The service of the route that the request took. -/
  service : String
  started : Moment
  /-- When the whole request has taken too long. -/
  deadline : Moment
  deriving DecidableEq, Repr, Inhabited

/-- A call under way. `inbound` is missing when it was made without a request from outside. -/
structure Call where
  id : String
  forward : Forward
  inbound : Option Inbound
  deriving DecidableEq, Repr, Inhabited

/-- The gateway at a moment. -/
structure Gateway (α : Type) where
  config : Config
  table : Table
  dispatcher : Dispatcher
  limiter : Limiter α
  calls : List Call
  deriving Inhabited

namespace Gateway

variable {α : Type}

def serviceAddresses (c : Config) : List (String × String) :=
  c.services.map fun s => (s.name, s.baseUrl)

def ofConfig [Idna] [TokenArithmetic α] (c : Config) (now : Moment) : Gateway α × List Event :=
  let (table, routed) := Table.ofConfig c.routes c.services
  let (registry, guarded) :=
    Registry.ofServices (serviceAddresses c) c.circuitBreaker.settings now
  let rules : ForwardingRules := ⟨c.proxy.stripPrefix.toList, c.proxy.stripClientIdentity⟩
  (⟨c, table, ⟨registry, rules, Span.seconds c.timeouts.backendSecs.toNat⟩,
      Limiter.ofConfig c.rateLimit, []⟩,
    routed ++ guarded)

def registry (g : Gateway α) : Registry := g.dispatcher.registry

def withRegistry (g : Gateway α) (r : Registry) : Gateway α :=
  { g with dispatcher := { g.dispatcher with registry := r } }

def call? (g : Gateway α) (id : String) : Option Call := g.calls.find? fun c => c.id = id

def removeCall (g : Gateway α) (id : String) : Gateway α :=
  { g with calls := g.calls.filter fun c => c.id ≠ id }

end Gateway

end Gatehouse
