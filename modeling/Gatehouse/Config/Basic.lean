import Gatehouse.Breaker.Basic
import Gatehouse.Number.Binary64

/-!
# Configuration

What an operator says about a gateway, section by section. Every section has defaults; only the name
and address of a service and the name, path and service of a route have to be given. Times are whole
seconds.
-/

namespace Gatehouse

open Gatehouse.Number

namespace Config

structure Listener where
  bindAddress : String
  deriving DecidableEq, Repr

structure Service where
  name : String
  baseUrl : String
  deriving DecidableEq, Repr

/-- A route from the requests under a path to a service. No methods stand for any method; routes of
higher priority are looked at first. -/
structure Route where
  name : String
  pathPrefix : String
  service : String
  methods : List String
  priority : UInt32
  deriving DecidableEq, Repr

structure CircuitBreaker where
  maxFailures : UInt32
  openTimeoutSecs : UInt64
  halfOpenTimeoutSecs : UInt64
  deriving DecidableEq, Repr

structure RateLimit where
  enabled : Bool
  capacity : UInt32
  refillPerSecond : Binary64
  idleTimeoutSecs : UInt64
  sweepIntervalSecs : UInt64
  deriving DecidableEq, Repr

/-- How long a connection, an answer of a backend and a whole request may take. -/
structure Timeouts where
  connectSecs : UInt64
  backendSecs : UInt64
  requestSecs : UInt64
  deriving DecidableEq, Repr

structure Proxy where
  stripPrefix : String
  stripClientIdentity : Bool
  deriving DecidableEq, Repr

structure Observability where
  logLevel : String
  metricsEnabled : Bool
  metricsAddress : String
  deriving DecidableEq, Repr

structure Admin where
  enabled : Bool
  apiKey : String
  deriving DecidableEq, Repr

/-! ## Defaults -/

/-- All interfaces, port 8080. -/
instance : Inhabited Listener := ⟨⟨"0.0.0.0:8080"⟩⟩

instance : Inhabited CircuitBreaker := ⟨⟨5, 30, 10⟩⟩

/-- A hundred requests a minute. -/
instance : Inhabited RateLimit := ⟨⟨true, 100, .ofRatio false 100 60, 600, 300⟩⟩

instance : Inhabited Timeouts := ⟨⟨5, 30, 60⟩⟩

instance : Inhabited Proxy := ⟨⟨"/api", true⟩⟩

instance : Inhabited Observability := ⟨⟨"info", false, "0.0.0.0:9090"⟩⟩

instance : Inhabited Admin := ⟨⟨false, ""⟩⟩

def CircuitBreaker.settings (c : CircuitBreaker) : Breaker.Settings :=
  ⟨c.maxFailures.toNat, Span.seconds c.openTimeoutSecs.toNat,
    Span.seconds c.halfOpenTimeoutSecs.toNat⟩

end Config

structure Config where
  listener : Config.Listener
  services : List Config.Service
  routes : List Config.Route
  circuitBreaker : Config.CircuitBreaker
  rateLimit : Config.RateLimit
  timeouts : Config.Timeouts
  proxy : Config.Proxy
  observability : Config.Observability
  admin : Config.Admin
  deriving DecidableEq, Repr

/-- No services, no routes, and every section as it is by default. -/
instance : Inhabited Config :=
  ⟨⟨default, [], [], default, default, default, default, default, default⟩⟩

end Gatehouse
