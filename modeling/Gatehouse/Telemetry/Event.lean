import Gatehouse.Breaker.Circuit
import Gatehouse.Clock
import Gatehouse.Outcome

/-!
# Events

Every operation says what it did, as a list of events: notices for the log and measurements for the
metrics.
-/

namespace Gatehouse

inductive Level where
  | error
  | warn
  | info
  | debug
  deriving DecidableEq, Repr

def Level.name : Level → String
  | error => "ERROR"
  | warn => "WARN"
  | info => "INFO"
  | debug => "DEBUG"

inductive Notice where
  | circuitOpened
  | circuitHalfOpened
  | circuitClosed
  | circuitReset
  | circuitRefused
  | circuitsReady
  | unusableBaseUrl
  | unknownServiceOfRoute
  | unusableTargetOfRoute
  | routesReady
  | identityDropped
  | limitExceeded
  | sweeperStarted
  | bucketsEvicted
  | sweeperStopping
  | requestReceived
  | requestUnrouted
  | requestCompleted
  | backendFailed
  | forwardingFailed
  | adminRefused
  | adminReset
  | serverStarting
  | serverStopped
  deriving DecidableEq, Repr

namespace Notice

def line : Notice → Level × String
  | circuitOpened => (.warn, "Circuit opened")
  | circuitHalfOpened => (.info, "Circuit half-open, allowing trial calls")
  | circuitClosed => (.info, "Circuit closed, backend recovered")
  | circuitReset => (.info, "Circuit manually reset")
  | circuitRefused => (.warn, "Circuit open, refusing request")
  | circuitsReady => (.info, "Circuit breakers initialized")
  | unusableBaseUrl => (.warn, "Invalid service base URL")
  | unknownServiceOfRoute => (.warn, "Route references unknown service, skipping")
  | unusableTargetOfRoute => (.warn, "Invalid service base URL, skipping route")
  | routesReady => (.info, "Route table compiled")
  | identityDropped => (.warn, "Dropping identity header with invalid value")
  | limitExceeded => (.warn, "Rate limit exceeded")
  | sweeperStarted => (.debug, "Rate limiter sweeper started")
  | bucketsEvicted => (.debug, "Evicted idle rate limit buckets")
  | sweeperStopping => (.debug, "Rate limiter sweeper stopping")
  | requestReceived => (.debug, "Proxying request")
  | requestUnrouted => (.warn, "No route matched")
  | requestCompleted => (.debug, "Request completed")
  | backendFailed => (.warn, "Backend returned server error")
  | forwardingFailed => (.error, "Upstream error")
  | adminRefused => (.warn, "Rejected admin request")
  | adminReset => (.info, "Circuit breaker reset via admin API")
  | serverStarting => (.info, "HTTP server starting")
  | serverStopped => (.info, "HTTP server stopped")

def level (n : Notice) : Level := n.line.1

def message (n : Notice) : String := n.line.2

end Notice

inductive Measurement where
  /-- A request was answered. -/
  | request (method : List Char) (status : Http.Status) (service outcome : String) (duration : Span)
  /-- The limiter refused a request. -/
  | rateLimited
  /-- The number of clients that the limiter keeps. -/
  | clients (count : Nat)
  /-- The state of a circuit. -/
  | circuit (service : String) (state : Circuit)
  /-- An open circuit refused a call. -/
  | circuitRefusal (service : String)
  deriving DecidableEq, Repr

inductive Event where
  | notice (notice : Notice)
  | measurement (measurement : Measurement)
  deriving DecidableEq, Repr

namespace Event

def notices (events : List Event) : List Notice :=
  events.filterMap fun
    | notice n => some n
    | measurement _ => none

def measurements (events : List Event) : List Measurement :=
  events.filterMap fun
    | notice _ => none
    | measurement m => some m

end Event

end Gatehouse
