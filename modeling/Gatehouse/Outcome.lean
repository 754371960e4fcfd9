import Gatehouse.Http.Status

/-!
# Outcomes

What became of a request: turned away at the gate, turned away by a circuit, or answered by a
backend, well or badly.
-/

namespace Gatehouse

open Gatehouse.Http

inductive Outcome where
  /-- The limiter let it pass. -/
  | admitted
  /-- The limiter refused it. -/
  | rateLimited
  /-- No route leads where it asked to go. -/
  | routeNotFound
  /-- The circuit of the service is open. -/
  | breakerOpen (service : String)
  /-- The call could not be made, or went without an answer. -/
  | transportFailure (service : String)
  /-- The backend answered that it failed. -/
  | backendError (status : Status)
  /-- The backend gave any other answer. -/
  | backendSuccess (status : Status)
  deriving DecidableEq, Repr

namespace Outcome

/-- The outcome of an answer with the given status. -/
def ofStatus (status : Status) : Outcome :=
  if status.isServerError then .backendError status else .backendSuccess status

def label : Outcome → String
  | admitted => "admitted"
  | rateLimited => "rate_limited"
  | routeNotFound => "route_not_found"
  | breakerOpen _ => "breaker_open"
  | transportFailure _ => "transport_failure"
  | backendError _ => "backend_error"
  | backendSuccess _ => "backend_success"

end Outcome

end Gatehouse
