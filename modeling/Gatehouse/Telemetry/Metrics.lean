import Gatehouse.Telemetry.Event

/-!
# Metrics

Measurements add up to series: a name, labels, and a counter, a gauge or the spans that were
measured. Series stand in the order of their names and labels.

* `Metrics.record` : one more measurement;
* `Metrics.ofEvents` : the series of all measurements among some events.
-/

namespace Gatehouse

inductive Series.Value where
  | counter (count : Nat)
  | gauge (value : Nat)
  | spans (spans : List Span)
  deriving DecidableEq, Repr

/-- A series: its name, its labels, and what it holds. -/
structure Series where
  name : String
  labels : List (String × String)
  value : Series.Value
  deriving DecidableEq, Repr

abbrev Metrics := List Series

namespace Metrics

def labelsBefore : (a b : List (String × String)) → Bool
  | [], [] => false
  | [], _ :: _ => true
  | _ :: _, [] => false
  | (k, v) :: a, (l, w) :: b =>
    k < l || (k = l && (v < w || (v = w && labelsBefore a b)))

/-- A series is changed, or comes in where it belongs. -/
def change (name : String) (labels : List (String × String))
    (f : Option Series.Value → Series.Value) : Metrics → Metrics
  | [] => [⟨name, labels, f none⟩]
  | s :: rest =>
    if s.name = name ∧ s.labels = labels then { s with value := f (some s.value) } :: rest
    else if name < s.name ∨ (name = s.name ∧ labelsBefore labels s.labels) then
      ⟨name, labels, f none⟩ :: s :: rest
    else s :: change name labels f rest

def increment (name : String) (labels : List (String × String)) : Metrics → Metrics :=
  change name labels fun
    | some (.counter n) => .counter (n + 1)
    | _ => .counter 1

def setGauge (name : String) (labels : List (String × String)) (value : Nat) : Metrics → Metrics :=
  change name labels fun _ => .gauge value

def observe (name : String) (labels : List (String × String)) (span : Span) : Metrics → Metrics :=
  change name labels fun
    | some (.spans ss) => .spans (ss ++ [span])
    | _ => .spans [span]

def requestsTotal : String := "gateway_requests_total"

def requestDuration : String := "gateway_request_duration_seconds"

def rateLimitedTotal : String := "gateway_rate_limited_total"

def limiterClients : String := "gateway_rate_limiter_clients"

def circuitState : String := "gateway_circuit_breaker_state"

def circuitRefusals : String := "gateway_circuit_breaker_rejections_total"

def record (m : Metrics) : Measurement → Metrics
  | .request method status service outcome duration =>
    let method := String.ofList method
    let code := String.ofList (Text.decimal status.code)
    observe requestDuration [("method", method), ("service", service)] duration
      (increment requestsTotal
        [("method", method), ("status", code), ("service", service), ("outcome", outcome)] m)
  | .rateLimited => increment rateLimitedTotal [] m
  | .clients count => setGauge limiterClients [] count m
  | .circuit service state => setGauge circuitState [("service", service)] state.gauge m
  | .circuitRefusal service => increment circuitRefusals [("service", service)] m

def ofEvents (events : List Event) : Metrics := (Event.measurements events).foldl record []

end Metrics

end Gatehouse
