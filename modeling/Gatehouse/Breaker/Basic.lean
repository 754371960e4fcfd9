import Gatehouse.Telemetry.Event

/-!
# Circuit breakers

A breaker guards the calls to one service. It counts failures while its circuit is closed and opens
the circuit when there are too many; once the open timeout has passed, the next call that asks is
let through and half-opens it; the first result in that state closes it or opens it again.

* `Breaker.tryAcquire` : whether a call may be made;
* `Breaker.recordSuccess`, `Breaker.recordFailure` : the result of a call;
* `Breaker.reset` : back to a closed circuit without failures.

A success while closed halves the count, so that single failures are forgotten. Results that come in
while the circuit is open change neither its state nor its timeout.
-/

namespace Gatehouse

namespace Breaker

/-- How a breaker behaves. The half-open timeout is only shown; nothing depends on it. -/
structure Settings where
  maxFailures : Nat
  openTimeout : Span
  halfOpenTimeout : Span
  deriving DecidableEq, Repr, Inhabited

end Breaker

/-- A breaker. `lastChange` is the moment of the last transition or reset. -/
structure Breaker where
  service : String
  settings : Breaker.Settings
  circuit : Circuit
  failures : Nat
  lastFailure : Option Moment
  lastChange : Moment
  deriving DecidableEq, Repr, Inhabited

namespace Breaker

/-- The count of failures stays here once it has come so far. -/
def maxCount : Nat := UInt32.size - 1

def gauge (b : Breaker) : Event := .measurement (.circuit b.service b.circuit)

def enter (b : Breaker) (circuit : Circuit) (now : Moment) : Breaker :=
  { b with circuit := circuit, lastChange := now }

def new (service : String) (settings : Settings) (now : Moment) : Breaker :=
  ⟨service, settings, .closed, 0, none, now⟩

def isDue (b : Breaker) (now : Moment) : Bool := b.settings.openTimeout ≤ elapsed now b.lastChange

/-- Whether a call may be made. The first to ask after the open timeout half-opens the circuit. -/
def tryAcquire (b : Breaker) (now : Moment) : Bool × Breaker × List Event :=
  match b.circuit with
  | .opened =>
    if b.isDue now then
      let b := b.enter .halfOpen now
      (true, b, [.notice .circuitHalfOpened, b.gauge])
    else (false, b, [])
  | _ => (true, b, [])

def recordSuccess (b : Breaker) (now : Moment) : Breaker × List Event :=
  match b.circuit with
  | .closed => ({ b with failures := b.failures / 2 }, [])
  | .halfOpen =>
    let b := { b with failures := 0 }.enter .closed now
    (b, [.notice .circuitClosed, b.gauge])
  | .opened => (b, [])

/-- Whether one more failure opens the circuit, `failures` being the count that includes it. -/
def opens (b : Breaker) (failures : Nat) : Bool :=
  match b.circuit with
  | .closed => b.settings.maxFailures ≤ failures
  | .halfOpen => true
  | .opened => false

def recordFailure (b : Breaker) (now : Moment) : Breaker × List Event :=
  let failures := min (b.failures + 1) maxCount
  let failed := { b with failures := failures, lastFailure := some now }
  if b.opens failures then
    let b := failed.enter .opened now
    (b, [.notice .circuitOpened, b.gauge])
  else (failed, [])

/-- The circuit is closed by hand and the failures are forgotten. -/
def reset (b : Breaker) (now : Moment) : Breaker × List Event :=
  let b := { b with failures := 0 }.enter .closed now
  (b, [.notice .circuitReset, b.gauge])

def record (b : Breaker) (succeeded : Bool) (now : Moment) : Breaker × List Event :=
  if succeeded then b.recordSuccess now else b.recordFailure now

/-! ## View -/

/-- A breaker as it is shown, with ages in place of moments. -/
structure Snapshot where
  service : String
  circuit : Circuit
  failures : Nat
  maxFailures : Nat
  openTimeoutMs : Nat
  halfOpenTimeoutMs : Nat
  lastFailureMsAgo : Option Nat
  ageMs : Nat
  deriving DecidableEq, Repr

def snapshot (b : Breaker) (now : Moment) : Snapshot where
  service := b.service
  circuit := b.circuit
  failures := b.failures
  maxFailures := b.settings.maxFailures
  openTimeoutMs := Span.wholeMillis b.settings.openTimeout
  halfOpenTimeoutMs := Span.wholeMillis b.settings.halfOpenTimeout
  lastFailureMsAgo := b.lastFailure.map fun t => Span.wholeMillis (elapsed now t)
  ageMs := Span.wholeMillis (elapsed now b.lastChange)

end Breaker

end Gatehouse
