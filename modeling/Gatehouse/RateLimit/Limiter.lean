import Gatehouse.Config.Basic
import Gatehouse.RateLimit.Bucket
import Gatehouse.Telemetry.Event

/-!
# The rate limiter

Every client has a bucket of its own, created full when the client is first seen. A sweep forgets
the clients that have not been seen for longer than the idle timeout; a client that keeps trying is
never forgotten, whether it is admitted or not.

* `Limiter.attempt` : one attempt of a client;
* `Limiter.sweep` : idle clients are forgotten;
* `Limiter.Action`, `Limiter.step` : a run of attempts and sweeps.
-/

namespace Gatehouse

/-- A limiter: its settings and the buckets of the clients it keeps. -/
structure Limiter (α : Type) where
  capacity : α
  rate : α
  idleTimeout : Span
  sweepInterval : Span
  buckets : List (String × Bucket α)
  deriving Repr, Inhabited

namespace Limiter

variable {α : Type}

def new [TokenArithmetic α] (capacity : Nat) (rate : α) (idleTimeout sweepInterval : Span) :
    Limiter α :=
  ⟨TokenArithmetic.ofNat capacity, rate, idleTimeout, sweepInterval, []⟩

def ofConfig [TokenArithmetic α] (c : Config.RateLimit) : Limiter α :=
  .new c.capacity.toNat (TokenArithmetic.ofRate c.refillPerSecond)
    (Span.seconds c.idleTimeoutSecs.toNat) (Span.seconds c.sweepIntervalSecs.toNat)

def bucket? (l : Limiter α) (client : String) : Option (Bucket α) := l.buckets.lookup client

def put (client : String) (b : Bucket α) : List (String × Bucket α) → List (String × Bucket α)
  | [] => [(client, b)]
  | (c, old) :: rest => if c = client then (c, b) :: rest else (c, old) :: put client b rest

def attempt [TokenArithmetic α] (l : Limiter α) (client : String) (now : Moment) :
    Bool × Limiter α :=
  let b := (l.bucket? client).getD (.full l.capacity now)
  let (admitted, b) := b.tryAcquire l.capacity l.rate now
  (admitted, { l with buckets := put client b l.buckets })

/-- One attempt of a client, as an outcome. -/
def admission [TokenArithmetic α] (l : Limiter α) (client : String) (now : Moment) :
    Outcome × Limiter α :=
  let (admitted, l) := l.attempt client now
  (if admitted then .admitted else .rateLimited, l)

def isFresh (l : Limiter α) (now : Moment) (b : Bucket α) : Bool :=
  elapsed now b.lastSeen ≤ l.idleTimeout

def size (l : Limiter α) : Nat := l.buckets.length

/-- Idle clients are forgotten. Says how many. -/
def sweep (l : Limiter α) (now : Moment) : Nat × Limiter α × List Event :=
  let kept := { l with buckets := l.buckets.filter fun e => l.isFresh now e.2 }
  (l.size - kept.size, kept, [.measurement (.clients kept.size)])

/-! ## Runs -/

inductive Action where
  | attempt (client : String)
  | sweep
  deriving DecidableEq, Repr

def step [TokenArithmetic α] (l : Limiter α) (now : Moment) : Action → Limiter α
  | .attempt client => (l.attempt client now).2
  | .sweep => (l.sweep now).2.1

end Limiter

end Gatehouse
