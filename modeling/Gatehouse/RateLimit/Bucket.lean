import Gatehouse.Clock
import Gatehouse.Number.Binary64

/-!
# Token buckets

A bucket holds tokens up to its capacity. An attempt first adds what has come in since the last
attempt and then takes one token if a whole one is there.

* `TokenArithmetic` : what tokens are counted in: machine numbers, or exact fractions;
* `Bucket.tryAcquire` : one attempt.

The laws of a bucket are stated for exact fractions, the gateway counts in machine numbers; the
transitions are the same definition.
-/

namespace Gatehouse

/-- What tokens are counted in. -/
class TokenArithmetic (α : Type) where
  /-- A whole number of tokens. -/
  ofNat : Nat → α
  /-- A rate of tokens per second. -/
  ofRate : Number.Binary64 → α
  /-- The tokens after a span at a rate per second, but no more than the capacity. -/
  refill : (tokens rate : α) → Span → (capacity : α) → α
  /-- The tokens after one is taken, if a whole one is there. -/
  take? : α → Option α

/-- Machine numbers. A sum that is not a number counts as a full bucket. -/
instance : TokenArithmetic Float where
  ofNat n := n.toUInt64.toFloat
  ofRate x := x.toFloat
  refill tokens rate span capacity :=
    let sum := tokens + span.toFloat * rate
    if sum < capacity then sum else capacity
  take? tokens := if 1 ≤ tokens then some (tokens - 1) else none

/-- Exact fractions. A rate that is not finite counts as none. -/
instance : TokenArithmetic Rat where
  ofNat n := n
  ofRate x := x.toRat
  refill tokens rate span capacity :=
    let sum := tokens + span / nanosPerSecond * rate
    if sum < capacity then sum else capacity
  take? tokens := if 1 ≤ tokens then some (tokens - 1) else none

/-- A bucket: its tokens, and the moments of the last refill and of the last attempt. -/
structure Bucket (α : Type) where
  tokens : α
  lastRefill : Moment
  lastSeen : Moment
  deriving DecidableEq, Repr, Inhabited

namespace Bucket

variable {α : Type}

/-- A bucket that has never been used. -/
def full (capacity : α) (now : Moment) : Bucket α := ⟨capacity, now, now⟩

/-- One attempt at the moment `now`. Whether it succeeds or not, the bucket counts as seen. -/
def tryAcquire [TokenArithmetic α] (capacity rate : α) (now : Moment) (b : Bucket α) :
    Bool × Bucket α :=
  let tokens := TokenArithmetic.refill b.tokens rate (elapsed now b.lastRefill) capacity
  match TokenArithmetic.take? tokens with
  | some rest => (true, ⟨rest, now, now⟩)
  | none => (false, ⟨tokens, now, now⟩)

end Bucket

end Gatehouse
