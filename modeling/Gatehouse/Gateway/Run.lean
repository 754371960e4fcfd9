import Gatehouse.RateLimit.Sweeper
import Gatehouse.Shutdown

/-!
# Running and stopping

A gateway that runs has subscribed to a coordinator before it starts. When it starts, it gives its
sweeper a subscription of its own, then serves until it is told to stop, and then waits for the
sweeper to stop as well. A subscription only sees the signals that come after it.

* `Runner` : a running gateway, as far as stopping is concerned;
* `Runner.step` : what the coordinator, the gateway and the sweeper may do.
-/

namespace Gatehouse

/-- How far a run has come. -/
inductive RunPhase where
  /-- The gateway has its subscription but has not started. -/
  | waiting
  /-- The sweeper has its subscription; nothing is served yet. -/
  | starting
  | serving
  /-- Nothing is served any more; the sweeper has not stopped yet. -/
  | joining
  | stopped
  deriving DecidableEq, Repr, Inhabited

/-- A running gateway: the signals given so far, whether the coordinator is there, how many signals
there had been when the gateway and its sweeper subscribed, and whether the sweeper still runs. -/
structure Runner where
  signals : Nat
  live : Bool
  phase : RunPhase
  since : Nat
  sweeperSince : Option Nat
  sweeping : Bool
  deriving DecidableEq, Repr, Inhabited

namespace Runner

def subscribed (signals : Nat) : Runner := ⟨signals, true, .waiting, signals, none, false⟩

/-- Whether a subscription is released: there was a signal after it, or the coordinator is gone. -/
def released (r : Runner) (since : Nat) : Bool := since < r.signals || !r.live

inductive Action where
  /-- The coordinator gives the signal. -/
  | trigger
  /-- The coordinator goes away. -/
  | close
  /-- The gateway starts and gives its sweeper a subscription. -/
  | start
  /-- The gateway begins to serve. -/
  | serve
  /-- The gateway looks whether it is told to stop. -/
  | look
  /-- The sweeper looks whether it is told to stop. -/
  | sweeperLook
  /-- The gateway looks whether its sweeper has stopped. -/
  | join
  deriving DecidableEq, Repr

/-- One thing happens. What cannot happen in a phase changes nothing. -/
def step (r : Runner) : Action → Runner
  | .trigger => if r.live then { r with signals := r.signals + 1 } else r
  | .close => { r with live := false }
  | .start =>
    if r.phase = .waiting then
      { r with phase := .starting, sweeperSince := some r.signals, sweeping := true }
    else r
  | .serve => if r.phase = .starting then { r with phase := .serving } else r
  | .look =>
    if r.phase = .serving ∧ r.released r.since then { r with phase := .joining } else r
  | .sweeperLook =>
    if r.sweeping ∧ r.sweeperSince.any r.released then { r with sweeping := false } else r
  | .join => if r.phase = .joining ∧ !r.sweeping then { r with phase := .stopped } else r

def run (r : Runner) (actions : List Action) : Runner := actions.foldl step r

end Runner

end Gatehouse
