import Gatehouse.Gateway.Inbound
import Gatehouse.Gateway.Run

/-!
# A gateway that runs

A running gateway has a sweeper when its limiter is on. Told to stop, it lets the calls under way
come to their end; the sweeper stops at once.

* `Server.start` : a gateway begins to run;
* `Server.wake` : the clock has moved;
* `Server.stop`, `Server.rest` : it is told to stop, and stops when nothing is under way.
-/

namespace Gatehouse

/-- A gateway that runs, its sweeper, and how far the run has come. -/
structure Server (α : Type) where
  gateway : Gateway α
  sweeper : Option Sweeper
  runner : Runner
  deriving Inhabited

namespace Server

variable {α : Type}

def start (g : Gateway α) (now : Moment) : Server α × List Event :=
  let runner := ((Runner.subscribed 0).step .start).step .serve
  if g.config.rateLimit.enabled then
    let sweeper := Sweeper.start? g.limiter.sweepInterval now
    (⟨g, sweeper, { runner with sweeping := sweeper.isSome }⟩,
      .notice .serverStarting :: if sweeper.isSome then [.notice .sweeperStarted] else [])
  else (⟨g, none, { runner with sweeping := false }⟩, [.notice .serverStarting])

def sweep (s : Server α) (now : Moment) : Server α × List Event :=
  match s.sweeper with
  | some sweeper =>
    let (sweeper, limiter, events) := sweeper.wake s.gateway.limiter now
    ({ s with gateway := { s.gateway with limiter := limiter }, sweeper := some sweeper }, events)
  | none => (s, [])

/-- The run ends when it is told to stop and nothing is under way. -/
def rest (s : Server α) : Server α × List Event :=
  if s.gateway.calls.isEmpty ∧ s.runner.phase ≠ .stopped then
    let runner := (s.runner.step .look).step .join
    ({ s with runner := runner }, if runner.phase = .stopped then [.notice .serverStopped] else [])
  else (s, [])

def wake (s : Server α) (now : Moment) : List (String × Answer) × Server α × List Event :=
  let (answers, g, events) := s.gateway.wake now
  let (s, swept) := { s with gateway := g }.sweep now
  let (s, rested) := s.rest
  (answers, s, events ++ swept ++ rested)

def stop (s : Server α) : Server α × List Event :=
  let runner := (s.runner.step .trigger).step .sweeperLook
  let stopping := s.runner.sweeping && !runner.sweeping
  let (s, rested) :=
    { s with runner := runner, sweeper := if stopping then none else s.sweeper }.rest
  (s, (if stopping then [.notice .sweeperStopping] else []) ++ rested)

/-- How many subscriptions are still held. -/
def receivers (s : Server α) : Nat :=
  (if s.runner.phase = .serving then 1 else 0) + (if s.runner.sweeping then 1 else 0)

end Server

end Gatehouse
