import Gatehouse.Breaker.Basic

/-!
# Calls through a breaker

A call asks its breaker, runs if it may, and reports its result when it finishes. Many calls may be
under way at once.

* `Breaker.begin` : a call asks, and is refused or runs;
* `Breaker.execute` : a call that does not wait;
* `Calls` : a breaker with the calls that are under way through it;
* `Calls.step` : one thing that happens to them;
* `Calls.use` : the same, with the results of the calls and what their callers get.
-/

namespace Gatehouse

namespace Breaker

/-- A call asks whether it may run. A refusal is counted. -/
def begin (b : Breaker) (now : Moment) : Bool × Breaker × List Event :=
  match b.tryAcquire now with
  | (true, b, events) => (true, b, events)
  | (false, b, events) => (false, b, events ++ [.measurement (.circuitRefusal b.service)])

inductive CallError (ε : Type) where
  /-- The circuit is open. -/
  | opened
  /-- The action of the call has failed. -/
  | inner (error : ε)
  deriving DecidableEq, Repr

/-- What the caller gets when the action of its call ends with `result`. -/
def handBack {ε ρ : Type} (result : Except ε ρ) : Except (CallError ε) ρ := result.mapError .inner

/-- A call whose action ends at once with `result`, if it runs at all. -/
def execute {ε ρ : Type} (b : Breaker) (now : Moment) (result : Except ε ρ) :
    Except (CallError ε) ρ × Breaker × List Event :=
  match b.begin now with
  | (true, b, events) =>
    let (b, more) := b.record result.isOk now
    (handBack result, b, events ++ more)
  | (false, b, events) => (.error .opened, b, events)

end Breaker

/-- A breaker and the calls that are under way through it, by their names. -/
structure Calls where
  breaker : Breaker
  waiting : List String
  deriving DecidableEq, Repr

namespace Calls

/-- What may happen to a breaker and its calls. A call that starts under the name of another takes
its place, and the other is abandoned. -/
inductive Action where
  | start (name : String)
  | finish (name : String) (succeeded : Bool)
  | abandon (name : String)
  | tryAcquire
  | succeed
  | fail
  | reset
  deriving DecidableEq, Repr

inductive Answer where
  /-- The call runs, or a call may be made. -/
  | granted
  /-- The circuit is open; the call does not run. -/
  | refused
  /-- It is done. -/
  | done
  /-- There is no call of that name. -/
  | unknownCall
  deriving DecidableEq, Repr

/-- The calls with one of them gone. -/
def leave (cs : Calls) (name : String) : Calls :=
  { cs with waiting := cs.waiting.filter (· ≠ name) }

def step (now : Moment) (cs : Calls) : Action → Answer × Calls × List Event
  | .start name =>
    let cs := cs.leave name
    match cs.breaker.begin now with
    | (true, b, events) => (.granted, ⟨b, name :: cs.waiting⟩, events)
    | (false, b, events) => (.refused, ⟨b, cs.waiting⟩, events)
  | .finish name succeeded =>
    if name ∈ cs.waiting then
      let (b, events) := cs.breaker.record succeeded now
      (.done, { cs.leave name with breaker := b }, events)
    else (.unknownCall, cs, [])
  | .abandon name =>
    if name ∈ cs.waiting then (.done, cs.leave name, []) else (.unknownCall, cs, [])
  | .tryAcquire =>
    let (granted, b, events) := cs.breaker.tryAcquire now
    (if granted then .granted else .refused, { cs with breaker := b }, events)
  | .succeed =>
    let (b, events) := cs.breaker.recordSuccess now
    (.done, { cs with breaker := b }, events)
  | .fail =>
    let (b, events) := cs.breaker.recordFailure now
    (.done, { cs with breaker := b }, events)
  | .reset =>
    let (b, events) := cs.breaker.reset now
    (.done, { cs with breaker := b }, events)

/-! ## Results -/

/-- What is done with calls whose actions end with a value or with an error. -/
inductive Use (ε ρ : Type) where
  | start (name : String)
  | finish (name : String) (result : Except ε ρ)
  | drop (name : String)
  | reset
  deriving Repr

inductive Reply (ε ρ : Type) where
  /-- The action of the call runs, and its caller waits. -/
  | running
  /-- The caller has this result. -/
  | returned (result : Except (Breaker.CallError ε) ρ)
  | nothing
  /-- There is no call of that name. -/
  | unknownCall
  deriving Repr

variable {ε ρ : Type}

def Use.action : Use ε ρ → Action
  | start name => .start name
  | finish name result => .finish name result.isOk
  | drop name => .abandon name
  | reset => .reset

def Use.reply (u : Use ε ρ) : Answer → Reply ε ρ
  | .granted => .running
  | .refused => .returned (.error .opened)
  | .unknownCall => .unknownCall
  | .done =>
    match u with
    | finish _ result => .returned (Breaker.handBack result)
    | _ => .nothing

def use (now : Moment) (cs : Calls) (u : Use ε ρ) : Reply ε ρ × Calls × List Event :=
  let (answer, cs, events) := cs.step now u.action
  (u.reply answer, cs, events)

end Calls

end Gatehouse
