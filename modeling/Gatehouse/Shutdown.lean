/-!
# Shutdown

A coordinator tells everyone who has subscribed that it is time to stop. Subscribers wait; a waiter
is released by the first signal after it subscribed, or by the end of the coordinator, and leaves
when it next looks.

* `Shutdown.subscribe`, `Shutdown.trigger`, `Shutdown.close` : what the coordinator does;
* `Shutdown.poll`, `Shutdown.unsubscribe` : what a waiter does;
* `Shutdown.Action`, `Shutdown.step` : a run of all of these.
-/

namespace Gatehouse

/-- Someone who waits for the signal: a name, and how many signals there had been before. -/
structure Waiter where
  id : Nat
  since : Nat
  deriving DecidableEq, Repr, Inhabited

/-- A coordinator and those who wait for it. `signals` counts the signals so far; `nextId` is the
name of the next waiter. -/
structure Shutdown where
  live : Bool
  signals : Nat
  nextId : Nat
  waiters : List Waiter
  deriving DecidableEq, Repr, Inhabited

namespace Shutdown

def new : Shutdown := ⟨true, 0, 0, []⟩

def waiter? (s : Shutdown) (id : Nat) : Option Waiter := s.waiters.find? fun w => w.id = id

def remove (s : Shutdown) (id : Nat) : Shutdown :=
  { s with waiters := s.waiters.filter fun w => w.id ≠ id }

def receiverCount (s : Shutdown) : Nat := s.waiters.length

def releases (s : Shutdown) (w : Waiter) : Bool := w.since < s.signals || !s.live

/-- A new waiter, while the coordinator is there. -/
def subscribe (s : Shutdown) : Option Nat × Shutdown :=
  if s.live then
    (some s.nextId,
      { s with nextId := s.nextId + 1, waiters := s.waiters ++ [⟨s.nextId, s.signals⟩] })
  else (none, s)

/-- The signal. Says whether the coordinator is there to give it. -/
def trigger (s : Shutdown) : Bool × Shutdown :=
  if s.live then (true, { s with signals := s.signals + 1 }) else (false, s)

def close (s : Shutdown) : Shutdown := { s with live := false }

/-- A waiter looks, and leaves if it is released. There may be no such waiter. -/
def poll (s : Shutdown) (id : Nat) : Option Bool × Shutdown :=
  match s.waiter? id with
  | none => (none, s)
  | some w => if s.releases w then (some true, s.remove id) else (some false, s)

/-- A waiter leaves. Says whether it was there. -/
def unsubscribe (s : Shutdown) (id : Nat) : Bool × Shutdown :=
  ((s.waiter? id).isSome, s.remove id)

inductive Action where
  | subscribe
  | trigger
  | close
  | poll (id : Nat)
  | unsubscribe (id : Nat)
  deriving DecidableEq, Repr

def step (s : Shutdown) : Action → Shutdown
  | .subscribe => s.subscribe.2
  | .trigger => s.trigger.2
  | .close => s.close
  | .poll id => (s.poll id).2
  | .unsubscribe id => (s.unsubscribe id).2

end Shutdown

end Gatehouse
