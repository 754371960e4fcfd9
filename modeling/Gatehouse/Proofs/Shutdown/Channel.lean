import Gatehouse.Shutdown
import Mathlib.Data.List.Forall2

/-!
# The channel behind a coordinator

The signal goes through a channel that keeps its last message and no others. A receiver knows the
position of the message that it waits for, and nothing else. One that comes too late for a message
is told that it lags; it is never told that there is nothing when there was something.

* `Channel.receive` : what a receiver gets when it looks;
* `Channel.reply`, `Channel.step` : what may happen, as for a coordinator;
* `Channel.Carries` : a channel and a coordinator whose waiters are told the same;
* `carries_run`, `Carries.reply_eq` : every run of the one is a run of the other.
-/

namespace Gatehouse

namespace Shutdown

inductive Reply where
  | subscribed (id : Option Nat)
  | triggered (given : Bool)
  | closed
  | polled (done : Option Bool)
  | unsubscribed (present : Bool)
  deriving DecidableEq, Repr

def reply (s : Shutdown) : Action → Reply
  | .subscribe => .subscribed s.subscribe.1
  | .trigger => .triggered s.trigger.1
  | .close => .closed
  | .poll id => .polled (s.poll id).1
  | .unsubscribe id => .unsubscribed (s.unsubscribe id).1

def run (actions : List Action) : Shutdown := actions.foldl step new

end Shutdown

/-- What a receiver gets when it looks. -/
inductive Reception where
  | message
  /-- Messages were overwritten before the receiver came to them. -/
  | lagged (missed : Nat)
  | closed
  | nothing
  deriving DecidableEq, Repr

/-- A receiver: a name, and the position of the message that it waits for. -/
structure Receiver where
  id : Nat
  next : Nat
  deriving DecidableEq, Repr

/-- A channel that keeps its last message. `tail` is the position of the next message, `slot` that of
the message that is kept; `live` says whether there is still someone who may send. -/
structure Channel where
  live : Bool
  tail : Nat
  slot : Option Nat
  nextId : Nat
  receivers : List Receiver
  deriving DecidableEq, Repr

namespace Channel

open Gatehouse.Shutdown (Action Reply)

def new : Channel := ⟨true, 0, none, 0, []⟩

/-- What a receiver gets that waits for the message at the position `next`. -/
def receive (c : Channel) (next : Nat) : Reception :=
  if c.slot = some next then .message
  else if c.slot.elim 0 (· + 1) = next then if c.live then .nothing else .closed
  else .lagged (c.tail - 1 - next)

def receiver? (c : Channel) (id : Nat) : Option Receiver := c.receivers.find? fun r => r.id = id

def remove (c : Channel) (id : Nat) : Channel :=
  { c with receivers := c.receivers.filter fun r => r.id ≠ id }

/-- A receiver of the messages that are still to come. -/
def subscribe (c : Channel) : Option Nat × Channel :=
  if c.live then
    (some c.nextId,
      { c with nextId := c.nextId + 1, receivers := c.receivers ++ [⟨c.nextId, c.tail⟩] })
  else (none, c)

/-- A message takes the place of the one before it. Where nobody receives, none is sent. -/
def send (c : Channel) : Bool × Channel :=
  if c.live then
    (true, if c.receivers.isEmpty then c else { c with tail := c.tail + 1, slot := some c.tail })
  else (false, c)

def close (c : Channel) : Channel := { c with live := false }

/-- Someone who waits looks, and is done with whatever there is, be it a message or an error. -/
def poll (c : Channel) (id : Nat) : Option Bool × Channel :=
  match c.receiver? id with
  | none => (none, c)
  | some r => if c.receive r.next = .nothing then (some false, c) else (some true, c.remove id)

def unsubscribe (c : Channel) (id : Nat) : Bool × Channel :=
  ((c.receiver? id).isSome, c.remove id)

def step (c : Channel) : Action → Channel
  | .subscribe => c.subscribe.2
  | .trigger => c.send.2
  | .close => c.close
  | .poll id => (c.poll id).2
  | .unsubscribe id => (c.unsubscribe id).2

def reply (c : Channel) : Action → Reply
  | .subscribe => .subscribed c.subscribe.1
  | .trigger => .triggered c.send.1
  | .close => .closed
  | .poll id => .polled (c.poll id).1
  | .unsubscribe id => .unsubscribed (c.unsubscribe id).1

def run (actions : List Action) : Channel := actions.foldl step new

/-! ## Receivers and waiters -/

/-- A receiver and a waiter of one name, who have something to hear or have not, as one. -/
structure Matches (tail signals : Nat) (r : Receiver) (w : Waiter) : Prop where
  id : r.id = w.id
  next_le : r.next ≤ tail
  since_le : w.since ≤ signals
  behind_iff : r.next < tail ↔ w.since < signals

theorem Matches.sent {tail signals : Nat} {r : Receiver} {w : Waiter}
    (h : Matches tail signals r w) : Matches (tail + 1) (signals + 1) r w where
  id := h.id
  next_le := Nat.le_succ_of_le h.next_le
  since_le := Nat.le_succ_of_le h.since_le
  behind_iff := iff_of_true (Nat.lt_succ_of_le h.next_le) (Nat.lt_succ_of_le h.since_le)

/-- A channel and a coordinator with the same receivers in the same order. -/
structure Carries (c : Channel) (s : Shutdown) : Prop where
  live : c.live = s.live
  slot : c.slot.elim 0 (· + 1) = c.tail
  nextId : c.nextId = s.nextId
  receivers : List.Forall₂ (Matches c.tail s.signals) c.receivers s.waiters

theorem carries_new : Carries new Shutdown.new := ⟨rfl, rfl, rfl, .nil⟩

section Lists
variable {tail signals : Nat} {rs : List Receiver} {ws : List Waiter}

theorem find?_matches (h : List.Forall₂ (Matches tail signals) rs ws) (id : Nat) :
    (rs.find? fun r => r.id = id) = none ∧ (ws.find? fun w => w.id = id) = none ∨
      ∃ r w, (rs.find? fun r => r.id = id) = some r ∧ (ws.find? fun w => w.id = id) = some w ∧
        Matches tail signals r w := by
  induction h with
  | nil => exact .inl ⟨rfl, rfl⟩
  | @cons r w rs ws hrw _ ih =>
    by_cases hid : w.id = id
    · exact .inr ⟨r, w, by simp [hrw.id, hid], by simp [hid], hrw⟩
    · simpa [hrw.id, hid] using ih

theorem filter_matches (h : List.Forall₂ (Matches tail signals) rs ws) (id : Nat) :
    List.Forall₂ (Matches tail signals) (rs.filter fun r => r.id ≠ id)
      (ws.filter fun w => w.id ≠ id) := by
  induction h with
  | nil => exact .nil
  | @cons r w rs ws hrw _ ih =>
    by_cases hid : w.id = id
    · simpa [hrw.id, hid] using ih
    · simpa [hrw.id, hid] using And.intro hrw ih

end Lists

namespace Carries

variable {c : Channel} {s : Shutdown}

theorem receive_eq_nothing_iff (h : Carries c s) {r : Receiver} {w : Waiter}
    (hrw : Matches c.tail s.signals r w) : c.receive r.next = .nothing ↔ s.releases w = false := by
  have hreleases : s.releases w = false ↔ ¬ r.next < c.tail ∧ c.live = true := by
    unfold Shutdown.releases
    rw [hrw.behind_iff, h.live, Bool.or_eq_false_iff, decide_eq_false_iff_not, Bool.not_eq_false']
  have hslot := h.slot
  have hle := hrw.next_le
  rw [hreleases]
  unfold receive
  by_cases hmessage : c.slot = some r.next
  · rw [hmessage] at hslot
    have hbehind : r.next < c.tail := Nat.lt_of_lt_of_eq (Nat.lt_succ_self _) hslot
    simp [hmessage, hbehind]
  · rw [if_neg hmessage, hslot]
    by_cases hnext : c.tail = r.next
    · rw [if_pos hnext]
      cases hlive : c.live <;> simp [hnext]
    · have hbehind : r.next < c.tail := Nat.lt_of_le_of_ne hle (Ne.symm hnext)
      simp [hnext, hbehind]

theorem find? (h : Carries c s) (id : Nat) :
    c.receiver? id = none ∧ s.waiter? id = none ∨
      ∃ r w, c.receiver? id = some r ∧ s.waiter? id = some w ∧ Matches c.tail s.signals r w :=
  find?_matches h.receivers id

theorem remove (h : Carries c s) (id : Nat) : Carries (c.remove id) (s.remove id) :=
  ⟨h.live, h.slot, h.nextId, filter_matches h.receivers id⟩

theorem subscribe (h : Carries c s) :
    c.subscribe.1 = s.subscribe.1 ∧ Carries c.subscribe.2 s.subscribe.2 := by
  have hsame := h.live
  unfold Channel.subscribe Shutdown.subscribe
  cases hlive : c.live with
  | false =>
    rw [← hsame, hlive]
    exact ⟨rfl, h⟩
  | true =>
    rw [← hsame, hlive, if_pos rfl, if_pos rfl]
    refine ⟨congrArg some h.nextId, rfl, h.slot, congrArg (· + 1) h.nextId, ?_⟩
    have hself : Matches c.tail s.signals ⟨c.nextId, c.tail⟩ ⟨s.nextId, s.signals⟩ :=
      ⟨h.nextId, Nat.le_refl _, Nat.le_refl _, iff_of_false (Nat.lt_irrefl _) (Nat.lt_irrefl _)⟩
    exact List.rel_append h.receivers (.cons hself .nil)

theorem trigger (h : Carries c s) :
    c.send.1 = s.trigger.1 ∧ Carries c.send.2 s.trigger.2 := by
  have hsame := h.live
  unfold Channel.send Shutdown.trigger
  cases hlive : c.live with
  | false =>
    rw [← hsame, hlive]
    exact ⟨rfl, h⟩
  | true =>
    rw [← hsame, hlive, if_pos rfl, if_pos rfl]
    refine ⟨rfl, ?_⟩
    -- a signal that nobody waits for is counted, but no message is sent for it
    cases hreceivers : c.receivers with
    | nil =>
      have hwaiters := h.receivers
      rw [hreceivers, List.forall₂_nil_left_iff] at hwaiters
      rw [if_pos List.isEmpty_nil]
      exact ⟨hlive, h.slot, h.nextId, by rw [hreceivers, hwaiters]; exact .nil⟩
    | cons r rs =>
      rw [if_neg (by simp), ← hreceivers]
      exact ⟨rfl, rfl, h.nextId, h.receivers.imp fun _ _ hrw => hrw.sent⟩

theorem poll (h : Carries c s) (id : Nat) :
    (c.poll id).1 = (s.poll id).1 ∧ Carries (c.poll id).2 (s.poll id).2 := by
  unfold Channel.poll Shutdown.poll
  rcases h.find? id with ⟨hr, hw⟩ | ⟨r, w, hr, hw, hrw⟩
  · rw [hr, hw]
    exact ⟨rfl, h⟩
  · rw [hr, hw]
    dsimp only
    have hiff := h.receive_eq_nothing_iff hrw
    cases hreleases : s.releases w with
    | false =>
      rw [if_pos (hiff.mpr hreleases), if_neg Bool.false_ne_true]
      exact ⟨rfl, h⟩
    | true =>
      have hsome : ¬ c.receive r.next = .nothing := fun hn => by
        rw [hiff.mp hn] at hreleases
        cases hreleases
      rw [if_neg hsome, if_pos rfl]
      exact ⟨rfl, h.remove id⟩

theorem unsubscribe (h : Carries c s) (id : Nat) :
    (c.unsubscribe id).1 = (s.unsubscribe id).1 ∧
      Carries (c.unsubscribe id).2 (s.unsubscribe id).2 := by
  refine ⟨?_, h.remove id⟩
  unfold Channel.unsubscribe Shutdown.unsubscribe
  rcases h.find? id with ⟨hr, hw⟩ | ⟨r, w, hr, hw, -⟩
  · rw [hr, hw]
    rfl
  · rw [hr, hw]
    rfl

theorem step (h : Carries c s) (a : Action) : Carries (c.step a) (s.step a) := by
  cases a with
  | subscribe => exact h.subscribe.2
  | trigger => exact h.trigger.2
  | close => exact ⟨rfl, h.slot, h.nextId, h.receivers⟩
  | poll id => exact (h.poll id).2
  | unsubscribe id => exact (h.unsubscribe id).2

theorem reply_eq (h : Carries c s) (a : Action) : c.reply a = s.reply a := by
  cases a with
  | subscribe => exact congrArg Reply.subscribed h.subscribe.1
  | trigger => exact congrArg Reply.triggered h.trigger.1
  | close => rfl
  | poll id => exact congrArg Reply.polled (h.poll id).1
  | unsubscribe id => exact congrArg Reply.unsubscribed (h.unsubscribe id).1

end Carries

/-- A run of the coordinator is a run of its channel. -/
theorem carries_run (actions : List Action) : Carries (run actions) (Shutdown.run actions) := by
  unfold run Shutdown.run
  have hfold : ∀ (c : Channel) (s : Shutdown), Carries c s →
      Carries (actions.foldl step c) (actions.foldl Shutdown.step s) := by
    induction actions with
    | nil => exact fun _ _ h => h
    | cons a actions ih => exact fun _ _ h => ih _ _ (h.step a)
  exact hfold new Shutdown.new carries_new

end Channel

end Gatehouse
