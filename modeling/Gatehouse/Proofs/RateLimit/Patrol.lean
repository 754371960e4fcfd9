import Gatehouse.Gateway.Server
import Gatehouse.Proofs.RateLimit.Sweeps
import Gatehouse.Proofs.Shutdown.Waiters
import Mathlib.Logic.Function.Basic

/-!
# How long idle clients are kept

A sweeper patrols a limiter until it is told to stop. While it does, a client that stops trying is
forgotten before its idle timeout, an interval of the sweeper and a millisecond of the clock have
passed; it is not forgotten before its idle timeout has passed.

* `Patrol` : a limiter, the sweepers that patrol it, the coordinator that they wait for, the metrics;
* `Patrol.Change`, `Patrol.change_step` : what an action can do;
* `Patrol.Remembers` : the invariant of the clients: a client that is kept was last seen when it last
  tried, and every client is kept for its idle timeout;
* `Patrol.Guards` : the invariant of a sweeper: its next sweep is not too late for any client;
* `Patrol.Law`, `Patrol.patrolLaw` : the bounds, the answers of a sweep, and who forgets clients.
-/

namespace Gatehouse

/-- A limiter and its sweepers, each by the name under which it waits for the coordinator. -/
structure Patrol (α : Type) where
  limiter : Limiter α
  shutdown : Shutdown
  sweepers : Nat → Option Sweeper
  metrics : Metrics

namespace Patrol

/-- What may happen: attempts, sweeps by hand, and the sweepers, which start, look at the clock, and
look whether they are told to stop. -/
inductive Action where
  | attempt (client : String)
  | sweep
  | start
  | wake (id : Nat)
  | look (id : Nat)
  | trigger
  | close
  deriving DecidableEq, Repr

section Steps
variable {α : Type}

def start (p : Patrol α) (now : Moment) : Patrol α :=
  match p.shutdown.subscribe, Sweeper.start? p.limiter.sweepInterval now with
  | (some id, shutdown), some s =>
    { p with shutdown := shutdown, sweepers := Function.update p.sweepers id (some s) }
  | _, _ => p

def wake (p : Patrol α) (id : Nat) (now : Moment) : Patrol α :=
  match p.sweepers id with
  | none => p
  | some s =>
    let (s, limiter, events) := s.wake p.limiter now
    { p with
      limiter := limiter
      sweepers := Function.update p.sweepers id (some s)
      metrics := p.metrics.note events }

def look (p : Patrol α) (id : Nat) : Patrol α :=
  if (p.sweepers id).isSome ∧ (p.shutdown.poll id).1 = some true then
    { p with
      shutdown := (p.shutdown.poll id).2
      sweepers := Function.update p.sweepers id none }
  else p

def step [TokenArithmetic α] (now : Moment) (p : Patrol α) : Action → Patrol α
  | .attempt client => { p with limiter := (p.limiter.attempt client now).2 }
  | .sweep =>
    let (_, limiter, events) := p.limiter.sweep now
    { p with limiter := limiter, metrics := p.metrics.note events }
  | .start => p.start now
  | .wake id => p.wake id now
  | .look id => p.look id
  | .trigger => { p with shutdown := p.shutdown.trigger.2 }
  | .close => { p with shutdown := p.shutdown.close }

/-- The sweeper of a running gateway looks at the clock in this way. -/
theorem limiter_wake_server (now : Moment) (s : Server α) (shutdown : Shutdown) (metrics : Metrics)
    (id : Nat) :
    (wake ⟨s.gateway.limiter, shutdown, fun _ => s.sweeper, metrics⟩ id now).limiter =
      (s.sweep now).1.gateway.limiter := by
  unfold wake Server.sweep
  cases hs : s.sweeper with
  | none => rfl
  | some sweeper => rfl

/-- A sweeper can start: the coordinator is there, and the interval is neither zero nor beyond the
clock. -/
structure CanStart (now : Moment) (p : Patrol α) : Prop where
  live : p.shutdown.live = true
  interval_pos : 0 < p.limiter.sweepInterval
  within : now + p.limiter.sweepInterval < lastMoment

/-- An action sweeps the limiter: it is a sweep by hand, or it wakes a sweeper that is due. -/
def Sweeps (now : Moment) (p : Patrol α) (a : Action) : Prop :=
  a = .sweep ∨ ∃ id s, a = .wake id ∧ p.sweepers id = some s ∧ isDue s.next now = true

variable [TokenArithmetic α]

/-- What an action can do. -/
inductive Change (now : Moment) (p : Patrol α) : Action → Patrol α → Prop where
  | attempted (client : String) :
    Change now p (.attempt client) { p with limiter := (p.limiter.attempt client now).2 }
  | swept : Change now p .sweep { p with
      limiter := (p.limiter.sweep now).2.1
      metrics := p.metrics.note (p.limiter.sweep now).2.2 }
  | started (h : CanStart now p) : Change now p .start { p with
      shutdown := p.shutdown.subscribe.2
      sweepers := Function.update p.sweepers p.shutdown.nextId
        (some ⟨now + p.limiter.sweepInterval, p.limiter.sweepInterval⟩) }
  | woke {id : Nat} {s : Sweeper} (hs : p.sweepers id = some s) (hdue : isDue s.next now = true)
    {more : List Event} (hmore : Event.measurements more = []) :
    Change now p (.wake id) { p with
      limiter := (p.limiter.sweep now).2.1
      sweepers := Function.update p.sweepers id (some (s.advance now))
      metrics := p.metrics.note ((p.limiter.sweep now).2.2 ++ more) }
  | told {id : Nat} (hrunning : (p.sweepers id).isSome = true)
    (htold : (p.shutdown.poll id).1 = some true) : Change now p (.look id) { p with
      shutdown := (p.shutdown.poll id).2
      sweepers := Function.update p.sweepers id none }
  | triggered : Change now p .trigger { p with shutdown := p.shutdown.trigger.2 }
  | closed : Change now p .close { p with shutdown := p.shutdown.close }
  | idle {a : Action} (hattempt : ∀ client, a ≠ .attempt client) (hsweeps : ¬ Sweeps now p a)
    (hstart : a = .start → ¬ CanStart now p) : Change now p a p

variable {now : Moment} {p p' : Patrol α} {a : Action}

theorem change_start (now : Moment) (p : Patrol α) : Change now p .start (p.start now) := by
  by_cases h : CanStart now p
  · have hs : Sweeper.start? p.limiter.sweepInterval now =
        some ⟨now + p.limiter.sweepInterval, p.limiter.sweepInterval⟩ :=
      if_pos ⟨h.interval_pos, h.within⟩
    have hstart := Change.started h
    simpa [start, Shutdown.subscribe, h.live, hs] using hstart
  · have hsame : p.start now = p := by
      unfold start
      split
      · rename_i id shutdown s hsubscribe hs
        have hinterval := (Option.ite_some_none_eq_some.mp hs).1
        refine absurd ⟨?_, hinterval.1, hinterval.2⟩ h
        by_contra hlive
        simp [Shutdown.subscribe, hlive] at hsubscribe
      · rfl
    rw [hsame]
    exact .idle (by simp) (by simp [Sweeps]) fun _ => h

theorem change_wake (now : Moment) (p : Patrol α) (id : Nat) :
    Change now p (.wake id) (p.wake id now) := by
  unfold wake
  cases hs : p.sweepers id with
  | none => exact .idle (by simp) (by simp [Sweeps, hs]) (by simp)
  | some s =>
    dsimp only
    unfold Sweeper.wake
    by_cases hdue : isDue s.next now = true
    · rw [if_pos hdue]
      exact .woke hs hdue (by split <;> rfl)
    · have hsame : Function.update p.sweepers id (some s) = p.sweepers :=
        hs ▸ Function.update_eq_self id p.sweepers
      rw [if_neg hdue]
      dsimp only
      rw [hsame]
      refine .idle (by simp) ?_ (by simp)
      rintro (hsweep | ⟨other, s', hother, hs', hdue'⟩)
      · cases hsweep
      · obtain rfl : id = other := Action.wake.inj hother
        obtain rfl : s = s' := Option.some.inj (hs.symm.trans hs')
        exact hdue hdue'

theorem change_step (now : Moment) (p : Patrol α) (a : Action) : Change now p a (step now p a) := by
  cases a with
  | attempt client => exact .attempted client
  | sweep => exact .swept
  | start => exact change_start now p
  | wake id => exact change_wake now p id
  | trigger => exact .triggered
  | close => exact .closed
  | look id =>
    change Change now p (.look id) (p.look id)
    unfold look
    split_ifs with h
    · exact .told h.1 h.2
    · exact .idle (by simp) (by simp [Sweeps]) (by simp)

/-! ## What is seen of the limiter -/

/-- To the limiter an action is an attempt, or a sweep, or nothing. -/
theorem Change.limiter (h : Change now p a p') :
    (∃ client, a = .attempt client ∧ p'.limiter = (p.limiter.attempt client now).2) ∨
      (∀ client, a ≠ .attempt client) ∧
        (Sweeps now p a ∧ p'.limiter = (p.limiter.sweep now).2.1 ∨ p'.limiter = p.limiter) := by
  cases h with
  | attempted client => exact .inl ⟨client, rfl, rfl⟩
  | swept => exact .inr ⟨by simp, .inl ⟨.inl rfl, rfl⟩⟩
  | woke hs hdue hmore => exact .inr ⟨by simp, .inl ⟨.inr ⟨_, _, rfl, hs, hdue⟩, rfl⟩⟩
  | started h => exact .inr ⟨by simp, .inr rfl⟩
  | told hrunning htold => exact .inr ⟨by simp, .inr rfl⟩
  | triggered => exact .inr ⟨by simp, .inr rfl⟩
  | closed => exact .inr ⟨by simp, .inr rfl⟩
  | idle hattempt hsweeps hstart => exact .inr ⟨hattempt, .inr rfl⟩

theorem Change.gauge (h : Change now p a p') (hk : p.limiter.Keyed) (ha : Sweeps now p a) :
    p'.metrics.value? Metrics.limiterClients = some (.gauge p'.limiter.tracked.ncard) := by
  cases h with
  | swept =>
    have hnone : Event.measurements [] = [] := rfl
    have hgauge := Limiter.gauge_sweep hk now p.metrics hnone
    rwa [List.append_nil] at hgauge
  | woke hs hdue hmore => exact Limiter.gauge_sweep hk now p.metrics hmore
  | idle hattempt hsweeps hstart => exact absurd ha hsweeps
  | attempted client => simp [Sweeps] at ha
  | started h => simp [Sweeps] at ha
  | told hrunning htold => simp [Sweeps] at ha
  | triggered => simp [Sweeps] at ha
  | closed => simp [Sweeps] at ha

theorem Change.sweeps_of_forgotten (h : Change now p a p') {client : String}
    (hbefore : client ∈ p.limiter.tracked) (hafter : client ∉ p'.limiter.tracked) :
    Sweeps now p a := by
  rcases h.limiter with ⟨other, -, hl⟩ | ⟨-, ⟨hsweeps, -⟩ | hl⟩
  · refine absurd ?_ hafter
    obtain ⟨b, hb⟩ := (Limiter.mem_tracked_iff _ _).mp hbefore
    rw [Limiter.mem_tracked_iff, hl]
    by_cases hne : client = other
    · subst hne
      exact ⟨_, Limiter.bucket?_attempt p.limiter client now⟩
    · exact ⟨b, (Limiter.bucket?_attempt_of_ne p.limiter other now hne).trans hb⟩
  · exact hsweeps
  · exact absurd (hl ▸ hbefore) hafter

theorem Change.bucket (h : Change now p a p') (hk : p.limiter.Keyed) {client : String} {b : Bucket α}
    (hb : p'.limiter.bucket? client = some b) :
    p.limiter.bucket? client = some b ∨ b.lastSeen = now := by
  rcases h.limiter with ⟨other, -, hl⟩ | ⟨-, ⟨-, hl⟩ | hl⟩
  · rw [hl] at hb
    by_cases hne : client = other
    · subst hne
      rw [Limiter.bucket?_attempt] at hb
      rw [← Option.some.inj hb]
      exact .inr (Bucket.tryAcquire_lastSeen p.limiter.capacity p.limiter.rate _ now)
    · rw [Limiter.bucket?_attempt_of_ne _ _ _ hne] at hb
      exact .inl hb
  · exact .inl ((Limiter.bucket?_sweep_eq_some_iff hk).mp (hl ▸ hb)).1
  · exact .inl (hl ▸ hb)

theorem Change.keyed (h : Change now p a p') (hk : p.limiter.Keyed) : p'.limiter.Keyed := by
  rcases h.limiter with ⟨other, -, hl⟩ | ⟨-, ⟨-, hl⟩ | hl⟩
  · exact hl ▸ Limiter.nodup_put hk
  · exact hl ▸ Limiter.keyed_sweep hk now
  · exact hl ▸ hk

theorem Change.settings (h : Change now p a p') :
    p'.limiter.idleTimeout = p.limiter.idleTimeout ∧
      p'.limiter.sweepInterval = p.limiter.sweepInterval := by
  rcases h.limiter with ⟨other, -, hl⟩ | ⟨-, ⟨-, hl⟩ | hl⟩
  · exact ⟨hl ▸ rfl, hl ▸ rfl⟩
  · exact ⟨hl ▸ rfl, hl ▸ rfl⟩
  · exact ⟨hl ▸ rfl, hl ▸ rfl⟩

/-! ## Clients -/

def lastAttempt (client : String) (history : List (Occurrence (Patrol α) Action)) : Option Moment :=
  ((history.filter fun o => o.action = .attempt client).getLast?).map (·.moment)

omit [TokenArithmetic α] in
theorem lastAttempt_concat (client : String) (history : List (Occurrence (Patrol α) Action))
    (o : Occurrence (Patrol α) Action) :
    lastAttempt client (history ++ [o]) =
      if o.action = .attempt client then some o.moment else lastAttempt client history := by
  unfold lastAttempt
  by_cases h : o.action = .attempt client
  · simp [List.filter_append, h]
  · simp [List.filter_append, h]

/-- A client that is kept was last seen when it last tried, and a client is kept for its idle
timeout after that. -/
structure Remembers (idle interval : Span) (history : List (Occurrence (Patrol α) Action))
    (now : Moment) (p : Patrol α) : Prop where
  keyed : p.limiter.Keyed
  idleTimeout : p.limiter.idleTimeout = idle
  sweepInterval : p.limiter.sweepInterval = interval
  seen : ∀ client b, p.limiter.bucket? client = some b →
    lastAttempt client history = some b.lastSeen
  kept : ∀ client m, lastAttempt client history = some m → now ≤ m + idle →
    client ∈ p.limiter.tracked

namespace Remembers

variable {idle interval : Span} {history : List (Occurrence (Patrol α) Action)}

omit [TokenArithmetic α] in
theorem wait (h : Remembers idle interval history now p) (span : Span) :
    Remembers idle interval history (now + span) p where
  keyed := h.keyed
  idleTimeout := h.idleTimeout
  sweepInterval := h.sweepInterval
  seen := h.seen
  kept client m hm hnow := h.kept client m hm (Nat.le_trans (Nat.le_add_right _ _) hnow)

theorem attempt (h : Remembers idle interval history now p) (client : String) :
    Remembers idle interval
      (history ++ [⟨now, .attempt client, p, Patrol.step now p (.attempt client)⟩]) now
      (Patrol.step now p (.attempt client)) where
  keyed := Limiter.nodup_put h.keyed
  idleTimeout := h.idleTimeout
  sweepInterval := h.sweepInterval
  seen other b hb := by
    change (p.limiter.attempt client now).2.bucket? other = some b at hb
    rw [lastAttempt_concat]
    by_cases hne : other = client
    · subst hne
      rw [Limiter.bucket?_attempt] at hb
      rw [if_pos rfl, ← Option.some.inj hb, Bucket.tryAcquire_lastSeen]
    · rw [Limiter.bucket?_attempt_of_ne _ _ _ hne] at hb
      rw [if_neg (by simp [Ne.symm hne])]
      exact h.seen other b hb
  kept other m hlast hnow := by
    change other ∈ (p.limiter.attempt client now).2.tracked
    rw [Limiter.mem_tracked_iff]
    rw [lastAttempt_concat] at hlast
    by_cases hne : other = client
    · subst hne
      exact ⟨_, Limiter.bucket?_attempt _ _ _⟩
    · rw [if_neg (by simp [Ne.symm hne])] at hlast
      rw [Limiter.bucket?_attempt_of_ne _ _ _ hne, ← Limiter.mem_tracked_iff]
      exact h.kept other m hlast hnow

theorem step (h : Remembers idle interval history now p) (a : Action) :
    Remembers idle interval (history ++ [⟨now, a, p, step now p a⟩]) now (step now p a) := by
  have hchange := change_step now p a
  rcases hchange.limiter with ⟨client, rfl, -⟩ | ⟨hne, hl⟩
  · exact h.attempt client
  have hlast : ∀ client, lastAttempt client (history ++ [⟨now, a, p, Patrol.step now p a⟩]) =
      lastAttempt client history :=
    fun client => by rw [lastAttempt_concat, if_neg (hne client)]
  refine ⟨hchange.keyed h.keyed, hchange.settings.1.trans h.idleTimeout,
    hchange.settings.2.trans h.sweepInterval, fun client b hb => ?_, fun client m hm hnow => ?_⟩
  · rw [hlast]
    refine h.seen client b ?_
    rcases hl with ⟨-, hl⟩ | hl
    · exact ((Limiter.bucket?_sweep_eq_some_iff h.keyed).mp (hl ▸ hb)).1
    · exact hl ▸ hb
  · rw [hlast] at hm
    obtain ⟨b, hb⟩ := (Limiter.mem_tracked_iff _ _).mp (h.kept client m hm hnow)
    refine (Limiter.mem_tracked_iff _ _).mpr ⟨b, ?_⟩
    rcases hl with ⟨-, hl⟩ | hl
    · -- the client was seen when it last tried, so a sweep leaves it
      have hseen : b.lastSeen = m := Option.some.inj ((h.seen client b hb).symm.trans hm)
      rw [hl, Limiter.bucket?_sweep_eq_some_iff h.keyed, hseen, h.idleTimeout]
      exact ⟨hb, hnow⟩
    · rw [hl]
      exact hb

end Remembers

/-! ## Sweepers -/

/-- A sweeper that was started at the moment `start`, while it runs: it sweeps in time for every
client that is kept. -/
structure Guards (idle interval : Span) (start : Moment) (id : Nat) (now : Moment) (p : Patrol α) :
    Prop where
  keyed : p.limiter.Keyed
  idleTimeout : p.limiter.idleTimeout = idle
  interval_pos : 0 < interval
  id_lt : id < p.shutdown.nextId
  period : ∀ s, p.sweepers id = some s → s.interval = interval
  next_le : ∀ s, p.sweepers id = some s → s.next ≤ now + interval
  covers : ∀ s, p.sweepers id = some s → ∀ client b, p.limiter.bucket? client = some b →
    s.next ≤ max (b.lastSeen + idle) start + interval

omit [TokenArithmetic α] in
theorem nextId_le_subscribe (s : Shutdown) : s.nextId ≤ s.subscribe.2.nextId := by
  unfold Shutdown.subscribe
  split
  · exact Nat.le_succ _
  · exact Nat.le_refl _

theorem Change.nextId_le (h : Change now p a p') : p.shutdown.nextId ≤ p'.shutdown.nextId := by
  cases h with
  | started h => exact nextId_le_subscribe p.shutdown
  | @told id hrunning htold =>
    rcases p.shutdown.poll_leaves id with hs | hs
    · exact Nat.le_of_eq (congrArg Shutdown.nextId hs.symm)
    · exact Nat.le_of_eq (congrArg Shutdown.nextId hs).symm
  | triggered =>
    change p.shutdown.nextId ≤ p.shutdown.trigger.2.nextId
    unfold Shutdown.trigger
    split <;> exact Nat.le_refl _
  | attempted client => exact Nat.le_refl _
  | swept => exact Nat.le_refl _
  | woke hs hdue hmore => exact Nat.le_refl _
  | closed => exact Nat.le_refl _
  | idle hattempt hsweeps hstart => exact Nat.le_refl _

/-- What an action does to a sweeper that has been started: nothing, or it sweeps and moves on to its
next moment, or it has been told to stop. -/
theorem Change.sweeper (h : Change now p a p') {id : Nat} (hid : id < p.shutdown.nextId) :
    p'.sweepers id = p.sweepers id ∨
      (∃ s, p.sweepers id = some s ∧ isDue s.next now = true ∧
        p'.sweepers id = some (s.advance now) ∧ p'.limiter = (p.limiter.sweep now).2.1) ∨
      a = .look id ∧ (p.shutdown.poll id).1 = some true ∧ p'.sweepers id = none := by
  cases h with
  | started h => exact .inl (Function.update_of_ne (Nat.ne_of_lt hid) _ _)
  | @woke other s hs hdue more hmore =>
    by_cases hother : id = other
    · subst hother
      exact .inr (.inl ⟨s, hs, hdue, Function.update_self _ _ _, rfl⟩)
    · exact .inl (Function.update_of_ne hother _ _)
  | @told other hrunning htold =>
    by_cases hother : id = other
    · subst hother
      exact .inr (.inr ⟨rfl, htold, Function.update_self _ _ _⟩)
    · exact .inl (Function.update_of_ne hother _ _)
  | attempted client => exact .inl rfl
  | swept => exact .inl rfl
  | triggered => exact .inl rfl
  | closed => exact .inl rfl
  | idle hattempt hsweeps hstart => exact .inl rfl

/-- A sweeper stops when it looks and is told to. -/
theorem Change.stops (h : Change now p a p') {id : Nat} (hbefore : (p.sweepers id).isSome = true)
    (hafter : p'.sweepers id = none) : a = .look id ∧ (p.shutdown.poll id).1 = some true := by
  have hsame : ∀ {other : Nat} {s : Option Sweeper}, id ≠ other →
      Function.update p.sweepers other s id ≠ none := fun hne hnone => by
    rw [Function.update_of_ne hne] at hnone
    rw [hnone] at hbefore
    cases hbefore
  have hself : ∀ {s : Sweeper}, Function.update p.sweepers id (some s) id ≠ none := by simp
  cases h with
  | started h =>
    by_cases hid : id = p.shutdown.nextId
    · subst hid; exact absurd hafter hself
    · exact absurd hafter (hsame hid)
  | @woke other s hs hdue more hmore =>
    by_cases hid : id = other
    · subst hid; exact absurd hafter hself
    · exact absurd hafter (hsame hid)
  | @told other hrunning htold =>
    by_cases hid : id = other
    · subst hid; exact ⟨rfl, htold⟩
    · exact absurd hafter (hsame hid)
  | _ => simp_all

namespace Guards

variable {idle interval : Span} {start : Moment} {id : Nat}

omit [TokenArithmetic α] in
theorem wait (h : Guards idle interval start id now p) (span : Span) :
    Guards idle interval start id (now + span) p where
  keyed := h.keyed
  idleTimeout := h.idleTimeout
  interval_pos := h.interval_pos
  id_lt := h.id_lt
  period := h.period
  next_le s hs :=
    Nat.le_trans (h.next_le s hs) (Nat.add_le_add_right (Nat.le_add_right _ _) _)
  covers := h.covers

/-- A moment that is at most an interval away is early enough for a client seen lately. -/
theorem le_of_seen {next seen : Moment} (hnext : next ≤ now + interval) (hseen : now ≤ seen + idle) :
    next ≤ max (seen + idle) start + interval :=
  Nat.le_trans hnext (Nat.add_le_add_right (Nat.le_trans hseen (Nat.le_max_left _ _)) _)

theorem step (h : Guards idle interval start id now p) (a : Action) :
    Guards idle interval start id now (step now p a) := by
  have hchange := change_step now p a
  have hkeyed := hchange.keyed h.keyed
  have hidle := hchange.settings.1.trans h.idleTimeout
  have hid := Nat.lt_of_lt_of_le h.id_lt hchange.nextId_le
  rcases hchange.sweeper h.id_lt with hsame | ⟨s, hs, hdue, hnext, hl⟩ | ⟨-, -, hnone⟩
  · refine ⟨hkeyed, hidle, h.interval_pos, hid, hsame ▸ h.period, hsame ▸ h.next_le,
      fun s hs client b hb => ?_⟩
    rw [hsame] at hs
    rcases hchange.bucket h.keyed hb with hb | hseen
    · exact h.covers s hs client b hb
    · exact le_of_seen (h.next_le s hs) (hseen ▸ Nat.le_add_right _ _)
  · have hperiod := h.period s hs
    have hle : (s.advance now).next ≤ now + interval := hperiod ▸ Sweeper.next_advance_le hdue
    have hself : ∀ s', (Patrol.step now p a).sweepers id = some s' → s' = s.advance now :=
      fun s' hs' => Option.some.inj (hs'.symm.trans hnext)
    refine ⟨hkeyed, hidle, h.interval_pos, hid, fun s' hs' => ?_, fun s' hs' => ?_,
      fun s' hs' client b hb => ?_⟩
    · rw [hself s' hs', Sweeper.interval_advance]
      exact hperiod
    · rw [hself s' hs']
      exact hle
    · -- what the sweep leaves was seen within the idle timeout
      rw [hl, Limiter.bucket?_sweep_eq_some_iff h.keyed, h.idleTimeout] at hb
      rw [hself s' hs']
      exact le_of_seen hle hb.2
  · have hgone : ∀ s, (Patrol.step now p a).sweepers id ≠ some s := fun s hs => by
      rw [hnone] at hs
      cases hs
    exact ⟨hkeyed, hidle, h.interval_pos, hid, fun s hs => absurd hs (hgone s),
      fun s hs => absurd hs (hgone s), fun s hs => absurd hs (hgone s)⟩

omit [TokenArithmetic α] in
/-- A sweeper that has looked at the clock has nothing more to do, wherever the clock stands. -/
theorem isDue_of_wake (h : Guards idle interval start id now p) (later : Moment) {s : Sweeper}
    (hs : (p.wake id later).sweepers id = some s) : isDue s.next later = false := by
  unfold wake at hs
  cases hsleeping : p.sweepers id with
  | none =>
    rw [hsleeping] at hs
    cases hsleeping.symm.trans hs
  | some x =>
    rw [hsleeping] at hs
    dsimp only at hs
    rw [Function.update_self] at hs
    rw [← Option.some.inj hs]
    exact Sweeper.isDue_wake (h.period x hsleeping ▸ h.interval_pos) _ _

omit [TokenArithmetic α] in
/-- When a sweeper has nothing to do, it has not been long since any client was seen. -/
theorem now_lt (h : Guards idle interval start id now p) {s : Sweeper} (hs : p.sweepers id = some s)
    (hdue : isDue s.next now = false) {client : String} {b : Bucket α}
    (hb : p.limiter.bucket? client = some b) :
    now < max (b.lastSeen + idle) start + interval + Span.millis 1 := by
  have hnext : tick now < s.next := Nat.not_le.mp (of_decide_eq_false hdue)
  calc now < tick now + Span.millis 1 := lt_tick_add now
    _ ≤ max (b.lastSeen + idle) start + interval + Span.millis 1 :=
      Nat.add_le_add_right (Nat.le_trans (Nat.le_of_lt hnext) (h.covers s hs client b hb)) _

end Guards

theorem guards_start {idle interval : Span} (hk : p.limiter.Keyed)
    (hidle : p.limiter.idleTimeout = idle) (hinterval : p.limiter.sweepInterval = interval)
    (h : CanStart now p) :
    Guards idle interval now p.shutdown.nextId now (step now p .start) := by
  have hstep : step now p .start = { p with
      shutdown := p.shutdown.subscribe.2
      sweepers := Function.update p.sweepers p.shutdown.nextId
        (some ⟨now + interval, interval⟩) } := by
    have hs : Sweeper.start? interval now = some ⟨now + interval, interval⟩ :=
      if_pos ⟨hinterval ▸ h.interval_pos, hinterval ▸ h.within⟩
    change p.start now = _
    simp [start, Shutdown.subscribe, h.live, hinterval, hs]
  have hself : ∀ s, (step now p .start).sweepers p.shutdown.nextId = some s →
      s = ⟨now + interval, interval⟩ := by
    intro s hs
    rw [hstep] at hs
    dsimp only at hs
    rw [Function.update_self] at hs
    exact (Option.some.inj hs).symm
  refine ⟨hstep ▸ hk, hstep ▸ hidle, hinterval ▸ h.interval_pos, ?_, fun s hs => ?_,
    fun s hs => ?_, fun s hs _ _ _ => ?_⟩
  · rw [hstep]
    simp [Shutdown.subscribe, h.live]
  · rw [hself s hs]
  · rw [hself s hs]
  · rw [hself s hs]
    exact Nat.add_le_add_right (Nat.le_max_right _ _) _

/-! ## Runs -/

theorem remembers_run {idle interval : Span} (s : Instant (Patrol α))
    (h : Remembers idle interval [] s.now s.state) (moves : List (Move Action)) :
    Remembers idle interval (s.history step moves) (s.run step moves).now
      (s.run step moves).state :=
  Instant.history_induction step (P := Remembers idle interval) s h (fun _ _ _ span h => h.wait span)
    (fun _ _ _ a h => h.step a) moves

/-- None of the attempts of a client comes after its last one. -/
theorem le_lastAttempt (s : Instant (Patrol α)) (moves : List (Move Action)) :
    ∀ o ∈ s.history step moves, ∀ client, o.action = .attempt client →
      ∃ m, lastAttempt client (s.history step moves) = some m ∧ o.moment ≤ m := by
  have hrun := Instant.history_induction step
    (P := fun history now _ => ∀ o ∈ history, o.moment ≤ now ∧
      ∀ client, o.action = .attempt client →
        ∃ m, lastAttempt client history = some m ∧ o.moment ≤ m) s (by simp)
    (fun history now _ span ih o ho =>
      ⟨Nat.le_trans (ih o ho).1 (Nat.le_add_right _ _), (ih o ho).2⟩) ?_ moves
  · exact fun o ho => (hrun o ho).2
  · intro history now p a ih o ho
    rcases List.mem_append.mp ho with ho | ho
    · refine ⟨(ih o ho).1, fun client hattempt => ?_⟩
      rw [lastAttempt_concat]
      by_cases ha : a = .attempt client
      · exact ⟨now, if_pos ha, (ih o ho).1⟩
      · rw [if_neg ha]
        exact (ih o ho).2 client hattempt
    · obtain rfl := List.mem_singleton.mp ho
      refine ⟨Nat.le_refl _, fun client hattempt => ⟨now, ?_, Nat.le_refl _⟩⟩
      rw [lastAttempt_concat, if_pos hattempt]

/-- Without a sweeper, and with none that starts, only a sweep by hand forgets anyone. -/
theorem sweep_of_forgotten (s : Instant (Patrol α)) (hnone : ∀ id, s.state.sweepers id = none)
    (later : List (Move Action)) (hstart : .act .start ∉ later) :
    ∀ o ∈ s.history step later, ∀ client ∈ o.before.limiter.tracked,
      client ∉ o.after.limiter.tracked → o.action = .sweep := by
  induction later generalizing s with
  | nil => simp
  | cons m later ih =>
    rw [List.mem_cons, not_or] at hstart
    cases m with
    | wait span => exact ih _ hnone hstart.2
    | act a =>
      have hchange := change_step s.now s.state a
      have hstill : ∀ id, (step s.now s.state a).sweepers id = none := by
        intro id
        generalize step s.now s.state a = p' at hchange
        cases hchange with
        | started h => exact absurd rfl hstart.1
        | woke hs hdue hmore => rw [hnone] at hs; cases hs
        | told hrunning htold => rw [hnone] at hrunning; cases hrunning
        | _ => exact hnone id
      intro o ho client hbefore hafter
      rcases List.mem_cons.mp ho with rfl | ho
      · rcases hchange.sweeps_of_forgotten hbefore hafter with hsweep | ⟨id, x, -, hx, -⟩
        · exact hsweep
        · exact absurd (hx.symm.trans (hnone id)) (Option.some_ne_none x)
      · exact ih _ hstill hstart.2 o ho client hbefore hafter

theorem sweepers_run_eq_none {id : Nat} (s : Instant (Patrol α)) (hid : id < s.state.shutdown.nextId)
    (hnone : s.state.sweepers id = none) (later : List (Move Action)) :
    (s.run step later).state.sweepers id = none := by
  have hrun := Instant.history_induction step
    (P := fun _ _ p => id < p.shutdown.nextId ∧ p.sweepers id = none) s ⟨hid, hnone⟩
    (fun _ _ _ _ h => h) (fun _ now p a h => ?_) later
  · exact hrun.2
  · have hchange := change_step now p a
    refine ⟨Nat.lt_of_lt_of_le h.1 hchange.nextId_le, ?_⟩
    rcases hchange.sweeper h.1 with hsame | ⟨x, hx, -⟩ | ⟨-, -, hgone⟩
    · exact hsame.trans h.2
    · exact absurd (hx.symm.trans h.2) (Option.some_ne_none x)
    · exact hgone

/-! ## The law -/

/-- A sweeper was started at the moment `start`, and `since` is what has happened after that. -/
structure Started (history : List (Occurrence (Patrol α) Action)) (start : Moment) (id : Nat)
    (since : List (Occurrence (Patrol α) Action)) : Prop where
  split : ∃ earlier o, history = earlier ++ o :: since ∧ o.action = .start ∧ o.moment = start ∧
    CanStart start o.before ∧ o.before.shutdown.nextId = id

theorem guards_of_started {idle interval : Span} (s : Instant (Patrol α))
    (h : Remembers idle interval [] s.now s.state) (moves : List (Move Action)) {start : Moment}
    {id : Nat} {since : List (Occurrence (Patrol α) Action)}
    (hstarted : Started (s.history step moves) start id since) :
    Guards idle interval start id (s.run step moves).now (s.run step moves).state := by
  have hrun := Instant.history_induction step
    (P := fun history now p => Remembers idle interval history now p ∧
      ∀ start id since, Started history start id since → Guards idle interval start id now p) s
    ⟨h, ?_⟩ (fun history now p span ih => ⟨ih.1.wait span, fun start id since hs =>
      (ih.2 start id since hs).wait span⟩) ?_ moves
  · exact hrun.2 start id since hstarted
  · rintro start id since ⟨earlier, o, hsplit, -⟩
    simp at hsplit
  · intro history now p a ih
    refine ⟨ih.1.step a, ?_⟩
    rintro start id since ⟨earlier, o, hsplit, hstart, rfl, hcan, rfl⟩
    rcases split_concat hsplit with ⟨rfl, rfl, rfl⟩ | ⟨before, rfl, rfl⟩
    · dsimp only at hstart hcan ⊢
      subst hstart
      exact guards_start ih.1.keyed ih.1.idleTimeout ih.1.sweepInterval hcan
    · exact (ih.2 _ _ before ⟨earlier, o, rfl, hstart, rfl, hcan, rfl⟩).step a

/-- What is known of a limiter at a moment, whoever patrols it. -/
structure Law (idle interval : Span) (history : List (Occurrence (Patrol α) Action))
    (s : Instant (Patrol α)) : Prop where
  /-- While a sweeper runs and is not due, a client that is kept tried no longer ago than the idle
  timeout, an interval and the millisecond between two ticks of the clock, -/
  recent : ∀ start id since, Started history start id since →
    ∀ sweeper, s.state.sweepers id = some sweeper → isDue sweeper.next s.now = false →
    ∀ client ∈ s.state.limiter.tracked, (∃ o ∈ since, o.action = .attempt client) →
      ∃ m, lastAttempt client history = some m ∧ s.now < m + idle + interval + Span.millis 1
  /-- and if it did not try since the sweeper started, the interval counts from that start at
  least. -/
  earlier : ∀ start id since, Started history start id since →
    ∀ sweeper, s.state.sweepers id = some sweeper → isDue sweeper.next s.now = false →
    ∀ client ∈ s.state.limiter.tracked,
      ∃ m, lastAttempt client history = some m ∧
        s.now < max (m + idle) start + interval + Span.millis 1
  /-- A sweeper that has looked at the clock is not due, however far the clock had jumped. -/
  awake : ∀ start id since, Started history start id since →
    ∀ span sweeper, (step (s.now + span) s.state (.wake id)).sweepers id = some sweeper →
      isDue sweeper.next (s.now + span) = false
  /-- A client that tried within the idle timeout is kept. -/
  kept : ∀ o ∈ history, ∀ client, o.action = .attempt client → s.now ≤ o.moment + idle →
    client ∈ s.state.limiter.tracked
  /-- What forgets a client is a sweep by hand, or a sweeper that runs and is due. -/
  forgotten : ∀ a, ∀ client ∈ s.state.limiter.tracked,
    client ∉ (step s.now s.state a).limiter.tracked → Sweeps s.now s.state a
  /-- A sweep says how many clients it forgets. -/
  sweepReturns : (s.state.limiter.sweep s.now).1 =
    (s.state.limiter.tracked \ (step s.now s.state .sweep).limiter.tracked).ncard
  /-- A sweep, by hand or by a sweeper, sets the gauge of the clients to the number that are left. -/
  gauge : ∀ a, Sweeps s.now s.state a →
    (step s.now s.state a).metrics.value? Metrics.limiterClients =
      some (.gauge (step s.now s.state a).limiter.tracked.ncard)
  /-- A sweeper stops when it looks and is told to, -/
  stops : ∀ a id, (s.state.sweepers id).isSome = true → (step s.now s.state a).sweepers id = none →
    a = .look id ∧ (s.state.shutdown.poll id).1 = some true
  /-- and then it does not come back. -/
  stopped : ∀ start id since, Started history start id since → s.state.sweepers id = none →
    ∀ later, (s.run step later).state.sweepers id = none
  /-- When no sweeper runs any more and none is started, only a sweep by hand forgets anyone. -/
  alone : (∀ id, s.state.sweepers id = none) → ∀ later, .act .start ∉ later →
    ∀ o ∈ s.history step later, ∀ client ∈ o.before.limiter.tracked,
      client ∉ o.after.limiter.tracked → o.action = .sweep

section Runs
variable (capacity : Nat) (rate : α) (idle interval : Span) (begun : Moment)

/-- A new limiter that nobody patrols yet. -/
def begin : Instant (Patrol α) :=
  ⟨begun, .new capacity rate idle interval, .new, fun _ => none, []⟩

theorem remembers_begin :
    Remembers idle interval [] (begin capacity rate idle interval begun).now
      (begin capacity rate idle interval begun).state where
  keyed := Limiter.keyed_new capacity rate idle interval
  idleTimeout := rfl
  sweepInterval := rfl
  seen _ _ hb := nomatch hb
  kept _ _ hm := nomatch hm

/-- **A limiter that is patrolled keeps a client for its idle timeout after its last attempt, and not
for more than an interval of the sweeper longer.** -/
theorem patrolLaw (moves : List (Move Action)) :
    Law idle interval ((begin capacity rate idle interval begun).history step moves)
      ((begin capacity rate idle interval begun).run step moves) := by
  have hbegin := remembers_begin capacity rate idle interval begun
  generalize begin capacity rate idle interval begun = s at hbegin ⊢
  have hremembers := remembers_run s hbegin moves
  have hguards : ∀ start id since, Started (s.history step moves) start id since →
      Guards idle interval start id (s.run step moves).now (s.run step moves).state :=
    fun _ _ _ hstarted => guards_of_started s hbegin moves hstarted
  have hrecent : ∀ start id since, Started (s.history step moves) start id since →
      ∀ sweeper, (s.run step moves).state.sweepers id = some sweeper →
      isDue sweeper.next (s.run step moves).now = false →
      ∀ client ∈ (s.run step moves).state.limiter.tracked,
        ∃ m, lastAttempt client (s.history step moves) = some m ∧
          (s.run step moves).now < max (m + idle) start + interval + Span.millis 1 := by
    intro start id since hstarted sweeper hs hdue client hc
    obtain ⟨b, hb⟩ := (Limiter.mem_tracked_iff _ _).mp hc
    exact ⟨b.lastSeen, hremembers.seen client b hb,
      (hguards start id since hstarted).now_lt hs hdue hb⟩
  refine ⟨?_, hrecent, ?_, ?_, ?_, ?_, ?_, ?_, ?_, ?_⟩
  · rintro start id since hstarted sweeper hs hdue client hc ⟨o, ho, hattempt⟩
    obtain ⟨m, hm, hlt⟩ := hrecent start id since hstarted sweeper hs hdue client hc
    obtain ⟨earlier, first, hsplit, -, rfl, -⟩ := hstarted
    have hmem : o ∈ s.history step moves := by simp [hsplit, ho]
    obtain ⟨m', hm', hle⟩ := le_lastAttempt s moves o hmem client hattempt
    obtain rfl : m = m' := Option.some.inj (hm.symm.trans hm')
    have hafter : first.moment ≤ o.moment := by
      obtain ⟨between, rest, rfl⟩ := List.append_of_mem ho
      exact Instant.moment_le_of_history step (by simpa using hsplit) first
        (List.mem_append_right earlier List.mem_cons_self)
    refine ⟨m, hm, ?_⟩
    rwa [Nat.max_eq_left (Nat.le_trans (Nat.le_trans hafter hle) (Nat.le_add_right _ _))] at hlt
  · exact fun start id since hstarted span sweeper hs =>
      (hguards start id since hstarted).isDue_of_wake _ hs
  · intro o ho client hattempt hnow
    obtain ⟨m, hm, hle⟩ := le_lastAttempt s moves o ho client hattempt
    exact hremembers.kept client m hm (Nat.le_trans hnow (Nat.add_le_add_right hle _))
  · exact fun a client => (change_step _ _ a).sweeps_of_forgotten
  · exact Limiter.sweep_fst_eq hremembers.keyed _
  · exact fun a => (change_step _ _ a).gauge hremembers.keyed
  · exact fun a id => (change_step _ _ a).stops
  · exact fun start id since hstarted hnone =>
      sweepers_run_eq_none _ (hguards start id since hstarted).id_lt hnone
  · exact fun hnone => sweep_of_forgotten _ hnone

end Runs

/-- A client that tried at the start is forgotten by the one sweep at the end of a long jump, and the
sweeper goes on from there. -/
example :
    let s := (begin 5 (1 : Rat) (Span.seconds 10) (Span.seconds 5) 0).run step
      [.act .start, .act (.attempt "a"), .wait (Span.seconds 17), .act (.wake 0)]
    s.state.limiter.size = 0 ∧ s.state.sweepers 0 = some ⟨Span.seconds 20, Span.seconds 5⟩ ∧
      s.state.metrics.value? Metrics.limiterClients = some (.gauge 0) := by
  decide +kernel

end Steps

end Patrol

end Gatehouse
