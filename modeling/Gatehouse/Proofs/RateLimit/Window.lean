import Gatehouse.Gateway.Server
import Gatehouse.Proofs.Config.Valid
import Gatehouse.Proofs.RateLimit.Room

/-!
# What a client is admitted to in a window of time

A limiter is tended by a sweeper, or swept by hand. A client that was forgotten while its bucket
still lacked tokens comes back to a full one, so the bound on its admissions in a window holds but
for what it was forgiven in that window.

* `Tended` : a limiter with the sweeper that tends it, and what may happen to them;
* `Tended.admittedIn`, `Tended.evictedIn` : how often a client was admitted, and forgotten, in a window;
* `Tended.Covered` : the invariant: admissions and room are paid for by the capacity, by what has come
  in, and by what was forgiven;
* `Tended.WindowLaw`, `Tended.windowLaw` : the bound, for every valid configuration.
-/

namespace Gatehouse

/-- A limiter, and the sweeper that tends it while one runs. -/
structure Tended where
  limiter : Limiter Rat
  sweeper : Option Sweeper

namespace Tended

/-- What may happen: attempts, sweeps by hand, and the sweeper, which is started, looks at the clock,
and is stopped. -/
inductive Action where
  | attempt (client : String)
  | sweep
  | startSweeper
  | wakeSweeper
  | stopSweeper
  deriving DecidableEq, Repr

def step (now : Moment) (t : Tended) : Action → Tended
  | .attempt client => { t with limiter := (t.limiter.attempt client now).2 }
  | .sweep => { t with limiter := (t.limiter.sweep now).2.1 }
  | .startSweeper => { t with sweeper := Sweeper.start? t.limiter.sweepInterval now }
  | .wakeSweeper =>
    match t.sweeper with
    | none => t
    | some s =>
      let (s, limiter, _) := s.wake t.limiter now
      ⟨limiter, some s⟩
  | .stopSweeper => { t with sweeper := none }

/-- The sweeper of a running gateway looks at the clock in this way. -/
theorem step_wakeSweeper (now : Moment) (s : Server Rat) :
    step now ⟨s.gateway.limiter, s.sweeper⟩ .wakeSweeper =
      ⟨(s.sweep now).1.gateway.limiter, (s.sweep now).1.sweeper⟩ := by
  unfold step Server.sweep
  cases hs : s.sweeper with
  | none => simp [hs]
  | some sweeper => rfl

/-- To the limiter an action is an attempt or a sweep, or it is nothing. -/
theorem step_cases (now : Moment) (t : Tended) (a : Action) :
    ((∀ client, a ≠ .attempt client) ∧ (step now t a).limiter = t.limiter) ∨
      ∃ b : Limiter.Action, (∀ client, a = .attempt client ↔ b = .attempt client) ∧
        (step now t a).limiter = t.limiter.act now b := by
  cases a with
  | attempt client => exact .inr ⟨.attempt client, by simp, rfl⟩
  | sweep => exact .inr ⟨.sweep, by simp, rfl⟩
  | startSweeper => exact .inl ⟨by simp, rfl⟩
  | stopSweeper => exact .inl ⟨by simp, rfl⟩
  | wakeSweeper =>
    unfold step
    cases t.sweeper with
    | none => exact .inl ⟨by simp, rfl⟩
    | some s =>
      unfold Sweeper.wake
      simp only
      split
      · exact .inr ⟨.sweep, by simp, rfl⟩
      · exact .inl ⟨by simp, rfl⟩

/-! ## Windows -/

/-- The history of the limiter of a configuration from its start on. -/
def past (r : Config.RateLimit) (start : Moment) (moves : List (Move Action)) :
    List (Occurrence Tended Action) :=
  (Instant.mk start ⟨Limiter.ofConfig r, none⟩).history step moves

section Windows
variable (client : String) (start : Moment) (span : Span)

def admits (o : Occurrence Tended Action) : Bool :=
  o.action = .attempt client ∧ (o.before.limiter.attempt client o.moment).1 = true

/-- Whether the client was forgotten. -/
def evicts (o : Occurrence Tended Action) : Bool :=
  (o.before.limiter.bucket? client).isSome ∧ (o.after.limiter.bucket? client).isNone

/-- How often something happened from `start` to the end of the span, both included. -/
def countIn (happened : Occurrence Tended Action → Bool)
    (history : List (Occurrence Tended Action)) : Nat :=
  history.countP fun o => (start ≤ o.moment ∧ o.moment ≤ start + span) ∧ happened o

def admittedIn (history : List (Occurrence Tended Action)) : Nat :=
  countIn start span (admits client) history

def evictedIn (history : List (Occurrence Tended Action)) : Nat :=
  countIn start span (evicts client) history

def within (now : Moment) (n : Nat) : Nat :=
  if start ≤ now ∧ now ≤ start + span then n else 0

theorem countIn_concat (happened : Occurrence Tended Action → Bool)
    (history : List (Occurrence Tended Action)) (o : Occurrence Tended Action) :
    countIn start span happened (history ++ [o]) = countIn start span happened history +
      within start span o.moment (if happened o then 1 else 0) := by
  unfold countIn within
  rw [List.countP_append, List.countP_singleton]
  by_cases hw : start ≤ o.moment ∧ o.moment ≤ start + span
  · simp [hw]
  · simp [hw]

end Windows

/-! ## The invariant -/

/-- What the client was admitted to in the window so far, and all that it could be admitted to at
once, is covered by the capacity, what has come in, and what was forgiven. -/
structure Covered (client : String) (start : Moment) (span : Span) (admitted evicted : Nat)
    (now : Moment) (l : Limiter Rat) : Prop where
  early : now < start → admitted = 0
  room : ∀ t, start ≤ t → now ≤ t → t ≤ start + span →
    (admitted : Rat) + l.room client t ≤
      l.capacity + l.rate * Span.exact (elapsed t start) + evicted * l.forfeit
  total : (admitted : Rat) ≤ l.capacity + l.rate * Span.exact span + evicted * l.forfeit

namespace Covered

variable {client : String} {start : Moment} {span : Span} {admitted evicted : Nat} {now : Moment}
  {l l' : Limiter Rat}

theorem begin (h : l.Settled client now) : Covered client start span 0 0 now l := by
  have hcome (s : Span) : 0 ≤ l.rate * Span.exact s :=
    mul_nonneg h.rate_nonneg (Span.exact_nonneg s)
  refine ⟨fun _ => rfl, fun t _ _ _ => ?_, ?_⟩
  · have hroom := l.room_le_capacity client t
    have hin := hcome (elapsed t start)
    push_cast
    linarith
  · have hin := hcome span
    have hcapacity := h.capacity_nonneg
    push_cast
    linarith

theorem wait (h : Covered client start span admitted evicted now l) (pause : Span) :
    Covered client start span admitted evicted (now + pause) l := by
  have hle : now ≤ now + pause := Nat.le_add_right now pause
  exact ⟨fun hs => h.early (Nat.lt_of_le_of_lt hle hs),
    fun t hs hn he => h.room t hs (Nat.le_trans hle hn) he, h.total⟩

theorem charge_within (h : Covered client start span admitted evicted now l)
    (hl : l.Settled client now) (hs : l'.SameNumbers l) {k e : Nat}
    (hc : Limiter.Charge client now k e l l') (hstart : start ≤ now) (hend : now ≤ start + span) :
    Covered client start span (admitted + k) (evicted + e) now l' := by
  have hroom := h.room now hstart (Nat.le_refl now) hend
  have hforgiven : 0 ≤ (e : Rat) * l.forfeit := mul_nonneg (Nat.cast_nonneg e) l.forfeit_nonneg
  refine ⟨fun hlt => absurd hstart (Nat.not_le.mpr hlt), fun t _ hnow _ => ?_, ?_⟩
  · -- the room pays for the admissions and the forfeit for the evictions
    have hnew := hc.room_le t hnow
    rw [hs.capacity, hs.rate, hs.forfeit, Span.exact_elapsed_trans hstart hnow]
    push_cast
    linarith
  · have hspan : l.rate * Span.exact (elapsed now start) ≤ l.rate * Span.exact span :=
      mul_le_mul_of_nonneg_left
        (Span.exact_mono (Bucket.elapsed_le_of_window (Nat.le_refl start) hend)) hl.rate_nonneg
    have hpaid := hc.affordable
    rw [hs.capacity, hs.rate, hs.forfeit]
    push_cast
    linarith

theorem charge_outside (h : Covered client start span admitted evicted now l)
    (hl : l.Settled client now) (hs : l'.SameNumbers l)
    (hout : ¬ (start ≤ now ∧ now ≤ start + span)) :
    Covered client start span admitted evicted now l' := by
  have hforgiven : 0 ≤ (evicted : Rat) * l.forfeit :=
    mul_nonneg (Nat.cast_nonneg evicted) l.forfeit_nonneg
  refine ⟨h.early, fun t hstart hnow hend => ?_, ?_⟩
  · -- the window has not begun yet, so that even a full bucket is paid for
    have hearly : now < start := by
      by_contra hlate
      exact hout ⟨Nat.not_lt.mp hlate, Nat.le_trans hnow hend⟩
    have hfull := l'.room_le_capacity client t
    have hcome : 0 ≤ l.rate * Span.exact (elapsed t start) :=
      mul_nonneg hl.rate_nonneg (Span.exact_nonneg _)
    rw [h.early hearly, hs.capacity, hs.rate, hs.forfeit]
    rw [hs.capacity] at hfull
    push_cast
    linarith
  · rw [hs.capacity, hs.rate, hs.forfeit]
    exact h.total

theorem charge (h : Covered client start span admitted evicted now l) (hl : l.Settled client now)
    (hs : l'.SameNumbers l) {k e : Nat} (hc : Limiter.Charge client now k e l l') :
    Covered client start span (admitted + within start span now k)
      (evicted + within start span now e) now l' := by
  unfold within
  by_cases hw : start ≤ now ∧ now ≤ start + span
  · rw [if_pos hw, if_pos hw]
    exact h.charge_within hl hs hc hw.1 hw.2
  · rw [if_neg hw, if_neg hw]
    exact h.charge_outside hl hs hw

end Covered

/-! ## One action, and a run -/

theorem charge_step {client : String} {now : Moment} {t : Tended}
    (h : t.limiter.Settled client now) (a : Action) :
    (step now t a).limiter.Settled client now ∧ (step now t a).limiter.SameNumbers t.limiter ∧
      Limiter.Charge client now (if admits client ⟨now, a, t, step now t a⟩ then 1 else 0)
        (if evicts client ⟨now, a, t, step now t a⟩ then 1 else 0) t.limiter
        (step now t a).limiter := by
  rcases step_cases now t a with ⟨ha, hstep⟩ | ⟨b, hab, hstep⟩
  · have hadmits : admits client ⟨now, a, t, step now t a⟩ = false := by
      simp [admits, ha client]
    have hevicts : evicts client ⟨now, a, t, step now t a⟩ = false := by
      unfold evicts
      rw [hstep]
      cases t.limiter.bucket? client <;> simp
    rw [hstep, hadmits, hevicts]
    exact ⟨h, ⟨rfl, rfl, rfl⟩, Limiter.charge_of_same h ⟨rfl, rfl, rfl⟩ rfl⟩
  · have hcharge := Limiter.charge_act h b
    rw [hstep]
    refine ⟨h.act b, Limiter.sameNumbers_act t.limiter now b, ?_⟩
    simpa [admits, evicts, hab client, hstep] using hcharge

theorem covered_run {r : Config.RateLimit} (hr : 0 ≤ r.refillPerSecond.toRat) (begun : Moment)
    (moves : List (Move Action)) (client : String) (start : Moment) (span : Span) :
    ∃ now l, l.SameNumbers (Limiter.ofConfig (α := Rat) r) ∧
      Covered client start span (admittedIn client start span (past r begun moves))
        (evictedIn client start span (past r begun moves)) now l := by
  have hsettled : (Limiter.ofConfig (α := Rat) r).Settled client begun :=
    ⟨Nat.cast_nonneg r.capacity.toNat, hr, List.nodup_nil, fun b hb => nomatch hb⟩
  have h := Instant.history_induction step
    (P := fun history now t => t.limiter.Settled client now ∧
      t.limiter.SameNumbers (Limiter.ofConfig (α := Rat) r) ∧
      Covered client start span (admittedIn client start span history)
        (evictedIn client start span history) now t.limiter)
    ⟨begun, ⟨Limiter.ofConfig r, none⟩⟩ ?_ ?_ ?_ moves
  · exact ⟨_, _, h.2⟩
  · exact ⟨hsettled, ⟨rfl, rfl, rfl⟩, .begin hsettled⟩
  · rintro history now t pause ⟨hl, hs, hcovered⟩
    exact ⟨hl.wait pause, hs, hcovered.wait pause⟩
  · rintro history now t a ⟨hl, hs, hcovered⟩
    obtain ⟨hl', hs', hcharge⟩ := charge_step hl a
    unfold admittedIn evictedIn at hcovered ⊢
    rw [countIn_concat, countIn_concat]
    exact ⟨hl', hs'.trans hs, hcovered.charge hl hs' hcharge⟩

/-! ## The bound -/

/-- The most that a client can be forgiven when it is forgotten: a full bucket but for what comes in
over the idle timeout. -/
def forfeit (r : Config.RateLimit) : Rat :=
  max 0 (r.capacity.toNat - r.refillPerSecond.toRat * r.idleTimeoutSecs.toNat)

theorem forfeit_ofConfig (r : Config.RateLimit) :
    (Limiter.ofConfig (α := Rat) r).forfeit = forfeit r := by
  have hidle : (Limiter.ofConfig (α := Rat) r).idleTimeout =
      Span.seconds r.idleTimeoutSecs.toNat := rfl
  unfold Limiter.forfeit forfeit
  rw [hidle, Span.exact_seconds]
  rfl

/-- The bound on the admissions of a client, for every window of a history. -/
structure WindowLaw (r : Config.RateLimit) (client : String)
    (history : List (Occurrence Tended Action)) : Prop where
  admittedIn_le : ∀ start span, (admittedIn client start span history : Rat) ≤
    r.capacity.toNat + r.refillPerSecond.toRat * Span.exact span +
      evictedIn client start span history * forfeit r
  /-- Where the client is not forgotten nothing is forgiven. -/
  admittedIn_le_of_kept : ∀ start span, evictedIn client start span history = 0 →
    (admittedIn client start span history : Rat) ≤
      r.capacity.toNat + r.refillPerSecond.toRat * Span.exact span
  /-- Nor is it where a bucket fills up within the idle timeout. -/
  admittedIn_le_of_patient :
    (r.capacity.toNat : Rat) ≤ r.refillPerSecond.toRat * r.idleTimeoutSecs.toNat →
      ∀ start span, (admittedIn client start span history : Rat) ≤
        r.capacity.toNat + r.refillPerSecond.toRat * Span.exact span

/-- **The bound on admissions in a window of time**, for every valid configuration and every run:
the capacity, what comes in over the window, and what the client is forgiven in it. -/
theorem windowLaw [Idna] (c : Config) (hvalid : c.isValid = true)
    (henabled : c.rateLimit.enabled = true)
    (hfinite : c.rateLimit.refillPerSecond.isFinite = true) (begun : Moment)
    (moves : List (Move Action)) (client : String) :
    WindowLaw c.rateLimit client (past c.rateLimit begun moves) := by
  have hrate : 0 ≤ c.rateLimit.refillPerSecond.toRat :=
    (Config.refillRate_pos hvalid henabled hfinite).le
  have hbound : ∀ start span,
      (admittedIn client start span (past c.rateLimit begun moves) : Rat) ≤
        c.rateLimit.capacity.toNat + c.rateLimit.refillPerSecond.toRat * Span.exact span +
          evictedIn client start span (past c.rateLimit begun moves) * forfeit c.rateLimit := by
    intro start span
    obtain ⟨now, l, hs, hcovered⟩ := covered_run hrate begun moves client start span
    have htotal := hcovered.total
    rw [hs.forfeit, forfeit_ofConfig, hs.capacity, hs.rate] at htotal
    exact htotal
  refine ⟨hbound, fun start span hkept => ?_, fun hpatient start span => ?_⟩
  · have h := hbound start span
    rw [hkept, Nat.cast_zero, zero_mul, add_zero] at h
    exact h
  · have h := hbound start span
    have hnone : forfeit c.rateLimit = 0 := max_eq_left (sub_nonpos.mpr hpatient)
    rw [hnone, mul_zero, add_zero] at h
    exact h

/-! One token that takes a quarter of an hour to come back, and clients that are forgotten after a
second. -/

def hasty : Config :=
  { (default : Config) with rateLimit := ⟨true, 1, .ofRatio false 1 1000, 1, 1⟩ }

/-- A client uses up its token, is forgotten, and comes back. -/
def comeback : List (Move Action) :=
  [.act (.attempt "a"), .wait (Span.seconds 2), .act .sweep, .act (.attempt "a")]

theorem windowLaw_comeback :
    hasty.isValid = true ∧ hasty.rateLimit.enabled = true ∧
      hasty.rateLimit.refillPerSecond.isFinite = true ∧
      evictedIn "a" 0 (Span.seconds 2) (past hasty.rateLimit 0 comeback) = 1 ∧
      WindowLaw hasty.rateLimit "a" (past hasty.rateLimit 0 comeback) := by
  have hvalid : hasty.isValid = true := by decide +kernel
  have hfinite : hasty.rateLimit.refillPerSecond.isFinite = true := by decide +kernel
  refine ⟨hvalid, rfl, hfinite, ?_, windowLaw hasty hvalid rfl hfinite 0 comeback "a"⟩
  decide +kernel

/-- It is admitted twice within two seconds, which are not enough for a second token. -/
theorem exceeds_comeback :
    hasty.isValid = true ∧ hasty.rateLimit.enabled = true ∧
      hasty.rateLimit.refillPerSecond.isFinite = true ∧
      admittedIn "a" 0 (Span.seconds 2) (past hasty.rateLimit 0 comeback) = 2 ∧
      ¬ (admittedIn "a" 0 (Span.seconds 2) (past hasty.rateLimit 0 comeback) : Rat) ≤
        hasty.rateLimit.capacity.toNat +
          hasty.rateLimit.refillPerSecond.toRat * Span.exact (Span.seconds 2) := by
  have htwice : admittedIn "a" 0 (Span.seconds 2) (past hasty.rateLimit 0 comeback) = 2 := by
    decide +kernel
  refine ⟨by decide +kernel, rfl, by decide +kernel, htwice, ?_⟩
  rw [htwice]
  decide +kernel

end Tended

end Gatehouse
