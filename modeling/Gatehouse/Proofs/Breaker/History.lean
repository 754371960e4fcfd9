import Gatehouse.Breaker.Basic
import Gatehouse.Proofs.Timeline

/-!
# Runs of a breaker

A breaker by itself is asked for calls, told results and reset, in any order and at any moments.

* `Breaker.Action`, `Breaker.act` : what may be done with a breaker, and what it does;
* `Breaker.run`, `Breaker.past` : a run of a new breaker, and its history;
* `Breaker.refuses_iff` : when a breaker refuses.
-/

namespace Gatehouse.Breaker

inductive Action where
  | tryAcquire
  | succeed
  | fail
  | reset
  deriving DecidableEq, Repr

def act (now : Moment) (b : Breaker) : Action → Breaker
  | .tryAcquire => (b.tryAcquire now).2.1
  | .succeed => (b.recordSuccess now).1
  | .fail => (b.recordFailure now).1
  | .reset => (b.reset now).1

def refuses (b : Breaker) (now : Moment) : Bool := !(b.tryAcquire now).1

def run (service : String) (settings : Settings) (start : Moment) (moves : List (Move Action)) :
    Instant Breaker :=
  (Instant.mk start (new service settings start)).run act moves

def past (service : String) (settings : Settings) (start : Moment) (moves : List (Move Action)) :
    List (Occurrence Breaker Action) :=
  (Instant.mk start (new service settings start)).history act moves

/-! ## One action -/

@[simp] theorem enter_circuit (b : Breaker) (c : Circuit) (now : Moment) :
    (b.enter c now).circuit = c := rfl

@[simp] theorem enter_lastChange (b : Breaker) (c : Circuit) (now : Moment) :
    (b.enter c now).lastChange = now := rfl

@[simp] theorem enter_settings (b : Breaker) (c : Circuit) (now : Moment) :
    (b.enter c now).settings = b.settings := rfl

@[simp] theorem enter_service (b : Breaker) (c : Circuit) (now : Moment) :
    (b.enter c now).service = b.service := rfl

@[simp] theorem enter_failures (b : Breaker) (c : Circuit) (now : Moment) :
    (b.enter c now).failures = b.failures := rfl

theorem refuses_iff (b : Breaker) (now : Moment) :
    b.refuses now = true ↔
      b.circuit = .opened ∧ elapsed now b.lastChange < b.settings.openTimeout := by
  unfold refuses tryAcquire isDue
  cases hc : b.circuit with
  | closed => simp
  | halfOpen => simp
  | opened =>
    by_cases hd : b.settings.openTimeout ≤ elapsed now b.lastChange
    · simp [hd, Nat.not_lt.mpr hd]
    · simp [hd, Nat.lt_of_not_le hd]

theorem tryAcquire_of_refuses {b : Breaker} {now : Moment} (h : b.refuses now = true) :
    b.tryAcquire now = (false, b, []) := by
  obtain ⟨hc, hd⟩ := (refuses_iff b now).1 h
  simp [tryAcquire, isDue, hc, Nat.not_le.mpr hd]

theorem tryAcquire_of_opened {b : Breaker} {now : Moment} (hc : b.circuit = .opened)
    (h : b.refuses now = false) :
    b.tryAcquire now =
      (true, b.enter .halfOpen now, [.notice .circuitHalfOpened, (b.enter .halfOpen now).gauge]) := by
  have hd : b.settings.openTimeout ≤ elapsed now b.lastChange := by
    by_contra hlt
    rw [(refuses_iff b now).2 ⟨hc, Nat.lt_of_not_le hlt⟩] at h
    cases h
  simp [tryAcquire, isDue, hc, hd]

theorem tryAcquire_of_not_opened {b : Breaker} (hc : b.circuit ≠ .opened) (now : Moment) :
    b.tryAcquire now = (true, b, []) := by
  unfold tryAcquire
  split
  · contradiction
  · rfl

theorem recordSuccess_of_closed {b : Breaker} (hc : b.circuit = .closed) (now : Moment) :
    b.recordSuccess now = ({ b with failures := b.failures / 2 }, []) := by
  simp [recordSuccess, hc]

theorem recordSuccess_of_halfOpen {b : Breaker} (hc : b.circuit = .halfOpen) (now : Moment) :
    (b.recordSuccess now).1 = { b with failures := 0 }.enter .closed now := by
  simp [recordSuccess, hc]

/-- A success that comes while the circuit is open changes nothing. -/
theorem recordSuccess_of_opened {b : Breaker} (hc : b.circuit = .opened) (now : Moment) :
    b.recordSuccess now = (b, []) := by
  simp [recordSuccess, hc]

/-- The breaker with one more failure counted. -/
def counted (b : Breaker) (now : Moment) : Breaker :=
  { b with failures := min (b.failures + 1) maxCount, lastFailure := some now }

theorem recordFailure_of_opens {b : Breaker} {now : Moment}
    (h : b.opens (b.counted now).failures = true) :
    (b.recordFailure now).1 = (b.counted now).enter .opened now := by
  unfold counted at h
  simp only [recordFailure, h, if_true, counted]

theorem recordFailure_of_not_opens {b : Breaker} {now : Moment}
    (h : b.opens (b.counted now).failures = false) :
    b.recordFailure now = (b.counted now, []) := by
  unfold counted at h
  simp only [recordFailure, h, Bool.false_eq_true, if_false, counted]

theorem opens_iff (b : Breaker) (failures : Nat) :
    b.opens failures = true ↔
      b.circuit = .closed ∧ b.settings.maxFailures ≤ failures ∨ b.circuit = .halfOpen := by
  unfold opens
  cases b.circuit <;> simp

/-- What an action may do: the circuit and the moment of its last transition stay, or there is a
transition now. -/
theorem act_cases (now : Moment) (b : Breaker) (a : Action) :
    (b.act now a).service = b.service ∧ (b.act now a).settings = b.settings ∧
      ((b.act now a).circuit = b.circuit ∧ (b.act now a).lastChange = b.lastChange ∨
        (b.act now a).lastChange = now) := by
  cases a with
  | tryAcquire =>
    rw [act]
    cases hr : b.refuses now with
    | true => simp [tryAcquire_of_refuses hr]
    | false =>
      by_cases hc : b.circuit = .opened
      · simp [tryAcquire_of_opened hc hr]
      · simp [tryAcquire_of_not_opened hc]
  | succeed =>
    rw [act]
    cases hc : b.circuit with
    | closed => simp [recordSuccess_of_closed hc, hc]
    | opened => simp [recordSuccess_of_opened hc, hc]
    | halfOpen => simp [recordSuccess_of_halfOpen hc]
  | fail =>
    rw [act]
    cases ho : b.opens (b.counted now).failures with
    | true => simp [recordFailure_of_opens ho, counted]
    | false => simp [recordFailure_of_not_opens ho, counted]
  | reset => simp [act, reset]

/-! ## Runs -/

theorem settings_run (s : Instant Breaker) (moves : List (Move Action)) :
    (s.run act moves).state.settings = s.state.settings :=
  Instant.history_induction act (P := fun _ _ b => b.settings = s.state.settings) s rfl
    (fun _ _ _ _ h => h) (fun _ now b a h => (act_cases now b a).2.1.trans h) moves

theorem run_settings (service : String) (settings : Settings) (start : Moment)
    (moves : List (Move Action)) :
    (run service settings start moves).state.settings = settings :=
  settings_run ⟨start, new service settings start⟩ moves

theorem run_lastChange_le (service : String) (settings : Settings) (start : Moment)
    (moves : List (Move Action)) :
    (run service settings start moves).state.lastChange ≤ (run service settings start moves).now := by
  refine Instant.history_induction act (P := fun _ now b => b.lastChange ≤ now) _ (Nat.le_refl start)
    (fun _ _ _ span h => Nat.le_trans h (Nat.le_add_right _ span)) ?_ moves
  intro _ now b a h
  rcases (act_cases now b a).2.2 with ⟨-, he⟩ | he
  · exact Nat.le_trans (Nat.le_of_eq he) h
  · exact Nat.le_of_eq he

end Gatehouse.Breaker
