import Gatehouse.Proofs.Breaker.Refusal

/-!
# How the fields of a breaker fit together

A breaker keeps a state, a count and two moments. Each of its operations changes them by a rule of
its own: a failure adds one, a success halves the count or clears it, a reset clears it, a check
leaves it. After every run the fields still fit together.

* `openings` : the moments at which the circuit was opened;
* `Coherent` : how the state, the count and the moments fit together;
* `Coherent.tryAcquire`, `Coherent.succeed`, `Coherent.fail`, `Coherent.reset` : what each operation
  keeps;
* `CountsOn` : the count goes up with every failure and stays within thirty-two bits;
* `coherent_run` : both hold after every run.
-/

namespace Gatehouse.Breaker

instance : DecidablePred Opens := fun o =>
  inferInstanceAs (Decidable (o.action = .fail ∧
    (o.before.circuit = .closed ∧ o.before.settings.maxFailures ≤ o.after.failures ∨
      o.before.circuit = .halfOpen)))

/-- The moments at which the circuit was opened, the latest one last. -/
def openings (history : List (Occurrence Breaker Action)) : List Moment :=
  (history.filter fun o => Opens o).map (·.moment)

theorem openings_concat (history : List (Occurrence Breaker Action))
    (o : Occurrence Breaker Action) :
    openings (history ++ [o]) = openings history ++ if Opens o then [o.moment] else [] := by
  unfold openings
  rw [List.filter_append, List.map_append]
  by_cases ho : Opens o
  · simp [ho]
  · simp [ho]

theorem openings_concat_of_ne_fail (history : List (Occurrence Breaker Action))
    {o : Occurrence Breaker Action} (ha : o.action ≠ .fail) :
    openings (history ++ [o]) = openings history := by
  have ho : ¬ Opens o := fun h => ha h.1
  rw [openings_concat, if_neg ho, List.append_nil]

theorem opens_fail_iff (now : Moment) (b : Breaker) :
    Opens ⟨now, .fail, b, b.act now .fail⟩ ↔ b.opens (b.counted now).failures = true := by
  have hcount : (b.recordFailure now).1.failures = (b.counted now).failures := by
    cases ho : b.opens (b.counted now).failures with
    | true => rw [recordFailure_of_opens ho, enter_failures]
    | false => rw [recordFailure_of_not_opens ho]
  rw [opens_iff, ← hcount]
  exact ⟨fun h => h.2, fun h => ⟨rfl, h⟩⟩

/-! ## The invariant -/

/-- How the fields of a breaker fit together at `now`, the circuit having been opened at
`openings`. -/
structure Coherent (openings : List Moment) (now : Moment) (b : Breaker) : Prop where
  /-- The count tells whether the circuit is closed. -/
  closed_iff : b.circuit = .closed ↔ b.failures < b.settings.maxFailures
  /-- A count above zero, or a circuit that is not closed, comes from a failure. -/
  failed : 0 < b.failures ∨ b.circuit ≠ .closed → b.lastFailure.isSome = true
  lastFailure_le : ∀ t ∈ b.lastFailure, t ≤ now
  lastChange_le : b.lastChange ≤ now
  /-- An open circuit has not changed since its latest opening, and there was a failure since. -/
  opened : b.circuit = .opened →
    openings.getLast? = some b.lastChange ∧ ∀ t ∈ b.lastFailure, b.lastChange ≤ t
  /-- A half-open circuit has had no failure since it changed, and its latest opening was at least
  the open timeout before that. -/
  halfOpen : b.circuit = .halfOpen →
    (∀ t ∈ b.lastFailure, t ≤ b.lastChange) ∧
      ∃ opening ∈ openings.getLast?, opening + b.settings.openTimeout ≤ b.lastChange
  failures_le : b.failures ≤ maxCount

namespace Coherent

variable {openings : List Moment} {now : Moment} {b : Breaker}

theorem new (service : String) {settings : Settings} (hpos : 1 ≤ settings.maxFailures)
    (start : Moment) : Coherent [] start (Breaker.new service settings start) where
  closed_iff := iff_of_true rfl hpos
  failed h := by simp [Breaker.new] at h
  lastFailure_le t ht := by simp [Breaker.new] at ht
  lastChange_le := Nat.le_refl start
  opened h := by simp [Breaker.new] at h
  halfOpen h := by simp [Breaker.new] at h
  failures_le := Nat.zero_le maxCount

theorem wait (h : Coherent openings now b) (span : Span) : Coherent openings (now + span) b :=
  { h with
    lastFailure_le := fun t ht => Nat.le_trans (h.lastFailure_le t ht) (Nat.le_add_right now span)
    lastChange_le := Nat.le_trans h.lastChange_le (Nat.le_add_right now span) }

theorem cleared (h : Coherent openings now b) (hpos : 1 ≤ b.settings.maxFailures) :
    Coherent openings now ({ b with failures := 0 }.enter .closed now) where
  closed_iff := iff_of_true rfl hpos
  failed h' := by simp at h'
  lastFailure_le := h.lastFailure_le
  lastChange_le := Nat.le_refl now
  opened h' := by simp at h'
  halfOpen h' := by simp at h'
  failures_le := Nat.zero_le maxCount

theorem tryAcquire (h : Coherent openings now b) :
    Coherent openings now (b.tryAcquire now).2.1 := by
  cases hr : b.refuses now with
  | true =>
    rw [tryAcquire_of_refuses hr]
    exact h
  | false =>
    by_cases hc : b.circuit = .opened
    · rw [tryAcquire_of_opened hc hr]
      obtain ⟨hlast, -⟩ := h.opened hc
      have hmany : ¬ b.failures < b.settings.maxFailures := by
        rw [← h.closed_iff, hc]
        simp
      have hwait : b.settings.openTimeout ≤ elapsed now b.lastChange := by
        by_contra hlt
        rw [(refuses_iff b now).2 ⟨hc, Nat.lt_of_not_le hlt⟩] at hr
        cases hr
      have hdue : b.lastChange + b.settings.openTimeout ≤ now :=
        Nat.add_le_of_le_sub' h.lastChange_le hwait
      exact {
        closed_iff := iff_of_false (by simp) hmany
        failed := fun _ => h.failed (.inr (by simp [hc]))
        lastFailure_le := h.lastFailure_le
        lastChange_le := Nat.le_refl now
        opened := fun h' => by simp at h'
        halfOpen := fun _ => ⟨h.lastFailure_le, b.lastChange, hlast, hdue⟩
        failures_le := h.failures_le }
    · rw [tryAcquire_of_not_opened hc]
      exact h

theorem succeed (h : Coherent openings now b) (hpos : 1 ≤ b.settings.maxFailures) :
    Coherent openings now (b.recordSuccess now).1 := by
  cases hc : b.circuit with
  | closed =>
    rw [recordSuccess_of_closed hc]
    have hfew : b.failures < b.settings.maxFailures := h.closed_iff.1 hc
    exact {
      closed_iff := iff_of_true hc (show b.failures / 2 < b.settings.maxFailures by omega)
      failed := by
        intro h'
        refine h.failed (h'.imp_left ?_)
        show 0 < b.failures / 2 → 0 < b.failures
        omega
      lastFailure_le := h.lastFailure_le
      lastChange_le := h.lastChange_le
      opened := h.opened
      halfOpen := h.halfOpen
      failures_le := by
        have hle := h.failures_le
        show b.failures / 2 ≤ maxCount
        omega }
  | opened =>
    rw [recordSuccess_of_opened hc]
    exact h
  | halfOpen =>
    rw [recordSuccess_of_halfOpen hc]
    exact h.cleared hpos

theorem fail_of_opens (h : Coherent openings now b)
    (hmax : b.settings.maxFailures ≤ maxCount) (ho : b.opens (b.counted now).failures = true) :
    Coherent (openings ++ [now]) now (b.recordFailure now).1 := by
  rw [recordFailure_of_opens ho]
  have hmany : b.settings.maxFailures ≤ min (b.failures + 1) maxCount := by
    rcases (opens_iff b _).1 ho with ⟨-, hmany⟩ | hc
    · exact hmany
    · have hno : ¬ b.failures < b.settings.maxFailures := by
        rw [← h.closed_iff, hc]
        simp
      omega
  exact {
    closed_iff := iff_of_false (by simp) (Nat.not_lt.mpr hmany)
    failed := fun _ => rfl
    lastFailure_le := by
      intro t ht
      obtain rfl : now = t := Option.some.inj ht
      exact Nat.le_refl now
    lastChange_le := Nat.le_refl now
    opened := by
      intro _
      refine ⟨List.getLast?_concat, fun t ht => ?_⟩
      obtain rfl : now = t := Option.some.inj ht
      exact Nat.le_refl now
    halfOpen := fun h' => by simp at h'
    failures_le := Nat.min_le_right _ _ }

/-- A failure that leaves the state as it is: the circuit is closed and stays below the maximum, or
it is open and stays above. -/
theorem fail_of_not_opens (h : Coherent openings now b)
    (hmax : b.settings.maxFailures ≤ maxCount) (ho : b.opens (b.counted now).failures = false) :
    Coherent openings now (b.recordFailure now).1 := by
  rw [recordFailure_of_not_opens ho]
  have hno : ¬ (b.circuit = .closed ∧ b.settings.maxFailures ≤ (b.counted now).failures ∨
      b.circuit = .halfOpen) := by
    rw [← opens_iff, ho]
    simp
  rw [not_or, not_and] at hno
  have hclosed : b.circuit = .closed ↔ min (b.failures + 1) maxCount < b.settings.maxFailures := by
    refine ⟨fun hc => Nat.lt_of_not_le (hno.1 hc), fun hlt => h.closed_iff.2 ?_⟩
    omega
  exact {
    closed_iff := hclosed
    failed := fun _ => rfl
    lastFailure_le := by
      intro t ht
      obtain rfl : now = t := Option.some.inj ht
      exact Nat.le_refl now
    lastChange_le := h.lastChange_le
    opened := by
      intro hc
      refine ⟨(h.opened hc).1, fun t ht => ?_⟩
      obtain rfl : now = t := Option.some.inj ht
      exact h.lastChange_le
    halfOpen := fun hc => absurd hc hno.2
    failures_le := Nat.min_le_right _ _ }

theorem act {history : List (Occurrence Breaker Action)}
    (h : Coherent (Breaker.openings history) now b) (hpos : 1 ≤ b.settings.maxFailures)
    (hmax : b.settings.maxFailures ≤ maxCount) (a : Action) :
    Coherent (Breaker.openings (history ++ [⟨now, a, b, b.act now a⟩])) now (b.act now a) := by
  cases a with
  -- only a failure can open the circuit, so the other actions leave the openings as they are
  | tryAcquire =>
    rw [openings_concat_of_ne_fail history (by simp)]
    exact h.tryAcquire
  | succeed =>
    rw [openings_concat_of_ne_fail history (by simp)]
    exact h.succeed hpos
  | fail =>
    rw [openings_concat, if_congr (opens_fail_iff now b) rfl rfl]
    cases ho : b.opens (b.counted now).failures with
    | true => exact h.fail_of_opens hmax ho
    | false =>
      rw [if_neg Bool.false_ne_true, List.append_nil]
      exact h.fail_of_not_opens hmax ho
  | reset =>
    rw [openings_concat_of_ne_fail history (by simp)]
    exact h.cleared hpos

end Coherent

/-! ## The count -/

/-- The count is a number of thirty-two bits, and one more failure does not take it round to zero. -/
structure CountsOn (now : Moment) (b : Breaker) : Prop where
  failures_lt : b.failures < UInt32.size
  /-- A failure never lowers the count. -/
  failures_le_fail : b.failures ≤ (b.act now .fail).failures
  /-- While the circuit is closed every failure counts in full, whatever the maximum. -/
  fail_of_closed : b.circuit = .closed → (b.act now .fail).failures = b.failures + 1
  /-- The count stays only where there is no greater number. -/
  fail_eq_iff : (b.act now .fail).failures = b.failures ↔ b.failures = UInt32.size - 1

theorem failures_fail (now : Moment) (b : Breaker) :
    (b.act now .fail).failures = min (b.failures + 1) maxCount := by
  rw [act]
  cases ho : b.opens (b.counted now).failures with
  | true => rw [recordFailure_of_opens ho, enter_failures, counted]
  | false => rw [recordFailure_of_not_opens ho, counted]

theorem Coherent.countsOn {openings : List Moment} {now : Moment} {b : Breaker}
    (h : Coherent openings now b) (hmax : b.settings.maxFailures ≤ maxCount) : CountsOn now b := by
  have hle : b.failures ≤ UInt32.size - 1 := h.failures_le
  have hsize : 0 < UInt32.size := by decide
  have hfail : (b.act now .fail).failures = min (b.failures + 1) (UInt32.size - 1) :=
    failures_fail now b
  refine ⟨by omega, by omega, fun hc => ?_, by omega⟩
  have hlt : b.failures < b.settings.maxFailures := h.closed_iff.1 hc
  have hmax' : b.settings.maxFailures ≤ UInt32.size - 1 := hmax
  omega

/-! ## Runs -/

/-- **The fields of a breaker fit together after every run**, and its count never wraps, for every
maximum of thirty-two bits that is not zero. -/
theorem coherent_run (service : String) (settings : Settings) (hpos : 1 ≤ settings.maxFailures)
    (hmax : settings.maxFailures < UInt32.size) (start : Moment) (moves : List (Move Action)) :
    Coherent (openings (past service settings start moves))
        (run service settings start moves).now (run service settings start moves).state ∧
      CountsOn (run service settings start moves).now (run service settings start moves).state := by
  have hmax' : settings.maxFailures ≤ maxCount := Nat.le_sub_one_of_lt hmax
  have h : Coherent (openings (past service settings start moves))
        (run service settings start moves).now (run service settings start moves).state ∧
      (run service settings start moves).state.settings = settings := by
    refine Instant.history_induction Breaker.act
      (P := fun h now b => Coherent (openings h) now b ∧ b.settings = settings)
      ⟨start, new service settings start⟩ ⟨Coherent.new service hpos start, rfl⟩ ?_ ?_ moves
    · rintro _ now b span ⟨h, hs⟩
      exact ⟨h.wait span, hs⟩
    · rintro _ now b a ⟨h, hs⟩
      subst hs
      exact ⟨h.act hpos hmax' a, (act_cases now b a).2.1⟩
  refine ⟨h.1, h.1.countsOn ?_⟩
  rw [h.2]
  exact hmax'

/-- Two failures, a third one that comes late, and a check once the open timeout has passed. -/
def lateFailure : List (Move Action) :=
  [.act .fail, .act .fail, .wait 1, .act .fail, .wait (Span.seconds 30), .act .tryAcquire]

/-- The second failure opens the circuit, the third one counts, and the check half-opens it. -/
theorem coherent_run_late_failure :
    1 ≤ 2 ∧ 2 < UInt32.size ∧
      (run "a" ⟨2, Span.seconds 30, Span.seconds 10⟩ 0 lateFailure).state =
        ⟨"a", ⟨2, Span.seconds 30, Span.seconds 10⟩, .halfOpen, 3, some 1, Span.seconds 30 + 1⟩ ∧
      openings (past "a" ⟨2, Span.seconds 30, Span.seconds 10⟩ 0 lateFailure) = [0] ∧
      Coherent (openings (past "a" ⟨2, Span.seconds 30, Span.seconds 10⟩ 0 lateFailure))
        (run "a" ⟨2, Span.seconds 30, Span.seconds 10⟩ 0 lateFailure).now
        (run "a" ⟨2, Span.seconds 30, Span.seconds 10⟩ 0 lateFailure).state := by
  refine ⟨by decide, by decide, by decide +kernel, by decide +kernel, ?_⟩
  exact (coherent_run "a" ⟨2, Span.seconds 30, Span.seconds 10⟩ (by decide) (by decide) 0
    lateFailure).1

end Gatehouse.Breaker
