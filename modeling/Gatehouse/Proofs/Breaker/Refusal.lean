import Gatehouse.Proofs.Breaker.History

/-!
# When a breaker refuses

A breaker refuses exactly as long as its last opening is younger than the open timeout and nothing
has lifted it. The breaker itself keeps a state and a moment only; here the answer is read off the
history.

* `Opens`, `Lifts` : the actions that begin and end a refusal;
* `OpenedAt` : an opening that nothing has lifted since;
* `opened_iff_openedAt` : the state and the moment that a breaker keeps are those of that opening;
* `RefusalLaw` : when a breaker refuses, and for how long.
-/

namespace Gatehouse.Breaker

/-- A failure that opens the circuit: it comes while the circuit is closed and brings the count to
the maximum, or it comes while the circuit is half-open. -/
def Opens (o : Occurrence Breaker Action) : Prop :=
  o.action = .fail ∧
    (o.before.circuit = .closed ∧ o.before.settings.maxFailures ≤ o.after.failures ∨
      o.before.circuit = .halfOpen)

/-- A reset, or a check that is granted. -/
def Lifts (o : Occurrence Breaker Action) : Prop :=
  o.action = .reset ∨ o.action = .tryAcquire ∧ o.before.refuses o.moment = false

/-- The circuit was opened at `opening`, and nothing has lifted that since. -/
def OpenedAt (history : List (Occurrence Breaker Action)) (opening : Moment) : Prop :=
  ∃ earlier o later, history = earlier ++ o :: later ∧ Opens o ∧ o.moment = opening ∧
    ∀ p ∈ later, ¬ Lifts p

/-- A result that is told, or time that passes. -/
def IsLate : Move Action → Prop
  | .wait _ => True
  | .act a => a = .succeed ∨ a = .fail

/-! ## The opening behind an open circuit -/

theorem not_openedAt_nil (opening : Moment) : ¬ OpenedAt [] opening := by
  rintro ⟨earlier, o, later, h, -⟩
  simp at h

theorem openedAt_concat (history : List (Occurrence Breaker Action))
    (o : Occurrence Breaker Action) (opening : Moment) :
    OpenedAt (history ++ [o]) opening ↔
      Opens o ∧ o.moment = opening ∨ OpenedAt history opening ∧ ¬ Lifts o := by
  constructor
  · rintro ⟨earlier, p, later, h, hp, hm, hl⟩
    rcases split_concat h with ⟨rfl, rfl, rfl⟩ | ⟨later, rfl, hh⟩
    · exact .inl ⟨hp, hm⟩
    · exact .inr ⟨⟨earlier, p, later, hh, hp, hm, fun r hr => hl r (by simp [hr])⟩, hl o (by simp)⟩
  · rintro (⟨ho, hm⟩ | ⟨⟨earlier, p, later, rfl, hp, hm, hl⟩, ho⟩)
    · exact ⟨history, o, [], rfl, ho, hm, by simp⟩
    · refine ⟨earlier, p, later ++ [o], by simp, hp, hm, fun r hr => ?_⟩
      rcases List.mem_append.mp hr with hr | hr
      · exact hl r hr
      · rwa [List.mem_singleton.mp hr]

/-- One action: the circuit is open afterwards because the action opened it, or because it was open
before and the action did not lift that. -/
theorem opened_act_iff (now : Moment) (b : Breaker) (a : Action) (opening : Moment) :
    (b.act now a).circuit = .opened ∧ (b.act now a).lastChange = opening ↔
      Opens ⟨now, a, b, b.act now a⟩ ∧ now = opening ∨
        (b.circuit = .opened ∧ b.lastChange = opening) ∧ ¬ Lifts ⟨now, a, b, b.act now a⟩ := by
  cases a with
  | tryAcquire =>
    cases hr : b.refuses now with
    | true => simp [act, tryAcquire_of_refuses hr, Opens, Lifts, hr]
    | false =>
      by_cases hc : b.circuit = .opened
      · simp [act, tryAcquire_of_opened hc hr, Opens, Lifts, hr]
      · simp [act, tryAcquire_of_not_opened hc, Opens, Lifts, hc]
  | succeed =>
    cases hc : b.circuit with
    | closed => simp [act, recordSuccess_of_closed hc, Opens, hc]
    | opened => simp [act, recordSuccess_of_opened hc, Opens, Lifts, hc]
    | halfOpen => simp [act, recordSuccess_of_halfOpen hc, Opens]
  | fail =>
    cases ho : b.opens (b.counted now).failures with
    | true =>
      have hb := (opens_iff b _).1 ho
      have hn : b.circuit ≠ .opened := by
        rcases hb with ⟨h, -⟩ | h <;> simp [h]
      simp [act, recordFailure_of_opens ho, Opens, hb, hn]
    | false =>
      have hno : ¬ Opens ⟨now, .fail, b, (b.recordFailure now).1⟩ := by
        rw [recordFailure_of_not_opens ho]
        exact fun h => Bool.false_ne_true (ho.symm.trans ((opens_iff b _).2 h.2))
      rw [act, or_iff_right fun h => hno h.1]
      simp [recordFailure_of_not_opens ho, Lifts, counted]
  | reset => simp [act, reset, Opens, Lifts]

/-- **The circuit is open, and has been since `opening`, exactly when the history says so.** -/
theorem opened_iff_openedAt (service : String) (settings : Settings) (start : Moment)
    (moves : List (Move Action)) (opening : Moment) :
    (run service settings start moves).state.circuit = .opened ∧
        (run service settings start moves).state.lastChange = opening ↔
      OpenedAt (past service settings start moves) opening := by
  refine Instant.history_induction act
    (P := fun h _ b => b.circuit = .opened ∧ b.lastChange = opening ↔ OpenedAt h opening) _ ?_
    (fun _ _ _ _ h => h) ?_ moves
  · exact ⟨fun h => absurd h.1 (by simp [new]), fun h => absurd h (not_openedAt_nil opening)⟩
  · intro h now b a ih
    rw [opened_act_iff, openedAt_concat, ih]

/-! ## Refusals -/

theorem OpenedAt.le_now {service : String} {settings : Settings} {start : Moment}
    {moves : List (Move Action)} {opening : Moment}
    (h : OpenedAt (past service settings start moves) opening) :
    opening ≤ (run service settings start moves).now := by
  rw [← ((opened_iff_openedAt service settings start moves opening).2 h).2]
  exact run_lastChange_le service settings start moves

/-- A breaker after an opening refuses as long as the open timeout has not passed. -/
theorem OpenedAt.refuses_iff {service : String} {settings : Settings} {start : Moment}
    {moves : List (Move Action)} {opening : Moment}
    (h : OpenedAt (past service settings start moves) opening) (t : Moment) :
    (run service settings start moves).state.refuses t = true ↔
      elapsed t opening < settings.openTimeout := by
  obtain ⟨hc, hl⟩ := (opened_iff_openedAt service settings start moves opening).2 h
  rw [Breaker.refuses_iff, hl, run_settings]
  exact and_iff_right hc

/-- A breaker refuses exactly as long as an opening that nothing has lifted is younger than the open
timeout. -/
theorem refuses_iff_openedAt (service : String) (settings : Settings) (start : Moment)
    (moves : List (Move Action)) (t : Moment) :
    (run service settings start moves).state.refuses t = true ↔
      ∃ opening, OpenedAt (past service settings start moves) opening ∧
        elapsed t opening < settings.openTimeout := by
  constructor
  · intro hr
    have hc := ((refuses_iff _ t).1 hr).1
    have ho := (opened_iff_openedAt service settings start moves _).1 ⟨hc, rfl⟩
    exact ⟨_, ho, (ho.refuses_iff t).1 hr⟩
  · rintro ⟨opening, ho, ht⟩
    exact (ho.refuses_iff t).2 ht

theorem act_result_of_opened {b : Breaker} (hc : b.circuit = .opened) (now : Moment) {a : Action}
    (ha : a = .succeed ∨ a = .fail) :
    (b.act now a).circuit = .opened ∧ (b.act now a).lastChange = b.lastChange := by
  rcases ha with rfl | rfl
  · rw [act, recordSuccess_of_opened hc]
    exact ⟨hc, rfl⟩
  · have ho : b.opens (b.counted now).failures = false := by simp [opens, hc]
    rw [act, recordFailure_of_not_opens ho]
    exact ⟨hc, rfl⟩

/-- Late results and time leave an open circuit open, and its opening where it is. -/
theorem run_late_of_opened {s : Instant Breaker} (hc : s.state.circuit = .opened)
    {late : List (Move Action)} (hl : ∀ m ∈ late, IsLate m) :
    (s.run act late).state.circuit = .opened ∧
      (s.run act late).state.lastChange = s.state.lastChange ∧
      (s.run act late).state.settings = s.state.settings := by
  induction late generalizing s with
  | nil => exact ⟨hc, rfl, rfl⟩
  | cons m late ih =>
    have hl' : ∀ m ∈ late, IsLate m := fun m hm => hl m (List.mem_cons_of_mem _ hm)
    cases m with
    | wait span => exact ih (s := s.move act (.wait span)) hc hl'
    | act a =>
      obtain ⟨hc', he⟩ := act_result_of_opened hc s.now (hl (.act a) List.mem_cons_self)
      obtain ⟨h1, h2, h3⟩ := ih (s := s.move act (.act a)) hc' hl'
      exact ⟨h1, h2.trans he, h3.trans (act_cases s.now s.state a).2.1⟩

/-- When the breaker that a run leads to refuses, and for how long. -/
structure RefusalLaw (s : Instant Breaker) (history : List (Occurrence Breaker Action)) : Prop where
  /-- It refuses exactly after an opening that nothing has lifted, for as long as the open timeout. -/
  refused_iff : s.state.refuses s.now = true ↔
    ∃ opening ≤ s.now, OpenedAt history opening ∧ s.now - opening < s.state.settings.openTimeout
  /-- Results that come while the circuit is open change no answer. -/
  late_results : s.state.circuit = .opened → ∀ late, (∀ m ∈ late, IsLate m) →
    ∀ t, (s.run act late).state.refuses t = s.state.refuses t
  /-- From every opening on it refuses for the whole open timeout. -/
  full_window : Opens ⟨s.now, .fail, s.state, s.state.act s.now .fail⟩ →
    ∀ t, (s.state.act s.now .fail).refuses t = true ↔ t - s.now < s.state.settings.openTimeout
  /-- The first check after that is granted and half-opens the circuit. -/
  first_check : ∀ opening, OpenedAt history opening →
    opening + s.state.settings.openTimeout ≤ s.now →
      s.state.refuses s.now = false ∧ (s.state.act s.now .tryAcquire).circuit = .halfOpen
  /-- It does not refuse for ever. -/
  not_for_ever : ∀ t, s.now + s.state.settings.openTimeout ≤ t → s.state.refuses t = false

/-- **Every breaker obeys the law of refusals, whatever was done with it before.** -/
theorem refusalLaw (service : String) (settings : Settings) (start : Moment)
    (moves : List (Move Action)) :
    RefusalLaw (run service settings start moves) (past service settings start moves) where
  refused_iff := by
    rw [refuses_iff_openedAt, run_settings]
    constructor
    · rintro ⟨opening, ho, ht⟩
      exact ⟨opening, ho.le_now, ho, ht⟩
    · rintro ⟨opening, -, ho, ht⟩
      exact ⟨opening, ho, ht⟩
  late_results hc late hl t := by
    obtain ⟨h1, h2, h3⟩ := run_late_of_opened hc hl
    rw [Bool.eq_iff_iff, refuses_iff, refuses_iff, h1, h2, h3, hc]
  full_window ho t := by
    obtain ⟨hc, hl⟩ := (opened_act_iff _ _ _ _).2 (.inl ⟨ho, rfl⟩)
    rw [refuses_iff, hl, (act_cases _ _ _).2.1]
    exact and_iff_right hc
  first_check opening ho ht := by
    have hr : (run service settings start moves).state.refuses
        (run service settings start moves).now = false := by
      rw [run_settings] at ht
      rw [Bool.eq_false_iff, Ne, ho.refuses_iff]
      exact Nat.not_lt.mpr (le_elapsed ht)
    have hc := ((opened_iff_openedAt service settings start moves opening).2 ho).1
    exact ⟨hr, by rw [act, tryAcquire_of_opened hc hr]; rfl⟩
  not_for_ever t ht := by
    rw [Bool.eq_false_iff, Ne, refuses_iff]
    have hl := run_lastChange_le service settings start moves
    exact fun h => Nat.not_le.mpr h.2 (le_elapsed (Nat.le_trans (Nat.add_le_add_right hl _) ht))

end Gatehouse.Breaker
