import Gatehouse.Proofs.Breaker.Coherence

/-!
# Failures that come in short rows

A success while the circuit is closed halves the count of failures. As long as no more than `k`
failures come in a row, a success takes off as many as a row can add, and the count stays below
`2 * k` for however long that goes on. Rows of `k` failures do bring it to `2 * k - 1` in the end.

* `Isolated` : no more than `k` failures come in a row;
* `Decaying` : a closed circuit whose count is owed to the last row, but for `k - 1` failures;
* `Decaying.move`, `Isolated.decaying_run` : what a move keeps, and what a run keeps;
* `bursts` : the run that brings the count as high as it can get;
* `decayLaw` : which maximum is never reached, and which one is.
-/

namespace Gatehouse.Breaker

/-! ## Rows of failures -/

/-- No more than `k` failures come without a success among them. -/
def Isolated (k : Nat) (moves : List (Move Action)) : Prop :=
  ∀ row, row <:+: moves → .act .succeed ∉ row → row.count (.act .fail) ≤ k

theorem Isolated.of_infix {k : Nat} {moves part : List (Move Action)} (h : Isolated k moves)
    (hpart : part <:+: moves) : Isolated k part :=
  fun row hrow => h row (hrow.trans hpart)

/-- A part of a list without `x` lies on one side of every `x` in the list. -/
theorem infix_or_infix_of_not_mem {τ : Type} {l₁ l₂ row : List τ} {x : τ} (hx : x ∉ row)
    (h : row <:+: l₁ ++ x :: l₂) : row <:+: l₁ ∨ row <:+: l₂ := by
  obtain ⟨before, after, h⟩ := h
  rcases List.append_eq_append_iff.mp h with ⟨rest, rfl, -⟩ | ⟨rest, hleft, hright⟩
  · exact .inl ⟨before, rest, rfl⟩
  · rcases List.cons_eq_append_iff.mp hright with ⟨rfl, -⟩ | ⟨rest, rfl, rfl⟩
    · exact .inl (hleft.trans (List.append_nil l₁) ▸ (List.suffix_append before row).isInfix)
    · -- `x` is in `before`, because it is not in `row`
      rcases List.append_eq_append_iff.mp hleft with ⟨rest', -, rfl⟩ | ⟨rest', -, hrow⟩
      · exact absurd (List.mem_append_right rest' List.mem_cons_self) hx
      · rcases List.cons_eq_append_iff.mp hrow with ⟨-, rfl⟩ | ⟨rest', -, rfl⟩
        · exact absurd List.mem_cons_self hx
        · exact .inr ⟨rest', after, rfl⟩

/-- A success parts the failures before it from those after it. -/
theorem Isolated.append {k : Nat} {before after : List (Move Action)} (hb : Isolated k before)
    (ha : Isolated k after) : Isolated k (before ++ .act .succeed :: after) := by
  intro row hrow hs
  rcases infix_or_infix_of_not_mem hs hrow with hrow | hrow
  · exact hb row hrow hs
  · exact ha row hrow hs

/-! ## What decays -/

/-- The circuit is closed, and the count is at most `k - 1` more than the last row has brought. -/
structure Decaying (k : Nat) (moves : List (Move Action)) (b : Breaker) : Prop where
  circuit : b.circuit = .closed
  failures_le : ∃ row, row <:+ moves ∧ .act .succeed ∉ row ∧
    b.failures ≤ k - 1 + row.count (.act .fail)

section Run
variable {k : Nat} {moves : List (Move Action)}

theorem Decaying.failures_le_of_isolated {b : Breaker} (h : Decaying k moves b) (hk : 1 ≤ k)
    (hi : Isolated k moves) : b.failures ≤ 2 * k - 1 := by
  obtain ⟨row, hrow, hs, hle⟩ := h.failures_le
  have hcount := hi row hrow.isInfix hs
  omega

theorem opens_iff_of_closed {b : Breaker} (hc : b.circuit = .closed) (failures : Nat) :
    b.opens failures = true ↔ b.settings.maxFailures ≤ failures := by
  rw [opens_iff, hc]
  simp

/-- A closed circuit stays closed on a failure that does not bring the count to the maximum. -/
theorem act_fail_of_lt {b : Breaker} (hc : b.circuit = .closed)
    (hlt : b.failures + 1 < b.settings.maxFailures) (now : Moment) :
    b.act now .fail = b.counted now := by
  have ho : b.opens (b.counted now).failures = false := by
    rw [Bool.eq_false_iff, Ne, opens_iff_of_closed hc]
    have hle : (b.counted now).failures ≤ b.failures + 1 := Nat.min_le_left _ _
    omega
  rw [act, recordFailure_of_not_opens ho]

theorem opened_act_fail_iff {b : Breaker} (hc : b.circuit = .closed) (now : Moment) :
    (b.act now .fail).circuit = .opened ↔ b.settings.maxFailures ≤ (b.counted now).failures := by
  rw [← opens_iff_of_closed hc, act]
  cases ho : b.opens (b.counted now).failures with
  | true => simp [recordFailure_of_opens ho]
  | false => simp [recordFailure_of_not_opens ho, counted, hc]

/-- A move that is no success: if it is no failure either, the count does not go up. -/
theorem Decaying.concat {b b' : Breaker} {m : Move Action} (h : Decaying k moves b)
    (hm : m ≠ .act .succeed) (hc : b'.circuit = .closed)
    (hle : b'.failures ≤ b.failures + [m].count (.act .fail)) : Decaying k (moves ++ [m]) b' := by
  obtain ⟨row, ⟨before, rfl⟩, hs, hcount⟩ := h.failures_le
  refine ⟨hc, row ++ [m], ⟨before, (List.append_assoc ..).symm⟩, ?_, ?_⟩
  · rw [List.mem_append, List.mem_singleton, not_or]
    exact ⟨hs, hm.symm⟩
  · rw [List.count_append]
    omega

/-- One move. A success halves what `k - 1` failures and another `k` have made. -/
theorem Decaying.move {s : Instant Breaker} {m : Move Action} (h : Decaying k moves s.state)
    (hk : 1 ≤ k) (hmax : 2 * k ≤ s.state.settings.maxFailures) (hi : Isolated k (moves ++ [m])) :
    Decaying k (moves ++ [m]) (s.move act m).state := by
  have hle := h.failures_le_of_isolated hk (hi.of_infix (List.prefix_append moves [m]).isInfix)
  cases m with
  | wait span => exact h.concat nofun h.circuit (Nat.le_refl _)
  | act a =>
    rw [Instant.move]
    cases a with
    | tryAcquire =>
      rw [act, tryAcquire_of_not_opened (by simp [h.circuit])]
      exact h.concat (by simp) h.circuit (Nat.le_refl _)
    | succeed =>
      rw [act, recordSuccess_of_closed h.circuit]
      refine ⟨h.circuit, [], List.nil_suffix, List.not_mem_nil, ?_⟩
      show s.state.failures / 2 ≤ k - 1 + 0
      omega
    | fail =>
      -- with this failure the last row is still one of at most `k`, which leaves the maximum out
      have hnext : s.state.failures + 1 < s.state.settings.maxFailures := by
        obtain ⟨row, ⟨before, rfl⟩, hs, hcount⟩ := h.failures_le
        have hrow := hi (row ++ [.act .fail]) ⟨before, [], by simp⟩ (by simpa using hs)
        rw [List.count_append, List.count_singleton_self] at hrow
        omega
      rw [act_fail_of_lt h.circuit hnext]
      exact h.concat (by simp) h.circuit (Nat.min_le_left _ _)
    | reset => exact h.concat (by simp) rfl (Nat.zero_le _)

/-- A run in which no more than `k` failures come in a row leaves the circuit closed. -/
theorem Isolated.decaying_run {s : Instant Breaker} (hk : 1 ≤ k)
    (hc : s.state.circuit = .closed) (hzero : s.state.failures = 0)
    (hmax : 2 * k ≤ s.state.settings.maxFailures) (hi : Isolated k moves) :
    Decaying k moves (s.run act moves).state := by
  induction moves using List.reverseRecOn with
  | nil =>
    refine ⟨hc, [], List.nil_suffix, List.not_mem_nil, ?_⟩
    rw [Instant.run, List.foldl_nil, hzero]
    exact Nat.zero_le _
  | append_singleton moves m ih =>
    rw [Instant.run_append]
    refine (ih (hi.of_infix (List.prefix_append moves [m]).isInfix)).move hk ?_ hi
    rw [settings_run]
    exact hmax

end Run

/-! ## How high the count can get -/

/-- `n` failures in a row. -/
def failureRow (n : Nat) : List (Move Action) := .replicate n (.act .fail)

/-- Rows of failures, each a failure longer than the one before it and with a success behind it.
Every row leaves one more failure in the count. -/
def climb : Nat → List (Move Action)
  | 0 => []
  | n + 1 => climb n ++ (failureRow (n + 2) ++ [.act .succeed])

/-- The rows that leave `k - 1` failures behind, and a row of `k` failures. -/
def bursts (k : Nat) : List (Move Action) := climb (k - 1) ++ failureRow k

theorem isolated_failureRow {k n : Nat} (h : n ≤ k) : Isolated k (failureRow n) := by
  intro row hrow _
  calc row.count (.act .fail) ≤ row.length := List.count_le_length
    _ ≤ (failureRow n).length := hrow.length_le
    _ = n := List.length_replicate
    _ ≤ k := h

theorem isolated_climb_append {k n : Nat} (hn : n ≤ k - 1) {after : List (Move Action)}
    (h : Isolated k after) : Isolated k (climb n ++ after) := by
  induction n generalizing after with
  | zero => exact h
  | succ n ih =>
    rw [climb, List.append_assoc, List.append_assoc]
    exact ih (by omega) ((isolated_failureRow (by omega)).append h)

theorem isolated_bursts (k : Nat) : Isolated k (bursts k) :=
  isolated_climb_append (Nat.le_refl _) (isolated_failureRow (Nat.le_refl _))

theorem mem_failureRow {n : Nat} {m : Move Action} (h : m ∈ failureRow n) : m = .act .fail :=
  List.eq_of_mem_replicate h

theorem mem_climb {n : Nat} {m : Move Action} (h : m ∈ climb n) :
    m = .act .succeed ∨ m = .act .fail := by
  induction n with
  | zero => cases h
  | succ n ih =>
    rw [climb, List.mem_append, List.mem_append, List.mem_singleton] at h
    rcases h with h | h | h
    · exact ih h
    · exact .inr (mem_failureRow h)
    · exact .inl h

theorem mem_bursts {k : Nat} {m : Move Action} (h : m ∈ bursts k) :
    m = .act .succeed ∨ m = .act .fail := by
  rcases List.mem_append.mp h with h | h
  · exact mem_climb h
  · exact .inr (mem_failureRow h)

section Count
variable {s : Instant Breaker}

/-- A row of failures that stays below the maximum is counted in full. -/
theorem run_failureRow (hmax : s.state.settings.maxFailures ≤ maxCount)
    (hc : s.state.circuit = .closed) (n : Nat)
    (hlt : s.state.failures + n < s.state.settings.maxFailures) :
    (s.run act (failureRow n)).state.circuit = .closed ∧
      (s.run act (failureRow n)).state.failures = s.state.failures + n := by
  induction n with
  | zero => exact ⟨hc, rfl⟩
  | succ n ih =>
    obtain ⟨hclosed, hcount⟩ := ih (by omega)
    have hnext : (s.run act (failureRow n)).state.failures + 1 <
        (s.run act (failureRow n)).state.settings.maxFailures := by
      rw [settings_run s (failureRow n), hcount]
      omega
    rw [failureRow, List.replicate_succ', ← failureRow, Instant.run_append, Instant.run_cons,
      Instant.move, act_fail_of_lt hclosed hnext]
    refine ⟨hclosed, ?_⟩
    show min ((s.run act (failureRow n)).state.failures + 1) maxCount = s.state.failures + (n + 1)
    rw [hcount]
    omega

theorem run_climb (hmax : s.state.settings.maxFailures ≤ maxCount)
    (hc : s.state.circuit = .closed) (hzero : s.state.failures = 0) (n : Nat)
    (hlt : 2 * n < s.state.settings.maxFailures) :
    (s.run act (climb n)).state.circuit = .closed ∧ (s.run act (climb n)).state.failures = n := by
  induction n with
  | zero => exact ⟨hc, hzero⟩
  | succ n ih =>
    obtain ⟨hclosed, hcount⟩ := ih (by omega)
    have hset := settings_run s (climb n)
    obtain ⟨hclosed', hcount'⟩ := run_failureRow (s := s.run act (climb n)) (by rwa [hset]) hclosed
      (n + 2) (by rw [hset, hcount]; omega)
    rw [climb, Instant.run_append, Instant.run_append, Instant.run_cons, Instant.move, act,
      recordSuccess_of_closed hclosed']
    refine ⟨hclosed', ?_⟩
    show ((s.run act (climb n)).run act (failureRow (n + 2))).state.failures / 2 = n + 1
    rw [hcount', hcount]
    omega

/-- The last failure of the last row is the first that can open the circuit. -/
theorem run_bursts {k : Nat} (hk : 1 ≤ k) (hmax : s.state.settings.maxFailures ≤ maxCount)
    (hc : s.state.circuit = .closed) (hzero : s.state.failures = 0)
    (hle : 2 * k - 1 ≤ s.state.settings.maxFailures) :
    (s.run act (bursts k)).state.failures = 2 * k - 1 ∧
      ((s.run act (bursts k)).state.circuit = .opened ↔
        s.state.settings.maxFailures = 2 * k - 1) := by
  obtain ⟨n, rfl⟩ : ∃ n, k = n + 1 := ⟨k - 1, by omega⟩
  obtain ⟨hclosed, hcount⟩ := run_climb hmax hc hzero n (by omega)
  have hset := settings_run s (climb n)
  obtain ⟨hclosed', hcount'⟩ := run_failureRow (s := s.run act (climb n)) (by rwa [hset]) hclosed
    n (by rw [hset, hcount]; omega)
  have hset' := (settings_run (s.run act (climb n)) (failureRow n)).trans hset
  have hlast : s.run act (bursts (n + 1)) =
      ((s.run act (climb n)).run act (failureRow n)).move act (.act .fail) := by
    rw [bursts, failureRow, List.replicate_succ', ← failureRow, Nat.add_sub_cancel,
      Instant.run_append, Instant.run_append]
    rfl
  rw [hlast]
  generalize (s.run act (climb n)).run act (failureRow n) = t at hclosed' hcount' hset'
  rw [hcount] at hcount'
  refine ⟨?_, ?_⟩
  · rw [Instant.move, failures_fail, hcount']
    omega
  · rw [Instant.move, opened_act_fail_iff hclosed', hset']
    show _ ≤ min (t.state.failures + 1) maxCount ↔ _
    omega

end Count

/-! ## The law -/

/-- How failures that come in rows of at most `k` are forgotten, from the state `s` on. -/
structure DecayLaw (k : Nat) (s : Instant Breaker) : Prop where
  /-- With a maximum of `2 * k` the circuit stays closed at every moment of such a run. -/
  kept : 2 * k ≤ s.state.settings.maxFailures → ∀ moves, Isolated k moves → ∀ done, done <+: moves →
    (s.run act done).state.circuit = .closed ∧ (s.run act done).state.failures ≤ 2 * k - 1 ∧
      (done.getLast? = some (.act .succeed) → (s.run act done).state.failures ≤ k - 1)
  /-- Some run of results brings the count to `2 * k - 1`, which opens the circuit if that is the
  maximum. -/
  reached : 2 * k - 1 ≤ s.state.settings.maxFailures →
    s.state.settings.maxFailures < UInt32.size → ∃ moves,
      (∀ m ∈ moves, m = .act .succeed ∨ m = .act .fail) ∧ Isolated k moves ∧
        (s.run act moves).state.failures = 2 * k - 1 ∧
          ((s.run act moves).state.circuit = .opened ↔ s.state.settings.maxFailures = 2 * k - 1)

/-- **Failures that come in short rows are forgotten.** From any state with a closed circuit and no
failures, rows of at most `k` failures never open a circuit that allows for `2 * k`, and they do
open one that allows for `2 * k - 1`. -/
theorem decayLaw {k : Nat} (hk : 1 ≤ k) {s : Instant Breaker} (hc : s.state.circuit = .closed)
    (hzero : s.state.failures = 0) : DecayLaw k s where
  kept hmax moves hi done hdone := by
    have hi' : Isolated k done := hi.of_infix hdone.isInfix
    have hrun := hi'.decaying_run hk hc hzero hmax
    refine ⟨hrun.circuit, hrun.failures_le_of_isolated hk hi', fun hlast => ?_⟩
    obtain ⟨row, hrow, hs, hle⟩ := hrun.failures_le
    cases row using List.reverseRecOn with
    | nil => exact hle
    | append_singleton row m =>
      obtain ⟨before, rfl⟩ := hrow
      rw [← List.append_assoc, List.getLast?_concat] at hlast
      obtain rfl : m = .act .succeed := Option.some.inj hlast
      exact absurd (List.mem_append_right row (List.mem_singleton_self _)) hs
  reached hle hsize :=
    ⟨bursts k, fun _ => mem_bursts, isolated_bursts k,
      run_bursts hk (Nat.le_sub_one_of_lt hsize) hc hzero hle⟩

/-! A new breaker that allows for four failures, and pairs of failures. -/

def steady : Instant Breaker := ⟨0, new "a" ⟨4, Span.seconds 30, Span.seconds 10⟩ 0⟩

/-- The pairs leave the count at three and the circuit closed. -/
theorem decayLaw_pairs :
    1 ≤ 2 ∧ steady.state.circuit = .closed ∧ steady.state.failures = 0 ∧
      2 * 2 ≤ steady.state.settings.maxFailures ∧
      bursts 2 = [.act .fail, .act .fail, .act .succeed, .act .fail, .act .fail] ∧
      (steady.run act (bursts 2)).state.failures = 3 ∧
      (steady.run act (bursts 2)).state.circuit = .closed ∧ DecayLaw 2 steady := by
  refine ⟨by decide, rfl, rfl, by decide, by decide, by decide, by decide, ?_⟩
  exact decayLaw (by decide) rfl rfl

end Gatehouse.Breaker
