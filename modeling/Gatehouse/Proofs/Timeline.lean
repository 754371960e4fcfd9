import Gatehouse.Clock
import Mathlib.Data.List.Induction

/-!
# Timelines

Something with a state is acted on now and then, and the clock moves in between. What an action does
depends on the state and on the moment.

* `Move` : the clock moves, or an action is done;
* `Instant.run` : the state that some moves lead to, and its moment;
* `Instant.history` : the actions on the way, each with its moment and the states around it;
* `split_split` : two places in a list; `split_concat` : places in a history that goes on;
* `history_append`, `now_le_run` : histories of runs one after the other; time goes forward;
* `history_induction` : what a run keeps, from what a move keeps;
* `exists_run_of_history` : what came before an action is the history of a run that leads to it;
* `moment_le_of_history` : the actions of a history are in the order of their moments.
-/

namespace Gatehouse

/-- The clock moves, or something is done. -/
inductive Move (α : Type) where
  | wait (span : Span)
  | act (action : α)
  deriving DecidableEq, Repr

/-- The state of something at a moment. -/
structure Instant (σ : Type) where
  now : Moment
  state : σ
  deriving DecidableEq, Repr

/-- An action as it happened: its moment, and the states before and after it. -/
structure Occurrence (σ α : Type) where
  moment : Moment
  action : α
  before : σ
  after : σ
  deriving DecidableEq, Repr

/-- Of two places in a list the one is the other, or comes before it, or after it. -/
theorem split_split {τ : Type} {l₁ l₂ r₁ r₂ : List τ} {x y : τ}
    (h : l₁ ++ x :: r₁ = l₂ ++ y :: r₂) :
    (l₁ = l₂ ∧ x = y ∧ r₁ = r₂) ∨ (∃ between, l₂ = l₁ ++ x :: between ∧ r₁ = between ++ y :: r₂) ∨
      ∃ between, l₁ = l₂ ++ y :: between ∧ r₂ = between ++ x :: r₁ := by
  rcases List.append_eq_append_iff.mp h with ⟨between, rfl, hrest⟩ | ⟨between, rfl, hrest⟩
  · rcases List.cons_eq_append_iff.mp hrest with ⟨rfl, heq⟩ | ⟨between, rfl, rfl⟩
    · obtain ⟨rfl, rfl⟩ := List.cons.inj heq
      exact .inl ⟨(List.append_nil _).symm, rfl, rfl⟩
    · exact .inr (.inl ⟨between, rfl, rfl⟩)
  · rcases List.cons_eq_append_iff.mp hrest with ⟨rfl, heq⟩ | ⟨between, rfl, rfl⟩
    · obtain ⟨rfl, rfl⟩ := List.cons.inj heq
      exact .inl ⟨List.append_nil _, rfl, rfl⟩
    · exact .inr (.inr ⟨between, rfl, rfl⟩)

/-- A place in a list with one more element at its end is the end, or a place in the list. -/
theorem split_concat {τ : Type} {l earlier rest : List τ} {x o : τ}
    (h : l ++ [x] = earlier ++ o :: rest) :
    rest = [] ∧ earlier = l ∧ o = x ∨ ∃ before, rest = before ++ [x] ∧ l = earlier ++ o :: before := by
  rcases split_split h with ⟨rfl, rfl, rfl⟩ | ⟨before, -, hnil⟩ | ⟨before, rfl, rfl⟩
  · exact .inl ⟨rfl, rfl, rfl⟩
  · exact absurd hnil.symm (List.append_ne_nil_of_right_ne_nil before (List.cons_ne_nil o rest))
  · exact .inr ⟨before, rfl, rfl⟩

namespace Instant

variable {σ α : Type} (step : Moment → σ → α → σ)

def move (s : Instant σ) : Move α → Instant σ
  | .wait span => ⟨s.now + span, s.state⟩
  | .act a => ⟨s.now, step s.now s.state a⟩

def run (s : Instant σ) (moves : List (Move α)) : Instant σ := moves.foldl (move step) s

/-- The actions among some moves as they happened. -/
def history (s : Instant σ) : List (Move α) → List (Occurrence σ α)
  | [] => []
  | .wait span :: moves => history (s.move step (.wait span)) moves
  | .act a :: moves =>
    ⟨s.now, a, s.state, step s.now s.state a⟩ :: history (s.move step (.act a)) moves

@[simp] theorem run_cons (s : Instant σ) (m : Move α) (moves : List (Move α)) :
    s.run step (m :: moves) = (s.move step m).run step moves := rfl

theorem run_append (s : Instant σ) (past later : List (Move α)) :
    s.run step (past ++ later) = (s.run step past).run step later :=
  List.foldl_append

@[simp] theorem history_nil (s : Instant σ) : s.history step [] = [] := rfl

@[simp] theorem history_wait (s : Instant σ) (span : Span) (moves : List (Move α)) :
    s.history step (.wait span :: moves) = (s.move step (.wait span)).history step moves := rfl

theorem history_append (s : Instant σ) (past later : List (Move α)) :
    s.history step (past ++ later) = s.history step past ++ (s.run step past).history step later := by
  induction past generalizing s with
  | nil => rfl
  | cons m past ih =>
    cases m with
    | wait span => exact ih _
    | act a => exact congrArg (_ :: ·) (ih _)

/-- What an action leads to depends on nothing but its moment and the state before it. -/
theorem after_of_mem_history {s : Instant σ} {moves : List (Move α)} {o : Occurrence σ α}
    (h : o ∈ s.history step moves) : o.after = step o.moment o.before o.action := by
  induction moves generalizing s with
  | nil => cases h
  | cons m moves ih =>
    cases m with
    | wait span => exact ih h
    | act a =>
      rcases List.mem_cons.mp h with rfl | h
      · rfl
      · exact ih h

theorem now_le_move (s : Instant σ) (m : Move α) : s.now ≤ (s.move step m).now := by
  cases m with
  | wait span => exact Nat.le_add_right _ _
  | act a => exact Nat.le_refl _

theorem now_le_run (s : Instant σ) (moves : List (Move α)) : s.now ≤ (s.run step moves).now := by
  induction moves generalizing s with
  | nil => exact Nat.le_refl _
  | cons m moves ih => exact Nat.le_trans (now_le_move step s m) (ih _)

/-- What holds at the start, and is kept by time and by every action, holds after every run. `P`
speaks of the history, the moment and the state. -/
theorem history_induction {P : List (Occurrence σ α) → Moment → σ → Prop} (s : Instant σ)
    (hstart : P [] s.now s.state) (hwait : ∀ h now t span, P h now t → P h (now + span) t)
    (hact : ∀ h now t a, P h now t → P (h ++ [⟨now, a, t, step now t a⟩]) now (step now t a))
    (moves : List (Move α)) :
    P (s.history step moves) (s.run step moves).now (s.run step moves).state := by
  induction moves using List.reverseRecOn with
  | nil => exact hstart
  | append_singleton moves m ih =>
    rw [history_append, run_append]
    cases m with
    | wait span =>
      rw [history_wait, history_nil, List.append_nil]
      exact hwait _ _ _ span ih
    | act a => exact hact _ _ _ a ih

/-- What came before an action is the history of a run that leads to it. -/
theorem exists_run_of_history {s : Instant σ} {moves : List (Move α)}
    {earlier rest : List (Occurrence σ α)} {o : Occurrence σ α}
    (h : s.history step moves = earlier ++ o :: rest) :
    ∃ done, s.history step done = earlier ∧ s.run step done = ⟨o.moment, o.before⟩ := by
  induction moves generalizing s earlier with
  | nil => exact absurd h (by simp)
  | cons m moves ih =>
    cases m with
    | wait span =>
      obtain ⟨done, hearlier, hrun⟩ := ih h
      exact ⟨.wait span :: done, hearlier, hrun⟩
    | act a =>
      cases earlier with
      | nil =>
        obtain ⟨rfl, -⟩ := List.cons.inj h
        exact ⟨[], rfl, rfl⟩
      | cons first earlier =>
        obtain ⟨rfl, hrest⟩ := List.cons.inj h
        obtain ⟨done, rfl, hrun⟩ := ih hrest
        exact ⟨.act a :: done, rfl, hrun⟩

theorem moment_le_now (s : Instant σ) (moves : List (Move α)) :
    ∀ o ∈ s.history step moves, o.moment ≤ (s.run step moves).now := by
  refine history_induction step (P := fun h now _ => ∀ o ∈ h, o.moment ≤ now) s ?_ ?_ ?_ moves
  · simp
  · intro h now t span ih o ho
    exact Nat.le_trans (ih o ho) (Nat.le_add_right _ _)
  · intro h now t a ih o ho
    rcases List.mem_append.mp ho with ho | ho
    · exact ih o ho
    · obtain rfl := List.mem_singleton.mp ho
      exact Nat.le_refl now

/-- Actions happen in order. -/
theorem moment_le_of_history {s : Instant σ} {moves : List (Move α)}
    {earlier rest : List (Occurrence σ α)} {o : Occurrence σ α}
    (h : s.history step moves = earlier ++ o :: rest) : ∀ q ∈ earlier, q.moment ≤ o.moment := by
  obtain ⟨done, rfl, hrun⟩ := exists_run_of_history step h
  intro q hq
  have hle := moment_le_now step s done q hq
  rwa [hrun] at hle

end Instant

end Gatehouse
