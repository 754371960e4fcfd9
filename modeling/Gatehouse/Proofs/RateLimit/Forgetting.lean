import Gatehouse.Proofs.RateLimit.Room
import Gatehouse.Proofs.RateLimit.TokenLaw

/-!
# Forgetting clients without a trace

Where a bucket fills up within the idle timeout, a client that is forgotten had a full bucket, and it
comes back to a full one. So the limiter answers as one that forgets nobody, whenever it is swept.

* `schedule` : the attempts of a run and their moments, `replay` : the answers to them where nothing is
  swept;
* `SameRooms` : two limiters in which every client finds the same tokens; kept by time, by an attempt at
  both, and by a sweep of one;
* `answers_history` : the answers of a run are those of the replay of its schedule;
* `ForgettingLaw`, `forgettingLaw` : sweeps are not seen.
-/

namespace Gatehouse.Limiter

/-! ## Attempts and their answers -/

/-- The attempts of some moves that begin at a moment. -/
def schedule : Moment → List (Move Action) → List (Moment × String)
  | _, [] => []
  | now, .wait span :: moves => schedule (now + span) moves
  | now, .act (.attempt client) :: moves => (now, client) :: schedule now moves
  | now, .act .sweep :: moves => schedule now moves

def unswept (moves : List (Move Action)) : List (Move Action) := moves.filter (· ≠ .act .sweep)

/-- Who made an attempt, when, and whether it was admitted. -/
def answer? (o : Occurrence (Limiter Rat) Action) : Option (Moment × String × Bool) :=
  match o.action with
  | .attempt client => some (o.moment, client, (o.before.attempt client o.moment).1)
  | .sweep => none

def answers (history : List (Occurrence (Limiter Rat) Action)) : List (Moment × String × Bool) :=
  history.filterMap answer?

def replayed (l : Limiter Rat) (attempts : List (Moment × String)) : Limiter Rat :=
  attempts.foldl (fun l e => (l.attempt e.2 e.1).2) l

/-- The answers to some attempts at a limiter that is not swept. -/
def replay (l : Limiter Rat) : List (Moment × String) → List (Moment × String × Bool)
  | [] => []
  | (t, client) :: attempts =>
    (t, client, (l.attempt client t).1) :: replay (l.attempt client t).2 attempts

theorem schedule_unswept (now : Moment) (moves : List (Move Action)) :
    schedule now (unswept moves) = schedule now moves := by
  unfold unswept
  induction moves generalizing now with
  | nil => rfl
  | cons m moves ih =>
    rcases m with span | ⟨client⟩ | _
    · exact ih (now + span)
    · exact congrArg ((now, client) :: ·) (ih now)
    · exact ih now

theorem now_run_unswept {s s' : Instant (Limiter Rat)} (h : s'.now = s.now)
    (moves : List (Move Action)) : (s'.run act (unswept moves)).now = (s.run act moves).now := by
  unfold unswept
  induction moves generalizing s s' with
  | nil => exact h
  | cons m moves ih =>
    rcases m with span | ⟨client⟩ | _
    · exact ih (congrArg (· + span) h)
    · exact ih h
    · exact ih h

/-! ## The tokens that are found -/

section Room
variable {l : Limiter Rat} {client : String} {now : Moment}

theorem attempt_fst_eq (l : Limiter Rat) (client : String) (now : Moment) :
    (l.attempt client now).1 = decide (1 ≤ l.room client now) := by
  rw [attempt_fst, Bucket.tryAcquire_eq]
  unfold room
  split_ifs with h
  · exact (decide_eq_true h).symm
  · exact (decide_eq_false h).symm

/-- What an attempt leaves depends on nothing but the tokens that it finds. -/
theorem room_attempt (l : Limiter Rat) (client : String) (now t : Moment) :
    (l.attempt client now).2.room client t =
      Bucket.level l.capacity l.rate
        ⟨l.room client now - (if 1 ≤ l.room client now then 1 else 0), now, now⟩ t := by
  have hbucket := bucket?_attempt l client now
  rw [Bucket.tryAcquire_snd, ← attempt_fst, attempt_fst_eq] at hbucket
  rw [room_of_some hbucket]
  simp only [decide_eq_true_eq]
  rfl

theorem room_of_bucket?_eq {l' : Limiter Rat} (hs : SameNumbers l' l)
    (hb : l'.bucket? client = l.bucket? client) (t : Moment) : l'.room client t = l.room client t := by
  unfold room met
  rw [hb, hs.capacity, hs.rate]

/-- Where a bucket fills up within the idle timeout, one that is swept away is full. -/
theorem room_sweep (h : Settled client now l) (hcover : l.capacity ≤ l.rate * Span.exact l.idleTimeout)
    {t : Moment} (ht : now ≤ t) : (act now l .sweep).room client t = l.room client t := by
  have hs := sameNumbers_act l now .sweep
  rcases bucket?_act_of_ne h.keyed client now (a := .sweep) nofun with
    hsame | ⟨b, hb, hidle, hnone⟩
  · exact room_of_bucket?_eq hs hsame t
  · obtain ⟨htokens, hrefill, -⟩ := h.bucket b hb
    have hlong : l.idleTimeout ≤ elapsed t b.lastRefill := by
      rw [hrefill]
      have hnow : l.idleTimeout < elapsed now b.lastSeen :=
        Nat.lt_of_not_le (of_decide_eq_false hidle)
      exact Nat.le_trans hnow.le (Nat.sub_le_sub_right ht _)
    have hin : l.rate * Span.exact l.idleTimeout ≤ l.rate * Span.exact (elapsed t b.lastRefill) :=
      mul_le_mul_of_nonneg_left (Span.exact_mono hlong) h.rate_nonneg
    have hfull : l.capacity ≤ b.tokens + l.rate * Span.exact (elapsed t b.lastRefill) := by linarith
    rw [room_of_none (hs.rate ▸ h.rate_nonneg) hnone, room_of_some hb, Bucket.level_eq_min,
      min_eq_left hfull, hs.capacity]

end Room

/-! ## Two limiters -/

/-- Two limiters in which every client finds the same tokens, now and later. -/
structure SameRooms (now : Moment) (l l' : Limiter Rat) : Prop where
  numbers : SameNumbers l' l
  settled : ∀ client, Settled client now l
  settled' : ∀ client, Settled client now l'
  room_eq : ∀ client t, now ≤ t → l.room client t = l'.room client t

namespace SameRooms

variable {now : Moment} {l l' : Limiter Rat}

theorem wait (h : SameRooms now l l') (span : Span) : SameRooms (now + span) l l' where
  numbers := h.numbers
  settled client := (h.settled client).wait span
  settled' client := (h.settled' client).wait span
  room_eq client t ht := h.room_eq client t (Nat.le_trans (Nat.le_add_right now span) ht)

theorem attempt_fst (h : SameRooms now l l') (client : String) :
    (l.attempt client now).1 = (l'.attempt client now).1 := by
  rw [attempt_fst_eq, attempt_fst_eq, h.room_eq client now (Nat.le_refl now)]

theorem attempt (h : SameRooms now l l') (client : String) :
    SameRooms now (l.attempt client now).2 (l'.attempt client now).2 where
  numbers := ⟨h.numbers.capacity, h.numbers.rate, h.numbers.idleTimeout⟩
  settled other := (h.settled other).act (.attempt client)
  settled' other := (h.settled' other).act (.attempt client)
  room_eq other t ht := by
    by_cases hother : other = client
    · subst hother
      rw [room_attempt, room_attempt, h.room_eq other now (Nat.le_refl now), h.numbers.capacity,
        h.numbers.rate]
    · have hl := sameNumbers_act l now (.attempt client)
      have hl' := sameNumbers_act l' now (.attempt client)
      have hroom := room_of_bucket?_eq hl (bucket?_attempt_of_ne l client now hother) t
      have hroom' := room_of_bucket?_eq hl' (bucket?_attempt_of_ne l' client now hother) t
      exact hroom.trans ((h.room_eq other t ht).trans hroom'.symm)

theorem sweep (h : SameRooms now l l')
    (hcover : l.capacity ≤ l.rate * Span.exact l.idleTimeout) :
    SameRooms now (Limiter.act now l .sweep) l' where
  numbers := ⟨h.numbers.capacity, h.numbers.rate, h.numbers.idleTimeout⟩
  settled client := (h.settled client).act .sweep
  settled' := h.settled'
  room_eq client t ht := (room_sweep (h.settled client) hcover ht).trans (h.room_eq client t ht)

end SameRooms

/-! ## Runs -/

section Runs
variable {now : Moment} {l l' : Limiter Rat}

/-- A run answers as a limiter that is not swept, and leaves every client the same tokens. -/
theorem answers_history (h : SameRooms now l l')
    (hcover : l.capacity ≤ l.rate * Span.exact l.idleTimeout) (moves : List (Move Action)) :
    answers ((Instant.mk now l).history act moves) = replay l' (schedule now moves) ∧
      SameRooms ((Instant.mk now l).run act moves).now ((Instant.mk now l).run act moves).state
        (replayed l' (schedule now moves)) := by
  induction moves generalizing now l l' with
  | nil => exact ⟨rfl, h⟩
  | cons m moves ih =>
    rcases m with span | ⟨client⟩ | _
    · exact ih (h.wait span) hcover
    · obtain ⟨hanswers, hrooms⟩ := ih (h.attempt client) hcover
      refine ⟨?_, hrooms⟩
      unfold schedule replay
      rw [← h.attempt_fst client]
      exact congrArg ((now, client, (l.attempt client now).1) :: ·) hanswers
    · exact ih (h.sweep hcover) hcover

end Runs

/-- Sweeps are not seen in a run of a limiter. -/
structure ForgettingLaw (capacity : Nat) (rate : Rat) (idle interval : Span) (start : Moment)
    (moves : List (Move Action)) : Prop where
  /-- Every attempt gets the answer that it gets when nothing is swept. -/
  answers_eq : answers (past capacity rate idle interval start moves) =
    answers (past capacity rate idle interval start (unswept moves))
  /-- The answers depend on nothing but the attempts and their moments: sweeps may come between any
  two of them, and in the middle of a pause. -/
  answers_of_schedule : ∀ others, schedule start others = schedule start moves →
    answers (past capacity rate idle interval start others) =
      answers (past capacity rate idle interval start moves)
  /-- After the run every client finds the tokens that it would find if nothing had been swept. -/
  room_eq : ∀ client t, (run capacity rate idle interval start moves).now ≤ t →
    (run capacity rate idle interval start moves).state.room client t =
      (run capacity rate idle interval start (unswept moves)).state.room client t

/-- **Forgetting idle clients is not seen**, in any run, where a bucket fills up within the idle
timeout. -/
theorem forgettingLaw (capacity : Nat) (rate : Rat) (idle interval : Span) (start : Moment)
    (hrate : 0 ≤ rate) (hcover : (capacity : Rat) ≤ rate * Span.exact idle)
    (moves : List (Move Action)) : ForgettingLaw capacity rate idle interval start moves := by
  have hsettled (client : String) : Settled client start (new capacity rate idle interval) :=
    ⟨Nat.cast_nonneg capacity, hrate, keyed_new _ _ _ _, nofun⟩
  have hself : SameRooms start (new capacity rate idle interval) (new capacity rate idle interval) :=
    ⟨⟨rfl, rfl, rfl⟩, hsettled, hsettled, fun _ _ _ => rfl⟩
  have hrun := answers_history hself hcover
  refine ⟨?_, ?_, ?_⟩
  · have hanswers := (hrun moves).1
    rw [← schedule_unswept] at hanswers
    exact hanswers.trans (hrun (unswept moves)).1.symm
  · intro others hsame
    have hanswers := (hrun others).1
    rw [hsame] at hanswers
    exact hanswers.trans (hrun moves).1.symm
  · intro client t ht
    have hswept := (hrun moves).2
    have hunswept := (hrun (unswept moves)).2
    rw [schedule_unswept, now_run_unswept rfl] at hunswept
    exact (hswept.room_eq client t ht).trans (hunswept.room_eq client t ht).symm

/-- A bucket that fills up in exactly the idle timeout. It is kept by a sweep when that is over, and
swept away a nanosecond later. -/
theorem forgettingLaw_exact :
    (0 : Rat) ≤ 1 / 2 ∧ ((1 : Nat) : Rat) ≤ 1 / 2 * Span.exact (Span.seconds 2) ∧
      ForgettingLaw 1 (1 / 2) (Span.seconds 2) (Span.seconds 1) 0
        [.act (.attempt "a"), .wait (Span.seconds 2), .act .sweep, .wait 1, .act .sweep,
          .act (.attempt "a")] := by
  have hrate : (0 : Rat) ≤ 1 / 2 := by norm_num
  have hcover : ((1 : Nat) : Rat) ≤ 1 / 2 * Span.exact (Span.seconds 2) := by
    rw [Span.exact_seconds]
    norm_num
  exact ⟨hrate, hcover, forgettingLaw 1 (1 / 2) (Span.seconds 2) (Span.seconds 1) 0 hrate hcover _⟩

end Gatehouse.Limiter
