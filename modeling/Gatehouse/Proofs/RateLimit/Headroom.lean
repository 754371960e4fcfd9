import Gatehouse.RateLimit.Bucket
import Mathlib.Algebra.Order.Field.Rat
import Mathlib.Algebra.Order.Group.MinMax
import Mathlib.Data.List.Induction
import Mathlib.Tactic.GCongr
import Mathlib.Tactic.Linarith
import Mathlib.Tactic.Positivity
import Mathlib.Tactic.Ring

/-!
# What a bucket allows

A bucket keeps one number, cut at the capacity whenever it is filled up. The law that it stands for
speaks of all windows of the past: since each attempt that was admitted, no more may have been
admitted than the capacity and what came in meanwhile. Tokens, rates and seconds are exact here.

* `Bucket.Allows` : the law, for the moments of the attempts that were admitted;
* `Bucket.headroom` : the tokens that the law leaves, the least over all windows;
* `Bucket.Lawful` : a past in which the law allowed every admission, and `Lawful.window_le` : how many
  there are in any window of it;
* `Bucket.Agrees` : a bucket holds what the law leaves;
* `Agrees.tryAcquire_iff`, `Agrees.tryAcquire_admitted`, `Agrees.tryAcquire_refused` : an attempt is
  decided by the law, and the bucket goes on agreeing with it.
-/

namespace Gatehouse

/-- A span in seconds, exactly. -/
def Span.exact (s : Span) : Rat := s / nanosPerSecond

theorem Span.exact_nonneg (s : Span) : 0 ≤ Span.exact s := by
  unfold Span.exact
  positivity

theorem Span.exact_mono {s t : Span} (h : s ≤ t) : Span.exact s ≤ Span.exact t := by
  unfold Span.exact
  gcongr

/-- The span over two spans in a row. -/
theorem Span.exact_elapsed_trans {a b c : Moment} (hab : a ≤ b) (hbc : b ≤ c) :
    Span.exact (elapsed c a) = Span.exact (elapsed b a) + Span.exact (elapsed c b) := by
  have h : elapsed c a = elapsed b a + elapsed c b := by
    rw [Nat.add_comm]
    exact (Nat.sub_add_sub_cancel hbc hab).symm
  rw [h]
  unfold Span.exact
  push_cast
  ring

namespace Bucket

/-! ## The law -/

/-- The law of a bucket at `now`: at least one token fits, and since each attempt that was admitted
there is room for those that were, and for one more. `admitted` lists their moments. -/
def Allows (capacity rate : Rat) (admitted : List Moment) (now : Moment) : Prop :=
  1 ≤ capacity ∧ ∀ earlier t later, admitted = earlier ++ t :: later →
    ((t :: later).length : Rat) + 1 ≤ capacity + rate * Span.exact (elapsed now t)

/-- The tokens that the law leaves at `now`. -/
def headroom (capacity rate : Rat) : List Moment → Moment → Rat
  | [], _ => capacity
  | t :: later, now =>
    min (capacity + rate * Span.exact (elapsed now t) - (t :: later).length)
      (headroom capacity rate later now)

/-- There is room for one more exactly when the law allows it. -/
theorem one_le_headroom_iff (capacity rate : Rat) (admitted : List Moment) (now : Moment) :
    1 ≤ headroom capacity rate admitted now ↔ Allows capacity rate admitted now := by
  induction admitted with
  | nil => simp [headroom, Allows]
  | cons t later ih =>
    rw [headroom, le_min_iff, ih]
    constructor
    · rintro ⟨ht, hc, hl⟩
      refine ⟨hc, fun earlier u rest h => ?_⟩
      cases earlier with
      | nil =>
        obtain ⟨rfl, rfl⟩ := List.cons.inj h
        linarith
      | cons v earlier => exact hl earlier u rest (List.cons.inj h).2
    · rintro ⟨hc, hl⟩
      refine ⟨?_, hc, fun earlier u rest h => hl (t :: earlier) u rest (by rw [h]; rfl)⟩
      linarith [hl [] t later rfl]

/-- One more admission, at `t`, leaves at `now` one token less and what has come in since `t`, but
no more than the capacity. -/
theorem headroom_concat (capacity rate : Rat) {admitted : List Moment} {t now : Moment}
    (ha : ∀ u ∈ admitted, u ≤ t) (hn : t ≤ now) :
    headroom capacity rate (admitted ++ [t]) now =
      min capacity (headroom capacity rate admitted t - 1 + rate * Span.exact (elapsed now t)) := by
  induction admitted with
  | nil =>
    rw [List.nil_append, headroom, headroom, headroom, min_comm, List.length_singleton]
    congr 1
    push_cast
    ring
  | cons u later ih =>
    have hu : u ≤ t := ha u List.mem_cons_self
    have hl : ∀ v ∈ later, v ≤ t := fun v hv => ha v (List.mem_cons_of_mem _ hv)
    have hw : capacity + rate * Span.exact (elapsed now u) - ((u :: (later ++ [t])).length : Rat) =
        capacity + rate * Span.exact (elapsed t u) - ((u :: later).length : Rat) - 1 +
          rate * Span.exact (elapsed now t) := by
      rw [Span.exact_elapsed_trans hu hn]
      simp only [List.length_cons, List.length_append, List.length_nil]
      push_cast
      ring
    rw [List.cons_append, headroom, headroom, ih hl, hw, min_left_comm, min_add_add_right,
      min_sub_sub_right]

/-- The law allowed every admission when it was made. -/
inductive Lawful (capacity rate : Rat) : List Moment → Prop where
  | nil : Lawful capacity rate []
  | concat {admitted : List Moment} {t : Moment} : Lawful capacity rate admitted →
      Allows capacity rate admitted t → Lawful capacity rate (admitted ++ [t])

theorem elapsed_le_of_window {start t u : Moment} {span : Span} (ht : start ≤ t)
    (hu : u ≤ start + span) : elapsed u t ≤ span :=
  Nat.sub_le_of_le_add ((Nat.le_trans hu (Nat.add_le_add_right ht span)).trans
    (Nat.le_of_eq (Nat.add_comm t span)))

/-- No window of a lawful past has more admissions than the capacity and what comes in over it. -/
theorem Lawful.window_le {capacity rate : Rat} (hc : 0 ≤ capacity) (hr : 0 ≤ rate)
    {admitted : List Moment} (h : Lawful capacity rate admitted) (start : Moment) (span : Span) :
    ((admitted.filter fun t => start ≤ t ∧ t ≤ start + span).length : Rat) ≤
      capacity + rate * Span.exact span := by
  have hs : 0 ≤ rate * Span.exact span := mul_nonneg hr (Span.exact_nonneg span)
  induction h with
  | nil =>
    rw [List.filter_nil, List.length_nil, Nat.cast_zero]
    exact add_nonneg hc hs
  | @concat admitted u _ hu ih =>
    rw [List.filter_append, List.length_append]
    by_cases hw : start ≤ u ∧ u ≤ start + span
    · rw [List.filter_cons_of_pos (by simpa using hw), List.filter_nil, List.length_singleton]
      -- `u` was allowed in view of the first admission in the window.
      cases hf : admitted.filter fun t => start ≤ t ∧ t ≤ start + span with
      | nil =>
        rw [List.length_nil]
        push_cast
        linarith [hu.1]
      | cons t rest =>
        obtain ⟨earlier, later, rfl, -, ht, rfl⟩ := List.filter_eq_cons_iff.mp hf
        have hlen : (later.filter fun t => start ≤ t ∧ t ≤ start + span).length ≤ later.length :=
          List.length_filter_le _ _
        have hle : Span.exact (elapsed u t) ≤ Span.exact span :=
          Span.exact_mono (elapsed_le_of_window (of_decide_eq_true ht).1 hw.2)
        have hlaw := hu.2 earlier t later rfl
        have hmul := mul_le_mul_of_nonneg_left hle hr
        rw [List.length_cons] at hlaw ⊢
        have hlen' : ((later.filter fun t => start ≤ t ∧ t ≤ start + span).length : Rat) ≤
            later.length := by exact_mod_cast hlen
        push_cast at hlaw ⊢
        linarith
    · rw [List.filter_cons_of_neg (by simpa using hw), List.filter_nil, List.length_nil, Nat.add_zero]
      exact ih

/-! ## A bucket that keeps the law -/

/-- The tokens of a bucket that is filled up at `now`. -/
def level (capacity rate : Rat) (b : Bucket Rat) (now : Moment) : Rat :=
  TokenArithmetic.refill b.tokens rate (elapsed now b.lastRefill) capacity

theorem level_eq_min (capacity rate : Rat) (b : Bucket Rat) (now : Moment) :
    level capacity rate b now =
      min capacity (b.tokens + rate * Span.exact (elapsed now b.lastRefill)) := by
  unfold level Span.exact
  simp only [TokenArithmetic.refill]
  rw [mul_comm rate]
  split
  · rename_i h
    exact (min_eq_right h.le).symm
  · rename_i h
    exact (min_eq_left (not_lt.mp h)).symm

theorem level_full {rate : Rat} (hr : 0 ≤ rate) (capacity : Rat) (now later : Moment) :
    level capacity rate (full capacity now) later = capacity := by
  rw [level_eq_min]
  exact min_eq_left (le_add_of_nonneg_right (mul_nonneg hr (Span.exact_nonneg _)))

theorem tryAcquire_eq (capacity rate : Rat) (b : Bucket Rat) (now : Moment) :
    b.tryAcquire capacity rate now =
      if 1 ≤ level capacity rate b now then (true, ⟨level capacity rate b now - 1, now, now⟩)
      else (false, ⟨level capacity rate b now, now, now⟩) := by
  unfold tryAcquire level
  simp only [TokenArithmetic.take?]
  split_ifs <;> rfl

/-- An attempt is admitted when it finds a whole token. -/
theorem tryAcquire_fst_iff (capacity rate : Rat) (b : Bucket Rat) (now : Moment) :
    (b.tryAcquire capacity rate now).1 = true ↔ 1 ≤ level capacity rate b now := by
  rw [tryAcquire_eq]
  split_ifs with h
  · exact iff_of_true rfl h
  · exact iff_of_false nofun h

/-- An attempt fills the bucket up to its moment, and counts as seen, whether it is admitted or not. -/
theorem tryAcquire_seen (capacity rate : Rat) (b : Bucket Rat) (now : Moment) :
    (b.tryAcquire capacity rate now).2.lastRefill = now ∧
      (b.tryAcquire capacity rate now).2.lastSeen = now := by
  rw [tryAcquire_eq]
  split
  · exact ⟨rfl, rfl⟩
  · exact ⟨rfl, rfl⟩

/-- A bucket that is filled up at `now` and again later holds what it would without the first. -/
theorem level_level {capacity rate : Rat} (hr : 0 ≤ rate) (b : Bucket Rat) {now later : Moment}
    (hb : b.lastRefill ≤ now) (hl : now ≤ later) :
    level capacity rate ⟨level capacity rate b now, now, now⟩ later = level capacity rate b later := by
  have hd : 0 ≤ rate * Span.exact (elapsed later now) := mul_nonneg hr (Span.exact_nonneg _)
  rw [level_eq_min, level_eq_min, level_eq_min, Span.exact_elapsed_trans hb hl]
  simp only
  rw [← min_add_add_right, ← min_assoc, min_eq_left (le_add_of_nonneg_right hd)]
  congr 1
  ring

/-- A bucket holds what the law leaves, now and at any later moment. -/
structure Agrees (capacity rate : Rat) (admitted : List Moment) (b : Bucket Rat) : Prop where
  /-- The attempts that were admitted came before the last refill. -/
  admitted_le : ∀ t ∈ admitted, t ≤ b.lastRefill
  level_eq : ∀ now, b.lastRefill ≤ now →
    level capacity rate b now = headroom capacity rate admitted now

namespace Agrees

variable {capacity rate : Rat} {admitted : List Moment} {b : Bucket Rat} {now : Moment}

theorem full (hr : 0 ≤ rate) (now : Moment) :
    Agrees capacity rate [] (.full capacity now) where
  admitted_le := by simp
  level_eq later _ := level_full hr capacity now later

/-- An attempt is admitted exactly when the law allows it. -/
theorem tryAcquire_iff (h : Agrees capacity rate admitted b) (hb : b.lastRefill ≤ now) :
    (b.tryAcquire capacity rate now).1 = true ↔ Allows capacity rate admitted now := by
  rw [← one_le_headroom_iff, ← h.level_eq now hb, tryAcquire_fst_iff]

theorem tryAcquire_admitted (h : Agrees capacity rate admitted b) (hb : b.lastRefill ≤ now)
    (ha : (b.tryAcquire capacity rate now).1 = true) :
    Agrees capacity rate (admitted ++ [now]) (b.tryAcquire capacity rate now).2 := by
  have hle : ∀ t ∈ admitted, t ≤ now := fun t ht => (h.admitted_le t ht).trans hb
  have hl := (tryAcquire_fst_iff capacity rate b now).mp ha
  rw [tryAcquire_eq, if_pos hl]
  refine ⟨fun t ht => ?_, fun later hn => ?_⟩
  · rcases List.mem_append.mp ht with ht | ht
    · exact hle t ht
    · exact (List.mem_singleton.mp ht).le
  · rw [level_eq_min, headroom_concat capacity rate hle hn, ← h.level_eq now hb]

theorem tryAcquire_refused (h : Agrees capacity rate admitted b) (hr : 0 ≤ rate)
    (hb : b.lastRefill ≤ now) (ha : (b.tryAcquire capacity rate now).1 = false) :
    Agrees capacity rate admitted (b.tryAcquire capacity rate now).2 := by
  have hl : ¬ 1 ≤ level capacity rate b now := by
    rw [← tryAcquire_fst_iff, ha]
    exact Bool.false_ne_true
  rw [tryAcquire_eq, if_neg hl]
  refine ⟨fun t ht => (h.admitted_le t ht).trans hb, fun later hn => ?_⟩
  rw [level_level hr b hb hn, h.level_eq later (hb.trans hn)]

end Agrees

/-- A bucket that has never been used counts as new. -/
theorem tryAcquire_full {capacity rate : Rat} (hr : 0 ≤ rate) (now later : Moment) :
    (full capacity now).tryAcquire capacity rate later =
      (full capacity later).tryAcquire capacity rate later := by
  rw [tryAcquire_eq, tryAcquire_eq, level_full hr, level_full hr]

/-- A refused attempt leaves no trace in a later one. -/
theorem tryAcquire_of_refused {capacity rate : Rat} (hr : 0 ≤ rate) {b : Bucket Rat}
    {now later : Moment} (hb : b.lastRefill ≤ now) (hl : now ≤ later)
    (ha : (b.tryAcquire capacity rate now).1 = false) :
    (b.tryAcquire capacity rate now).2.tryAcquire capacity rate later =
      b.tryAcquire capacity rate later := by
  have hn : ¬ 1 ≤ level capacity rate b now := by
    rw [← tryAcquire_fst_iff, ha]
    exact Bool.false_ne_true
  rw [tryAcquire_eq capacity rate b now, if_neg hn, tryAcquire_eq, level_level hr b hb hl,
    tryAcquire_eq]

end Bucket

end Gatehouse
