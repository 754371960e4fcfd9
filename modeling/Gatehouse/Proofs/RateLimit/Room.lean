import Gatehouse.Proofs.RateLimit.Buckets
import Gatehouse.Proofs.RateLimit.Headroom

/-!
# What an action costs

An attempt of a client finds the tokens of its bucket or, if it has none, those of a new one. Between
two moments this room grows by no more than the rate; an admission takes one token of it; and when an
idle bucket is swept away it grows by what the bucket still lacked, which the idle timeout bounds.

* `Limiter.room` : the tokens that an attempt of a client would find;
* `Limiter.forfeit` : the most that a sweep can add to it;
* `Limiter.Settled` : the bucket of a client is in order, kept by every action;
* `Limiter.Charge` : what an action does to the room, for some admissions and some evictions;
* `charge_act` : every action is charged for what it admits and forgives.
-/

namespace Gatehouse

theorem Span.exact_seconds (n : Nat) : Span.exact (Span.seconds n) = n := by
  have hpos : (nanosPerSecond : Rat) ≠ 0 := by
    unfold nanosPerSecond
    norm_num
  unfold Span.exact Span.seconds
  push_cast
  exact mul_div_cancel_right₀ (n : Rat) hpos

namespace Bucket

variable {capacity rate : Rat} {b : Bucket Rat} {now later : Moment}

theorem level_le_capacity : level capacity rate b now ≤ capacity := by
  rw [level_eq_min]
  exact min_le_left _ _

theorem level_nonneg (hc : 0 ≤ capacity) (hr : 0 ≤ rate) (hb : 0 ≤ b.tokens) :
    0 ≤ level capacity rate b now := by
  have hcome : 0 ≤ rate * Span.exact (elapsed now b.lastRefill) :=
    mul_nonneg hr (Span.exact_nonneg _)
  rw [level_eq_min]
  exact le_min hc (add_nonneg hb hcome)

theorem level_le_add (hr : 0 ≤ rate) (hb : b.lastRefill ≤ now) (hn : now ≤ later) :
    level capacity rate b later ≤
      level capacity rate b now + rate * Span.exact (elapsed later now) := by
  have hcome : 0 ≤ rate * Span.exact (elapsed later now) := mul_nonneg hr (Span.exact_nonneg _)
  rw [level_eq_min, level_eq_min, Span.exact_elapsed_trans hb hn, ← min_add_add_right]
  refine min_le_min (le_add_of_nonneg_right hcome) (le_of_eq ?_)
  ring

theorem tryAcquire_snd (capacity rate : Rat) (b : Bucket Rat) (now : Moment) :
    (b.tryAcquire capacity rate now).2 =
      ⟨level capacity rate b now - (if (b.tryAcquire capacity rate now).1 then 1 else 0),
        now, now⟩ := by
  rw [tryAcquire_eq]
  split
  · simp
  · simp

theorem cost_le_level (hl : 0 ≤ level capacity rate b now) :
    (if (b.tryAcquire capacity rate now).1 then 1 else 0) ≤ level capacity rate b now := by
  rw [tryAcquire_eq]
  split
  · rename_i h
    simpa using h
  · simpa using hl

end Bucket

namespace Limiter

variable {l l' : Limiter Rat} {client : String} {now : Moment}

/-! ## The room of a client -/

/-- The tokens that an attempt of a client at `t` would find. -/
def room (l : Limiter Rat) (client : String) (t : Moment) : Rat :=
  Bucket.level l.capacity l.rate (l.met client t) t

/-- The most that a sweep can add to the room of a client: a full bucket but for what has come in
over the idle timeout. -/
def forfeit (l : Limiter Rat) : Rat := max 0 (l.capacity - l.rate * Span.exact l.idleTimeout)

theorem forfeit_nonneg (l : Limiter Rat) : 0 ≤ l.forfeit := le_max_left _ _

theorem room_le_capacity (l : Limiter Rat) (client : String) (t : Moment) :
    l.room client t ≤ l.capacity := Bucket.level_le_capacity

theorem room_of_some {b : Bucket Rat} (hb : l.bucket? client = some b) (t : Moment) :
    l.room client t = Bucket.level l.capacity l.rate b t := by
  unfold room met
  rw [hb]
  rfl

theorem room_of_none (hr : 0 ≤ l.rate) (hb : l.bucket? client = none) (t : Moment) :
    l.room client t = l.capacity := by
  unfold room met
  rw [hb]
  exact Bucket.level_full hr l.capacity t t

/-! ## Buckets in order -/

structure SameNumbers (l' l : Limiter Rat) : Prop where
  capacity : l'.capacity = l.capacity
  rate : l'.rate = l.rate
  idleTimeout : l'.idleTimeout = l.idleTimeout

theorem sameNumbers_act (l : Limiter Rat) (now : Moment) (a : Action) :
    SameNumbers (act now l a) l := by
  obtain ⟨hc, hr, hi⟩ := act_settings l now a
  exact ⟨hc, hr, hi⟩

theorem SameNumbers.trans {l'' : Limiter Rat} (h : SameNumbers l'' l') (h' : SameNumbers l' l) :
    SameNumbers l'' l :=
  ⟨h.capacity.trans h'.capacity, h.rate.trans h'.rate, h.idleTimeout.trans h'.idleTimeout⟩

theorem SameNumbers.forfeit (h : SameNumbers l' l) : l'.forfeit = l.forfeit := by
  unfold Limiter.forfeit
  rw [h.capacity, h.rate, h.idleTimeout]

/-- The bucket of a client, if it has one, holds no debt and was filled up when it was last seen. -/
structure Settled (client : String) (now : Moment) (l : Limiter Rat) : Prop where
  capacity_nonneg : 0 ≤ l.capacity
  rate_nonneg : 0 ≤ l.rate
  keyed : l.Keyed
  bucket : ∀ b, l.bucket? client = some b →
    0 ≤ b.tokens ∧ b.lastRefill = b.lastSeen ∧ b.lastSeen ≤ now

namespace Settled

theorem wait (h : Settled client now l) (span : Span) : Settled client (now + span) l := by
  refine { h with bucket := fun b hb => ?_ }
  obtain ⟨htokens, hrefill, hseen⟩ := h.bucket b hb
  exact ⟨htokens, hrefill, Nat.le_trans hseen (Nat.le_add_right now span)⟩

theorem room_nonneg (h : Settled client now l) (t : Moment) : 0 ≤ l.room client t := by
  cases hb : l.bucket? client with
  | none =>
    rw [room_of_none h.rate_nonneg hb]
    exact h.capacity_nonneg
  | some b =>
    rw [room_of_some hb]
    exact Bucket.level_nonneg h.capacity_nonneg h.rate_nonneg (h.bucket b hb).1

theorem room_le_add (h : Settled client now l) {t : Moment} (ht : now ≤ t) :
    l.room client t ≤ l.room client now + l.rate * Span.exact (elapsed t now) := by
  cases hb : l.bucket? client with
  | none =>
    have hcome : 0 ≤ l.rate * Span.exact (elapsed t now) :=
      mul_nonneg h.rate_nonneg (Span.exact_nonneg _)
    rw [room_of_none h.rate_nonneg hb, room_of_none h.rate_nonneg hb]
    exact le_add_of_nonneg_right hcome
  | some b =>
    obtain ⟨-, hrefill, hseen⟩ := h.bucket b hb
    rw [room_of_some hb, room_of_some hb]
    exact Bucket.level_le_add h.rate_nonneg (hrefill ▸ hseen) ht

theorem attempt (h : Settled client now l) : Settled client now (l.attempt client now).2 := by
  refine ⟨h.capacity_nonneg, h.rate_nonneg, nodup_put h.keyed, fun b hb => ?_⟩
  have hcost : (if ((l.met client now).tryAcquire l.capacity l.rate now).1 then 1 else 0) ≤
      l.room client now := Bucket.cost_le_level (h.room_nonneg now)
  rw [bucket?_attempt, Bucket.tryAcquire_snd, Option.some.injEq] at hb
  subst hb
  exact ⟨sub_nonneg.mpr hcost, rfl, Nat.le_refl now⟩

end Settled

theorem Settled.act (h : Settled client now l) (a : Action) :
    Settled client now (Limiter.act now l a) := by
  by_cases ha : a = .attempt client
  · subst ha
    exact h.attempt
  · have hs := sameNumbers_act l now a
    refine ⟨hs.capacity ▸ h.capacity_nonneg, hs.rate ▸ h.rate_nonneg, h.keyed.act now a,
      fun b hb => ?_⟩
    rcases bucket?_act_of_ne h.keyed client now ha with hsame | ⟨-, -, -, hnone⟩
    · exact h.bucket b (hsame ▸ hb)
    · rw [hnone] at hb
      cases hb

/-! ## What an action costs -/

/-- The room of a client once `k` attempts have been admitted and `e` buckets been swept away. -/
structure Charge (client : String) (now : Moment) (k e : Nat) (l l' : Limiter Rat) : Prop where
  affordable : (k : Rat) ≤ l.room client now
  room_le : ∀ t, now ≤ t → l'.room client t ≤
    l.room client now - k + l.rate * Span.exact (elapsed t now) + e * l.forfeit

theorem charge_attempt (h : Settled client now l) :
    Charge client now (if (l.attempt client now).1 then 1 else 0) 0 l
      (l.attempt client now).2 := by
  have hcost : (if (l.attempt client now).1 then 1 else 0) ≤ l.room client now :=
    Bucket.cost_le_level (h.room_nonneg now)
  refine ⟨by exact_mod_cast hcost, fun t ht => ?_⟩
  have hbucket := bucket?_attempt l client now
  rw [Bucket.tryAcquire_snd] at hbucket
  rw [room_of_some hbucket]
  refine le_trans (Bucket.level_le_add h.rate_nonneg (Nat.le_refl now) ht) ?_
  have hlevel : Bucket.level l.capacity l.rate
      ⟨l.room client now - (if (l.attempt client now).1 then 1 else 0), now, now⟩ now ≤
        l.room client now - (if (l.attempt client now).1 then 1 else 0) := by
    rw [Bucket.level_eq_min]
    refine le_trans (min_le_right _ _) (le_of_eq ?_)
    simp [elapsed, Span.exact]
  have hcast : ((if (l.attempt client now).1 then 1 else 0 : Nat) : Rat) =
      if (l.attempt client now).1 then 1 else 0 := by
    split_ifs <;> simp
  rw [hcast, Nat.cast_zero, zero_mul, add_zero]
  exact add_le_add_left hlevel _

theorem charge_of_same (h : Settled client now l) (hs : SameNumbers l' l)
    (hb : l'.bucket? client = l.bucket? client) : Charge client now 0 0 l l' := by
  refine ⟨by exact_mod_cast h.room_nonneg now, fun t ht => ?_⟩
  have hroom : l'.room client t = l.room client t := by
    unfold room met
    rw [hb, hs.capacity, hs.rate]
  have hgrow := h.room_le_add ht
  rw [hroom]
  push_cast
  linarith

theorem charge_evict (h : Settled client now l) (hs : SameNumbers l' l) {b : Bucket Rat}
    (hb : l.bucket? client = some b) (hidle : l.isFresh now b = false)
    (hb' : l'.bucket? client = none) : Charge client now 0 1 l l' := by
  refine ⟨by exact_mod_cast h.room_nonneg now, fun t _ => ?_⟩
  have hcome : 0 ≤ l.rate * Span.exact (elapsed t now) :=
    mul_nonneg h.rate_nonneg (Span.exact_nonneg _)
  have hfull : l'.room client t = l.capacity := by
    rw [room_of_none (hs.rate ▸ h.rate_nonneg) hb', hs.capacity]
  have hroom : l.capacity - l.forfeit ≤ l.room client now := by
    obtain ⟨htokens, hrefill, -⟩ := h.bucket b hb
    have hlong : l.idleTimeout ≤ elapsed now b.lastRefill := by
      rw [hrefill]
      exact (Nat.lt_of_not_le (of_decide_eq_false hidle)).le
    have hin : l.rate * Span.exact l.idleTimeout ≤
        l.rate * Span.exact (elapsed now b.lastRefill) :=
      mul_le_mul_of_nonneg_left (Span.exact_mono hlong) h.rate_nonneg
    have hforfeit : l.capacity - l.rate * Span.exact l.idleTimeout ≤ l.forfeit := le_max_right _ _
    have hnonneg := l.forfeit_nonneg
    rw [room_of_some hb, Bucket.level_eq_min]
    refine le_min ?_ ?_
    · linarith
    · linarith
  rw [hfull]
  push_cast
  linarith

/-- Every action costs what it admits, and forgives a client that it forgets. -/
theorem charge_act (h : Settled client now l) (a : Action) :
    Charge client now (if a = .attempt client ∧ (l.attempt client now).1 = true then 1 else 0)
      (if (l.bucket? client).isSome ∧ ((act now l a).bucket? client).isNone then 1 else 0) l
      (act now l a) := by
  have hs := sameNumbers_act l now a
  by_cases ha : a = .attempt client
  · subst ha
    have hact : act now l (.attempt client) = (l.attempt client now).2 := rfl
    rw [hact]
    simpa using charge_attempt h
  · rcases bucket?_act_of_ne h.keyed client now ha with hsame | ⟨b, hb, hidle, hnone⟩
    · have hkept : ¬ ((l.bucket? client).isSome ∧ ((act now l a).bucket? client).isNone) := by
        rw [hsame]
        cases l.bucket? client <;> simp
      rw [if_neg (fun h => ha h.1), if_neg hkept]
      exact charge_of_same h hs hsame
    · rw [if_neg (fun h => ha h.1), if_pos (by simp [hb, hnone])]
      exact charge_evict h hs hb hidle hnone

end Limiter

end Gatehouse
