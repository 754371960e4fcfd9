import Gatehouse.RateLimit.Limiter
import Gatehouse.Proofs.Timeline
import Mathlib.Data.List.Nodup

/-!
# The buckets of a limiter

The buckets are kept in a list with one entry for each client. What an attempt or a sweep does is
said here for the bucket of one client, whatever tokens are counted in.

* `Limiter.act` : attempts and sweeps as actions of a run;
* `Limiter.Keyed` : one entry for each client, kept by every action;
* `bucket?_attempt`, `bucket?_act_of_ne` : the bucket of a client after an attempt of its own, and after
  any other action.
-/

namespace Gatehouse.Limiter

variable {α : Type}

/-- One entry for each client. -/
def Keyed (l : Limiter α) : Prop := (l.buckets.map Prod.fst).Nodup

/-! ## Lists of buckets -/

@[simp] theorem lookup_put_self (client : String) (b : Bucket α) (bs : List (String × Bucket α)) :
    (put client b bs).lookup client = some b := by
  induction bs with
  | nil => simp [put]
  | cons e bs ih =>
    obtain ⟨c, old⟩ := e
    by_cases h : c = client
    · simp [put, h]
    · simp [put, h, List.lookup_cons, beq_false_of_ne (Ne.symm h), ih]

theorem lookup_put_of_ne {client other : String} (h : other ≠ client) (b : Bucket α)
    (bs : List (String × Bucket α)) : (put client b bs).lookup other = bs.lookup other := by
  induction bs with
  | nil => simp [put, List.lookup_cons, beq_false_of_ne h]
  | cons e bs ih =>
    obtain ⟨c, old⟩ := e
    by_cases hc : c = client
    · subst hc
      simp [put, List.lookup_cons, beq_false_of_ne h]
    · simp [put, hc, List.lookup_cons, ih]

theorem put_put (client : String) (b b' : Bucket α) (bs : List (String × Bucket α)) :
    put client b' (put client b bs) = put client b' bs := by
  induction bs with
  | nil => simp [put]
  | cons e bs ih =>
    obtain ⟨c, old⟩ := e
    by_cases h : c = client
    · simp [put, h]
    · simp [put, h, ih]

theorem map_fst_put (client : String) (b : Bucket α) (bs : List (String × Bucket α)) :
    (put client b bs).map Prod.fst =
      if client ∈ bs.map Prod.fst then bs.map Prod.fst else bs.map Prod.fst ++ [client] := by
  induction bs with
  | nil => simp [put]
  | cons e bs ih =>
    obtain ⟨c, old⟩ := e
    by_cases h : c = client
    · simp [put, h]
    · simp only [put, h, if_false, List.map_cons, ih, List.mem_cons, Ne.symm h, false_or]
      split <;> simp

theorem nodup_put {client : String} {b : Bucket α} {bs : List (String × Bucket α)}
    (h : (bs.map Prod.fst).Nodup) : ((put client b bs).map Prod.fst).Nodup := by
  rw [map_fst_put]
  split
  · exact h
  · rename_i hc
    rw [← List.concat_eq_append, List.nodup_concat]
    exact ⟨hc, h⟩

/-- Where every client has one entry, a filter keeps the bucket of a client or leaves none. -/
theorem lookup_filter {bs : List (String × Bucket α)} (h : (bs.map Prod.fst).Nodup)
    (keep : Bucket α → Bool) (client : String) :
    (bs.filter fun e => keep e.2).lookup client = (bs.lookup client).filter keep := by
  induction bs with
  | nil => rfl
  | cons e bs ih =>
    obtain ⟨c, b⟩ := e
    rw [List.map_cons, List.nodup_cons] at h
    have ih := ih h.2
    by_cases hc : client = c
    · subst hc
      have hnone : bs.lookup client = none := by
        rw [List.lookup_eq_none_iff]
        intro e he
        exact bne_iff_ne.mpr fun hc => h.1 (List.mem_map.mpr ⟨e, he, hc.symm⟩)
      rw [hnone] at ih
      by_cases hk : keep b = true
      · simp [hk, Option.filter]
      · simp [hk, ih, Option.filter]
    · by_cases hk : keep b = true
      · simp [hk, List.lookup_cons, beq_false_of_ne hc, ih]
      · simp [hk, List.lookup_cons, beq_false_of_ne hc, ih]

/-! ## One action -/

def act [TokenArithmetic α] (now : Moment) (l : Limiter α) (a : Action) : Limiter α := l.step now a

/-- The bucket that an attempt of a client at `now` meets: its own, or a new one. -/
def met (l : Limiter α) (client : String) (now : Moment) : Bucket α :=
  (l.bucket? client).getD (.full l.capacity now)

section Actions
variable [TokenArithmetic α] (l : Limiter α) (client : String) (now : Moment)

theorem attempt_fst :
    (l.attempt client now).1 = ((l.met client now).tryAcquire l.capacity l.rate now).1 := rfl

theorem attempt_snd :
    (l.attempt client now).2 = { l with
      buckets := put client ((l.met client now).tryAcquire l.capacity l.rate now).2 l.buckets } :=
  rfl

@[simp] theorem bucket?_attempt :
    (l.attempt client now).2.bucket? client =
      some ((l.met client now).tryAcquire l.capacity l.rate now).2 :=
  lookup_put_self _ _ _

theorem bucket?_attempt_of_ne {other : String} (h : other ≠ client) :
    (l.attempt client now).2.bucket? other = l.bucket? other :=
  lookup_put_of_ne h _ _

omit [TokenArithmetic α] in
theorem bucket?_sweep (hl : l.Keyed) :
    (l.sweep now).2.1.bucket? client = (l.bucket? client).filter (l.isFresh now) :=
  lookup_filter hl _ _

/-- What an action that is no attempt of the client does to its bucket: nothing, or the bucket, idle
for too long, is swept away. -/
theorem bucket?_act_of_ne {l : Limiter α} (hk : l.Keyed) (client : String) (now : Moment)
    {a : Action} (ha : a ≠ .attempt client) :
    (act now l a).bucket? client = l.bucket? client ∨
      ∃ b, l.bucket? client = some b ∧ l.isFresh now b = false ∧
        (act now l a).bucket? client = none := by
  cases a with
  | attempt other =>
    have hne : client ≠ other := fun h => ha (by rw [h])
    exact .inl (bucket?_attempt_of_ne l other now hne)
  | sweep =>
    have hfilter : (act now l .sweep).bucket? client = (l.bucket? client).filter (l.isFresh now) :=
      bucket?_sweep l client now hk
    cases hb : l.bucket? client with
    | none =>
      left
      rw [hfilter, hb]
      rfl
    | some b =>
      by_cases hfresh : l.isFresh now b = true
      · left
        rw [hfilter, hb, Option.filter_some_pos hfresh]
      · right
        refine ⟨b, rfl, Bool.eq_false_iff.mpr hfresh, ?_⟩
        rw [hfilter, hb, Option.filter_some_neg (Bool.eq_false_iff.mpr hfresh)]

/-- What no action changes. -/
theorem act_settings (a : Action) :
    (act now l a).capacity = l.capacity ∧ (act now l a).rate = l.rate ∧
      (act now l a).idleTimeout = l.idleTimeout := by
  cases a <;> exact ⟨rfl, rfl, rfl⟩

theorem Keyed.act {l : Limiter α} (h : l.Keyed) (now : Moment) (a : Action) :
    (act now l a).Keyed := by
  cases a with
  | attempt client => exact nodup_put h
  | sweep => exact h.sublist (List.filter_sublist.map _)

end Actions

theorem keyed_new [TokenArithmetic α] (capacity : Nat) (rate : α) (idle interval : Span) :
    (new capacity rate idle interval).Keyed := List.nodup_nil

end Gatehouse.Limiter
