import Gatehouse.RateLimit.Sweeper
import Gatehouse.Telemetry.Metrics
import Gatehouse.Proofs.RateLimit.Buckets
import Mathlib.Data.Set.Card

/-!
# Sweeps

What a sweep leaves, what it says, and when the sweeper comes again.

* `Limiter.tracked` : the clients that are kept;
* `Limiter.bucket?_sweep_eq_some_iff` : a sweep leaves the buckets that were seen within the idle
  timeout;
* `Limiter.sweep_fst_eq`, `Limiter.gauge_sweep` : the number that a sweep returns, and the one that the
  gauge shows;
* `Sweeper.next_advance_le`, `Sweeper.isDue_advance` : the next sweep comes within an interval, and not
  at the same moment.
-/

namespace Gatehouse

theorem tick_le (now : Moment) : tick now ≤ now := Nat.div_mul_le_self now 1000000

theorem lt_tick_add (now : Moment) : now < tick now + Span.millis 1 := by
  have hmod : now % 1000000 < 1000000 := Nat.mod_lt _ (by decide)
  have hdiv : tick now + now % 1000000 = now := Nat.div_add_mod' now 1000000
  calc now = tick now + now % 1000000 := hdiv.symm
    _ < tick now + Span.millis 1 := Nat.add_lt_add_left hmod _

/-! ## Series by their names -/

namespace Metrics

def value? (m : Metrics) (name : String) : Option Series.Value :=
  (m.find? fun s => s.name = name ∧ s.labels = []).map (·.value)

theorem value?_setGauge (m : Metrics) (name : String) (n : Nat) :
    (setGauge name [] n m).value? name = some (.gauge n) := by
  unfold value? setGauge
  induction m with
  | nil => simp [change]
  | cons s m ih =>
    by_cases hsame : s.name = name ∧ s.labels = []
    · simp [change, hsame]
    · by_cases hbefore : name < s.name ∨ name = s.name ∧ labelsBefore [] s.labels = true
      · rw [change, if_neg hsame, if_pos hbefore]
        simp
      · rw [change, if_neg hsame, if_neg hbefore, List.find?_cons_of_neg (by simpa using hsame)]
        exact ih

/-- Metrics with the measurements among some more events. -/
def note (m : Metrics) (events : List Event) : Metrics :=
  (Event.measurements events).foldl record m

end Metrics

/-! ## Sweeps -/

namespace Bucket

variable {α : Type} [TokenArithmetic α]

theorem tryAcquire_lastSeen (capacity rate : α) (b : Bucket α) (now : Moment) :
    (b.tryAcquire capacity rate now).2.lastSeen = now := by
  unfold tryAcquire
  dsimp only
  split <;> rfl

end Bucket

namespace Limiter

variable {α : Type}

def tracked (l : Limiter α) : Set String := {client | (l.bucket? client).isSome = true}

theorem mem_tracked_iff (l : Limiter α) (client : String) :
    client ∈ l.tracked ↔ ∃ b, l.bucket? client = some b := Option.isSome_iff_exists

theorem tracked_eq (l : Limiter α) : l.tracked = ((l.buckets.map Prod.fst).toFinset : Set String) := by
  ext client
  rw [Finset.mem_coe, List.mem_toFinset, List.mem_map]
  refine List.lookup_isSome_iff.trans (exists_congr fun e => and_congr_right fun _ => ?_)
  exact beq_iff_eq.trans eq_comm

theorem finite_tracked (l : Limiter α) : l.tracked.Finite := by
  rw [tracked_eq]
  exact Finset.finite_toSet _

theorem size_eq_ncard {l : Limiter α} (hl : l.Keyed) : l.size = l.tracked.ncard := by
  rw [tracked_eq, Set.ncard_coe_finset, List.toFinset_card_of_nodup hl, List.length_map]
  rfl

theorem isFresh_iff {l : Limiter α} {now : Moment} {b : Bucket α} :
    l.isFresh now b = true ↔ now ≤ b.lastSeen + l.idleTimeout := by
  unfold isFresh elapsed
  rw [decide_eq_true_iff, Nat.sub_le_iff_le_add']

/-- After a sweep a client has the bucket it had, if it was seen within the idle timeout. -/
theorem bucket?_sweep_eq_some_iff {l : Limiter α} (hl : l.Keyed) {client : String} {now : Moment}
    {b : Bucket α} : (l.sweep now).2.1.bucket? client = some b ↔
      l.bucket? client = some b ∧ now ≤ b.lastSeen + l.idleTimeout := by
  rw [bucket?_sweep l client now hl, Option.filter_eq_some_iff, isFresh_iff]

theorem keyed_sweep {l : Limiter α} (hl : l.Keyed) (now : Moment) : (l.sweep now).2.1.Keyed :=
  hl.sublist (List.filter_sublist.map _)

theorem tracked_sweep_subset {l : Limiter α} (hl : l.Keyed) (now : Moment) :
    (l.sweep now).2.1.tracked ⊆ l.tracked := by
  intro client hc
  obtain ⟨b, hb⟩ := (mem_tracked_iff _ _).mp hc
  exact (mem_tracked_iff _ _).mpr ⟨b, ((bucket?_sweep_eq_some_iff hl).mp hb).1⟩

theorem sweep_fst_eq {l : Limiter α} (hl : l.Keyed) (now : Moment) :
    (l.sweep now).1 = (l.tracked \ (l.sweep now).2.1.tracked).ncard := by
  rw [Set.ncard_sdiff (tracked_sweep_subset hl now) (finite_tracked _), ← size_eq_ncard hl,
    ← size_eq_ncard (keyed_sweep hl now)]
  rfl

theorem gauge_sweep {l : Limiter α} (hl : l.Keyed) (now : Moment) (m : Metrics)
    {more : List Event} (hmore : Event.measurements more = []) :
    (m.note ((l.sweep now).2.2 ++ more)).value? Metrics.limiterClients =
      some (.gauge (l.sweep now).2.1.tracked.ncard) := by
  rw [← size_eq_ncard (keyed_sweep hl now)]
  have hevents : Event.measurements ((l.sweep now).2.2 ++ more) =
      [.clients (l.sweep now).2.1.size] := by
    rw [Event.measurements, List.filterMap_append, ← Event.measurements, ← Event.measurements, hmore]
    rfl
  unfold Metrics.note
  rw [hevents]
  exact Metrics.value?_setGauge m _ _

end Limiter

namespace Sweeper

variable {s : Sweeper} {now : Moment}

theorem next_advance (s : Sweeper) (now : Moment) :
    (s.advance now).next = s.next + (tick now - s.next) / s.interval * s.interval + s.interval := by
  unfold advance
  rw [Nat.add_mul, Nat.one_mul, ← Nat.add_assoc]

theorem interval_advance (s : Sweeper) (now : Moment) : (s.advance now).interval = s.interval := by
  -- for any moment, since the moments themselves take long to compare
  have hmk (next : Moment) (interval : Span) : (Sweeper.mk next interval).interval = interval := rfl
  exact hmk _ _

theorem next_advance_le (hdue : isDue s.next now = true) :
    (s.advance now).next ≤ now + s.interval := by
  have hnext : s.next ≤ tick now := of_decide_eq_true hdue
  have hpast : s.next + (tick now - s.next) / s.interval * s.interval ≤ tick now :=
    Nat.add_le_of_le_sub' hnext (Nat.div_mul_le_self _ _)
  rw [next_advance]
  exact Nat.add_le_add_right (Nat.le_trans hpast (tick_le now)) _

/-- Once awake a sweeper has nothing more to do at the same moment, however long it has slept. -/
theorem isDue_advance (hinterval : 0 < s.interval) (hdue : isDue s.next now = true) :
    isDue (s.advance now).next now = false := by
  have hnext : s.next ≤ tick now := of_decide_eq_true hdue
  have hlater : tick now - s.next < (tick now - s.next) / s.interval * s.interval + s.interval :=
    Nat.lt_div_mul_add hinterval
  refine decide_eq_false (Nat.not_le.mpr ?_)
  rw [next_advance, Nat.add_assoc]
  exact (Nat.sub_lt_iff_lt_add' hnext).mp hlater

theorem isDue_wake {α : Type} (hinterval : 0 < s.interval) (l : Limiter α) (now : Moment) :
    isDue (s.wake l now).1.next now = false := by
  unfold wake
  cases hdue : isDue s.next now with
  | false => exact hdue
  | true => exact isDue_advance hinterval hdue

end Sweeper

end Gatehouse
