import Gatehouse.Proofs.RateLimit.Buckets
import Gatehouse.Proofs.RateLimit.Headroom

/-!
# The token bucket law of a limiter

Every attempt at a limiter is decided by the law of its client's bucket, read off the history: the
attempts that the bucket has admitted since it was created. Tokens are exact fractions.

* `Limiter.admissions` : the admissions of the present bucket of a client;
* `Limiter.Holds` : the invariant: what a bucket holds is what its admissions leave;
* `Limiter.Law`, `law_run` : the law, after every run.
-/

namespace Gatehouse.Limiter

def run (capacity : Nat) (rate : Rat) (idle interval : Span) (start : Moment)
    (moves : List (Move Action)) : Instant (Limiter Rat) :=
  (Instant.mk start (new capacity rate idle interval)).run act moves

def past (capacity : Nat) (rate : Rat) (idle interval : Span) (start : Moment)
    (moves : List (Move Action)) : List (Occurrence (Limiter Rat) Action) :=
  (Instant.mk start (new capacity rate idle interval)).history act moves

/-- The admissions of a bucket after one more action. A bucket that is swept away takes them along. -/
def noteAdmission (client : String) (admitted : List Moment) (o : Occurrence (Limiter Rat) Action) :
    List Moment :=
  if (o.after.bucket? client).isNone then []
  else if o.action = .attempt client ∧ (o.before.attempt client o.moment).1 = true then
    admitted ++ [o.moment]
  else admitted

/-- The moments at which the present bucket of a client has admitted an attempt. -/
def admissions (client : String) (history : List (Occurrence (Limiter Rat) Action)) : List Moment :=
  history.foldl (noteAdmission client) []

theorem admissions_concat (client : String) (history : List (Occurrence (Limiter Rat) Action))
    (o : Occurrence (Limiter Rat) Action) :
    admissions client (history ++ [o]) = noteAdmission client (admissions client history) o :=
  List.foldl_concat _ _ _ _

/-! ## The invariant -/

/-- What the bucket of a client holds is what its admissions leave. -/
structure Holds (capacity rate : Rat) (client : String) (admitted : List Moment) (now : Moment)
    (l : Limiter Rat) : Prop where
  capacity_eq : l.capacity = capacity
  rate_eq : l.rate = rate
  keyed : l.Keyed
  lawful : Bucket.Lawful capacity rate admitted
  nil_of_none : l.bucket? client = none → admitted = []
  agrees : ∀ b, l.bucket? client = some b → b.lastRefill ≤ now ∧ b.Agrees capacity rate admitted

namespace Holds

variable {capacity rate : Rat} {client : String} {admitted : List Moment} {now : Moment}
  {l : Limiter Rat}

/-- The bucket that an attempt meets holds what the admissions leave. -/
theorem met (h : Holds capacity rate client admitted now l) (hr : 0 ≤ rate) :
    (l.met client now).lastRefill ≤ now ∧
      (l.met client now).Agrees capacity rate admitted := by
  unfold Limiter.met
  cases hb : l.bucket? client with
  | none =>
    rw [h.nil_of_none hb, h.capacity_eq]
    exact ⟨Nat.le_refl now, Bucket.Agrees.full hr now⟩
  | some b => exact h.agrees b hb

theorem attempt_iff (h : Holds capacity rate client admitted now l) (hr : 0 ≤ rate) :
    (l.attempt client now).1 = true ↔ Bucket.Allows capacity rate admitted now := by
  obtain ⟨hb, ha⟩ := h.met hr
  rw [attempt_fst, h.capacity_eq, h.rate_eq]
  exact ha.tryAcquire_iff hb

theorem wait (h : Holds capacity rate client admitted now l) (span : Span) :
    Holds capacity rate client admitted (now + span) l :=
  { h with
    agrees := fun b hb =>
      ⟨Nat.le_trans (h.agrees b hb).1 (Nat.le_add_right now span), (h.agrees b hb).2⟩ }

theorem attempt (h : Holds capacity rate client admitted now l) (hr : 0 ≤ rate) :
    Holds capacity rate client
      (if (l.attempt client now).1 = true then admitted ++ [now] else admitted) now
      (l.attempt client now).2 := by
  obtain ⟨hb, ha⟩ := h.met hr
  have hfst := attempt_fst l client now
  rw [h.capacity_eq, h.rate_eq] at hfst
  refine ⟨h.capacity_eq, h.rate_eq, nodup_put h.keyed, ?_, fun hn => ?_, fun b hb' => ?_⟩
  · split_ifs with hadm
    · exact h.lawful.concat ((h.attempt_iff hr).1 hadm)
    · exact h.lawful
  · rw [bucket?_attempt] at hn
    cases hn
  · rw [bucket?_attempt, h.capacity_eq, h.rate_eq, Option.some.injEq] at hb'
    subst hb'
    refine ⟨(Bucket.tryAcquire_seen _ _ _ _).1.le, ?_⟩
    split_ifs with hadm
    · exact ha.tryAcquire_admitted hb (hfst ▸ hadm)
    · exact ha.tryAcquire_refused hr hb (hfst ▸ Bool.eq_false_iff.mpr hadm)

theorem frame (h : Holds capacity rate client admitted now l) {a : Action}
    (hb : (Limiter.act now l a).bucket? client = l.bucket? client)
    (ha : a ≠ .attempt client) :
    Holds capacity rate client (noteAdmission client admitted ⟨now, a, l, Limiter.act now l a⟩) now
      (Limiter.act now l a) := by
  have hadm : noteAdmission client admitted ⟨now, a, l, Limiter.act now l a⟩ = admitted := by
    unfold noteAdmission
    split_ifs with hn hadm
    · exact (h.nil_of_none (hb ▸ Option.isNone_iff_eq_none.mp hn)).symm
    · exact absurd hadm.1 ha
    · rfl
  obtain ⟨hc, hr, -⟩ := act_settings l now a
  rw [hadm]
  exact ⟨hc.trans h.capacity_eq, hr.trans h.rate_eq, h.keyed.act now a, h.lawful,
    hb ▸ h.nil_of_none, hb ▸ h.agrees⟩

theorem evict (h : Holds capacity rate client admitted now l) {a : Action}
    (hb : (Limiter.act now l a).bucket? client = none) :
    Holds capacity rate client (noteAdmission client admitted ⟨now, a, l, Limiter.act now l a⟩) now
      (Limiter.act now l a) := by
  have hadm : noteAdmission client admitted ⟨now, a, l, Limiter.act now l a⟩ = [] := by
    unfold noteAdmission
    rw [hb]
    rfl
  obtain ⟨hc, hr, -⟩ := act_settings l now a
  rw [hadm]
  refine ⟨hc.trans h.capacity_eq, hr.trans h.rate_eq, h.keyed.act now a, .nil, fun _ => rfl, ?_⟩
  intro b hb'
  rw [hb] at hb'
  cases hb'

theorem act (h : Holds capacity rate client admitted now l) (hr : 0 ≤ rate) (a : Action) :
    Holds capacity rate client (noteAdmission client admitted ⟨now, a, l, Limiter.act now l a⟩) now
      (Limiter.act now l a) := by
  by_cases ha : a = .attempt client
  · subst ha
    have hadm : noteAdmission client admitted
        ⟨now, .attempt client, l, Limiter.act now l (.attempt client)⟩ =
          if (l.attempt client now).1 = true then admitted ++ [now] else admitted := by
      simp [noteAdmission, Limiter.act, step]
    rw [hadm]
    exact h.attempt hr
  · rcases bucket?_act_of_ne h.keyed client now ha with hsame | ⟨-, -, -, hnone⟩
    · exact h.frame hsame ha
    · exact h.evict hnone

end Holds

theorem holds_run (capacity : Nat) {rate : Rat} (hr : 0 ≤ rate) (idle interval : Span)
    (start : Moment) (moves : List (Move Action)) (client : String) :
    Holds capacity rate client (admissions client (past capacity rate idle interval start moves))
      (run capacity rate idle interval start moves).now
      (run capacity rate idle interval start moves).state := by
  refine Instant.history_induction act
    (P := fun h now l => Holds capacity rate client (admissions client h) now l)
    ⟨start, new capacity rate idle interval⟩ ?_ ?_ ?_ moves
  · exact ⟨rfl, rfl, keyed_new capacity rate idle interval, .nil, fun _ => rfl,
      fun b hb => nomatch hb⟩
  · intro h now l span hl
    exact hl.wait span
  · intro h now l a hl
    rw [admissions_concat]
    exact hl.act hr a

/-! ## The bucket between two attempts -/

/-- A bucket that has been seen within the idle timeout stays as it is while its client does
nothing. -/
theorem bucket?_run_of_seen {client : String} {b : Bucket Rat} (between : List (Move Action))
    (hm : Move.act (.attempt client) ∉ between) (s : Instant (Limiter Rat)) (hk : s.state.Keyed)
    (hb : s.state.bucket? client = some b)
    (ht : (s.run act between).now ≤ b.lastSeen + s.state.idleTimeout) :
    (s.run act between).state.bucket? client = some b := by
  induction between generalizing s with
  | nil => exact hb
  | cons m between ih =>
    rw [List.mem_cons, not_or] at hm
    rw [Instant.run_cons] at ht ⊢
    cases m with
    | wait span => exact ih hm.2 _ hk hb ht
    | act a =>
      have ha : a ≠ .attempt client := fun ha => hm.1 (by rw [ha])
      have hnow : s.now ≤ b.lastSeen + s.state.idleTimeout :=
        Nat.le_trans (Instant.now_le_run act (s.move act (.act a)) between) ht
      rw [← (act_settings s.state s.now a).2.2] at ht
      refine ih hm.2 _ (hk.act s.now a) ?_ ht
      have hfresh : s.state.isFresh s.now b = true :=
        decide_eq_true (Nat.sub_le_of_le_add (Nat.le_trans hnow (Nat.le_of_eq (Nat.add_comm _ _))))
      rcases bucket?_act_of_ne hk client s.now ha with hsame | ⟨b', hb', hidle, -⟩
      · exact hsame.trans hb
      · obtain rfl : b = b' := Option.some.inj (hb.symm.trans hb')
        rw [hfresh] at hidle
        cases hidle

/-! ## The law -/

/-- The token bucket law at a state `s` of a limiter with some history. -/
structure Law (capacity : Nat) (rate : Rat) (client : String) (s : Instant (Limiter Rat))
    (history : List (Occurrence (Limiter Rat) Action)) : Prop where
  /-- An attempt is admitted exactly when the law allows it: nothing more, and nothing less. -/
  admitted_iff : (s.state.attempt client s.now).1 = true ↔
    Bucket.Allows capacity rate (admissions client history) s.now
  /-- What a bucket has admitted in any window is bounded. -/
  window_le : ∀ start span,
    (((admissions client history).filter fun t => start ≤ t ∧ t ≤ start + span).length : Rat) ≤
      capacity + rate * Span.exact span
  /-- A refused attempt changes nothing for the next one, whenever that comes. -/
  refused_free : (s.state.attempt client s.now).1 = false → ∀ span,
    (s.state.attempt client s.now).2.attempt client (s.now + span) =
      s.state.attempt client (s.now + span)
  /-- The bucket that an attempt leaves, admitted or not, is the one that the next attempt meets
  if that comes within the idle timeout, whatever happens in between. -/
  kept : ∀ between, Move.act (.attempt client) ∉ between →
    ((s.move act (.act (.attempt client))).run act between).now ≤ s.now + s.state.idleTimeout →
      ((s.move act (.act (.attempt client))).run act between).state.bucket? client =
        (s.state.attempt client s.now).2.bucket? client

/-- A refused attempt leaves no trace in a later one. -/
theorem Holds.attempt_of_refused {capacity rate : Rat} {client : String} {admitted : List Moment}
    {now : Moment} {l : Limiter Rat} (h : Holds capacity rate client admitted now l) (hr : 0 ≤ rate)
    (ha : (l.attempt client now).1 = false) (span : Span) :
    (l.attempt client now).2.attempt client (now + span) = l.attempt client (now + span) := by
  have hrate : 0 ≤ l.rate := h.rate_eq.symm ▸ hr
  have hmet : (l.attempt client now).2.met client (now + span) =
      ((l.met client now).tryAcquire l.capacity l.rate now).2 := by
    unfold Limiter.met
    rw [bucket?_attempt]
    rfl
  have hb : (((l.met client now).tryAcquire l.capacity l.rate now).2).tryAcquire l.capacity l.rate
      (now + span) = (l.met client (now + span)).tryAcquire l.capacity l.rate (now + span) := by
    rw [Bucket.tryAcquire_of_refused hrate (h.met hr).1 (Nat.le_add_right now span) ha]
    unfold Limiter.met
    cases l.bucket? client with
    | none => exact Bucket.tryAcquire_full hrate now (now + span)
    | some b => rfl
  have hfst := attempt_fst (l.attempt client now).2 client (now + span)
  have hsnd := attempt_snd (l.attempt client now).2 client (now + span)
  rw [hmet] at hfst hsnd
  refine Prod.ext ?_ ?_
  · exact hfst.trans (congrArg Prod.fst hb)
  · rw [hsnd, attempt_snd l client (now + span), ← hb, attempt_snd l client now]
    simp only [put_put]

/-- **The token bucket law.** After every run of attempts, sweeps and waits, an attempt of any client
is decided by the windows of what its bucket has admitted. -/
theorem law_run (capacity : Nat) (rate : Rat) (hr : 0 ≤ rate) (idle interval : Span)
    (start : Moment) (moves : List (Move Action)) (client : String) :
    Law capacity rate client (run capacity rate idle interval start moves)
      (past capacity rate idle interval start moves) := by
  have h := holds_run capacity hr idle interval start moves client
  refine ⟨h.attempt_iff hr, h.lawful.window_le (Nat.cast_nonneg capacity) hr,
    h.attempt_of_refused hr, fun between hm ht => ?_⟩
  rw [bucket?_attempt]
  refine bucket?_run_of_seen between hm _ (nodup_put h.keyed) (bucket?_attempt _ _ _) ?_
  rw [(Bucket.tryAcquire_seen _ _ _ _).2]
  exact ht

/-- Two tokens and one more a second: of three attempts at one moment the third is refused. -/
theorem law_run_two_tokens :
    (0 : Rat) ≤ 1 ∧
      admissions "a" (past 2 1 (Span.seconds 60) (Span.seconds 60) 0
        [.act (.attempt "a"), .act (.attempt "a"), .act (.attempt "a"), .wait (Span.millis 500)]) =
          [0, 0] ∧
      Law 2 1 "a"
        (run 2 1 (Span.seconds 60) (Span.seconds 60) 0
          [.act (.attempt "a"), .act (.attempt "a"), .act (.attempt "a"), .wait (Span.millis 500)])
        (past 2 1 (Span.seconds 60) (Span.seconds 60) 0
          [.act (.attempt "a"), .act (.attempt "a"), .act (.attempt "a"),
            .wait (Span.millis 500)]) := by
  refine ⟨zero_le_one, ?_, law_run 2 1 zero_le_one _ _ _ _ _⟩
  decide +kernel

end Gatehouse.Limiter
