import Gatehouse.Proofs.RateLimit.Room

/-!
# Racing readings of the clock

An attempt reads the clock before it gets hold of its bucket. So of two attempts at once the one with
the older reading may come second, and then the bucket goes back to that reading and the time up to
the newer one is filled in twice. What a window allows depends on how far the readings go back.

* `Bucket.admissions`, `Bucket.admittedIn` : the attempts that are admitted, in all and in a window;
* `setback` : how far some readings go back;
* `spend` : what is admitted in a window once the bucket has been emptied into it;
* `RaceLaw`, `raceLaw` : what a bucket allows when the readings come in any order;
* `exists_le_admittedIn` : there is no bound that knows the window alone.
-/

namespace Gatehouse

theorem Span.exact_add (s t : Span) : Span.exact (s + t) = Span.exact s + Span.exact t := by
  unfold Span.exact
  rw [Nat.cast_add, add_div]

/-- From the earlier of two moments to the later one, whichever that is. -/
theorem add_elapsed_comm (s t : Moment) : t + elapsed s t = s + elapsed t s := by
  have hnat (m n : Nat) : n + (m - n) = m + (n - m) := by omega
  exact hnat s t

/-- How far some readings of the clock go back, in all. -/
def setback : List Moment → Span
  | earlier :: now :: rest => elapsed earlier now + setback (now :: rest)
  | _ => 0

theorem setback_cons_cons (earlier now : Moment) (rest : List Moment) :
    setback (earlier :: now :: rest) = elapsed earlier now + setback (now :: rest) := rfl

theorem setback_le_cons (now : Moment) (rest : List Moment) : setback rest ≤ setback (now :: rest) := by
  cases rest with
  | nil => exact Nat.le_refl 0
  | cons next rest => exact Nat.le_add_left _ _

/-- Readings in order do not go back. -/
theorem setback_of_pairwise {readings : List Moment} (h : readings.Pairwise (· ≤ ·)) :
    setback readings = 0 := by
  induction readings with
  | nil => rfl
  | cons now rest ih =>
    cases rest with
    | nil => rfl
    | cons next rest =>
      rw [List.pairwise_cons] at h
      have hle : now ≤ next := h.1 next List.mem_cons_self
      rw [setback_cons_cons, ih h.2]
      exact Nat.sub_eq_zero_of_le hle

namespace Bucket

/-! ## Attempts in a row -/

section Runs
variable (capacity rate : Rat)

/-- The bucket after some attempts, each with its own reading of the clock. -/
def raced (b : Bucket Rat) (readings : List Moment) : Bucket Rat :=
  readings.foldl (fun b now => (b.tryAcquire capacity rate now).2) b

def admissions : Bucket Rat → List Moment → List Moment
  | _, [] => []
  | b, now :: rest =>
    (if (b.tryAcquire capacity rate now).1 = true then [now] else []) ++
      admissions (b.tryAcquire capacity rate now).2 rest

/-- How many attempts are admitted with readings in a window. -/
def admittedIn (start : Moment) (span : Span) (b : Bucket Rat) (readings : List Moment) : Nat :=
  ((admissions capacity rate b readings).filter fun t => start ≤ t ∧ t ≤ start + span).length

theorem raced_concat (b : Bucket Rat) (readings : List Moment) (now : Moment) :
    b.raced capacity rate (readings ++ [now]) =
      ((b.raced capacity rate readings).tryAcquire capacity rate now).2 :=
  List.foldl_append

theorem raced_seen (b : Bucket Rat) (readings : List Moment) (now : Moment) :
    (b.raced capacity rate (readings ++ [now])).lastRefill = now ∧
      (b.raced capacity rate (readings ++ [now])).lastSeen = now := by
  rw [raced_concat]
  exact tryAcquire_seen capacity rate _ now

/-- An attempt that comes in order does not move the bucket back. -/
theorem raced_le (b : Bucket Rat) (before : List Moment) (now : Moment)
    (hfirst : b.lastRefill ≤ now ∧ b.lastSeen ≤ now) (hbefore : ∀ earlier ∈ before, earlier ≤ now) :
    (b.raced capacity rate before).lastRefill ≤
        (b.raced capacity rate (before ++ [now])).lastRefill ∧
      (b.raced capacity rate before).lastSeen ≤ (b.raced capacity rate (before ++ [now])).lastSeen := by
  obtain ⟨hrefill, hseen⟩ := raced_seen capacity rate b before now
  rw [hrefill, hseen]
  rcases List.eq_nil_or_concat before with rfl | ⟨earlier, last, rfl⟩
  · exact hfirst
  · rw [List.concat_eq_append] at hbefore ⊢
    obtain ⟨hrefill', hseen'⟩ := raced_seen capacity rate b earlier last
    have hle : last ≤ now := hbefore last List.mem_concat_self
    rw [hrefill', hseen']
    exact ⟨hle, hle⟩

theorem admittedIn_cons (start : Moment) (span : Span) (b : Bucket Rat) (now : Moment)
    (rest : List Moment) :
    admittedIn capacity rate start span b (now :: rest) =
      (if (b.tryAcquire capacity rate now).1 = true ∧ start ≤ now ∧ now ≤ start + span then 1 else 0) +
        admittedIn capacity rate start span (b.tryAcquire capacity rate now).2 rest := by
  unfold admittedIn
  rw [admissions, List.filter_append, List.length_append]
  congr 1
  by_cases hadmitted : (b.tryAcquire capacity rate now).1 = true
  · by_cases hwindow : start ≤ now ∧ now ≤ start + span
    · simp [hadmitted, hwindow]
    · simp [hadmitted, hwindow]
  · simp [hadmitted]

theorem level_le_filled (b : Bucket Rat) (now : Moment) :
    level capacity rate b now ≤ b.tokens + rate * Span.exact (elapsed now b.lastRefill) := by
  rw [level_eq_min]
  exact min_le_right _ _

end Runs

/-! ## Windows -/

section Window
variable (capacity : Rat) {rate : Rat} (hr : 0 ≤ rate) (start : Moment) (span : Span)
include hr

/-- What is admitted in a window is paid for with the tokens of the bucket and with what comes in up to
the end of the window and, once more, for as long as the readings go back. -/
theorem spend (b : Bucket Rat) (readings : List Moment) :
    admittedIn capacity rate start span b readings = 0 ∨
      (admittedIn capacity rate start span b readings : Rat) + rate * Span.exact b.lastRefill ≤
        b.tokens + rate * Span.exact (start + span) +
          rate * Span.exact (setback (b.lastRefill :: readings)) := by
  induction readings generalizing b with
  | nil => exact .inl rfl
  | cons now rest ih =>
    have hlast := (tryAcquire_seen capacity rate b now).1
    have htokens := congrArg tokens (tryAcquire_snd capacity rate b now)
    have hlevel := level_le_filled capacity rate b now
    -- going to `now` fills in what the way there is longer than the way back
    have hmove : rate * Span.exact now + rate * Span.exact (elapsed b.lastRefill now) =
        rate * Span.exact b.lastRefill + rate * Span.exact (elapsed now b.lastRefill) := by
      rw [← mul_add, ← mul_add, ← Span.exact_add, ← Span.exact_add, add_elapsed_comm]
    have hback : rate * Span.exact (setback (b.lastRefill :: now :: rest)) =
        rate * Span.exact (elapsed b.lastRefill now) + rate * Span.exact (setback (now :: rest)) := by
      rw [setback_cons_cons, Span.exact_add, mul_add]
    have hnonneg : 0 ≤ rate * Span.exact (setback (now :: rest)) :=
      mul_nonneg hr (Span.exact_nonneg _)
    have hrest := ih (b.tryAcquire capacity rate now).2
    rw [hlast, htokens] at hrest
    rw [admittedIn_cons, hback]
    generalize admittedIn capacity rate start span (b.tryAcquire capacity rate now).2 rest = n
      at hrest ⊢
    by_cases hadmitted : (b.tryAcquire capacity rate now).1 = true
    · rw [if_pos hadmitted] at hrest
      by_cases hwindow : start ≤ now ∧ now ≤ start + span
      · right
        rw [if_pos ⟨hadmitted, hwindow⟩]
        have hone := (tryAcquire_fst_iff capacity rate b now).mp hadmitted
        have hend : rate * Span.exact now ≤ rate * Span.exact (start + span) :=
          mul_le_mul_of_nonneg_left (Span.exact_mono hwindow.2) hr
        rcases hrest with rfl | hrest
        · push_cast
          linarith
        · push_cast
          linarith
      · rw [if_neg fun h => hwindow h.2, Nat.zero_add]
        rcases hrest with hzero | hrest
        · exact .inl hzero
        · right
          linarith
    · rw [if_neg hadmitted] at hrest
      rw [if_neg fun h => hadmitted h.1, Nat.zero_add]
      rcases hrest with hzero | hrest
      · exact .inl hzero
      · right
        linarith

/-- The first attempt that is admitted in a window leaves one token less than the capacity. -/
theorem admittedIn_le (hc : 0 ≤ capacity) (b : Bucket Rat) (readings : List Moment) :
    (admittedIn capacity rate start span b readings : Rat) ≤
      capacity + rate * Span.exact (span + setback readings) := by
  induction readings generalizing b with
  | nil =>
    have hs := mul_nonneg hr (Span.exact_nonneg (span + setback []))
    exact add_nonneg hc hs
  | cons now rest ih =>
    rw [admittedIn_cons]
    by_cases hfirst : (b.tryAcquire capacity rate now).1 = true ∧ start ≤ now ∧ now ≤ start + span
    · have hcapacity : level capacity rate b now ≤ capacity := level_le_capacity
      have hone := (tryAcquire_fst_iff capacity rate b now).mp hfirst.1
      have htokens := congrArg tokens (tryAcquire_snd capacity rate b now)
      have hspend := spend capacity hr start span (b.tryAcquire capacity rate now).2 rest
      have hstart : rate * Span.exact start ≤ rate * Span.exact now :=
        mul_le_mul_of_nonneg_left (Span.exact_mono hfirst.2.1) hr
      have hspan : 0 ≤ rate * Span.exact (span + setback (now :: rest)) :=
        mul_nonneg hr (Span.exact_nonneg _)
      rw [if_pos hfirst.1] at htokens
      rw [(tryAcquire_seen capacity rate b now).1, htokens, Span.exact_add, mul_add] at hspend
      rw [if_pos hfirst]
      rcases hspend with hzero | hspend
      · rw [hzero]
        push_cast
        linarith
      · rw [Span.exact_add, mul_add]
        push_cast
        linarith
    · have hback : span + setback rest ≤ span + setback (now :: rest) :=
        Nat.add_le_add_left (setback_le_cons now rest) span
      have hle := mul_le_mul_of_nonneg_left (Span.exact_mono hback) hr
      have hrest := ih (b.tryAcquire capacity rate now).2
      rw [if_neg hfirst, Nat.zero_add]
      linarith

end Window

/-! ## The law -/

/-- What a bucket does on attempts whose readings of the clock come in any order. -/
structure RaceLaw (capacity rate : Rat) (b : Bucket Rat) (readings : List Moment) : Prop where
  /-- The bucket goes to the reading of each attempt, also when that is an older one. -/
  moved : ∀ before now after, readings = before ++ now :: after →
    (b.raced capacity rate (before ++ [now])).lastRefill = now ∧
      (b.raced capacity rate (before ++ [now])).lastSeen = now
  /-- No window has more admissions than the capacity and what comes in over it and over the way that
  the readings go back. -/
  window_le : ∀ start span, (admittedIn capacity rate start span b readings : Rat) ≤
    capacity + rate * Span.exact (span + setback readings)
  /-- If the readings come in order then the bucket never goes back, -/
  forwards : readings.Pairwise (· ≤ ·) →
    (∀ now ∈ readings, b.lastRefill ≤ now ∧ b.lastSeen ≤ now) →
    ∀ before now after, readings = before ++ now :: after →
      (b.raced capacity rate before).lastRefill ≤
          (b.raced capacity rate (before ++ [now])).lastRefill ∧
        (b.raced capacity rate before).lastSeen ≤ (b.raced capacity rate (before ++ [now])).lastSeen
  /-- and what comes in over the window is the bound. -/
  window_le_of_ordered : readings.Pairwise (· ≤ ·) →
    ∀ start span, (admittedIn capacity rate start span b readings : Rat) ≤
      capacity + rate * Span.exact span

/-- **A window allows more the further the readings go back in it**, for every bucket and all readings
in any order. -/
theorem raceLaw {capacity rate : Rat} (hc : 0 ≤ capacity) (hr : 0 ≤ rate) (b : Bucket Rat)
    (readings : List Moment) : RaceLaw capacity rate b readings := by
  have hwindow := fun start span => admittedIn_le capacity hr start span hc b readings
  refine ⟨fun before now _ _ => raced_seen capacity rate b before now, hwindow, ?_, ?_⟩
  · rintro hordered hfirst before now after rfl
    have hbefore : ∀ earlier ∈ before, earlier ≤ now := fun earlier hearlier =>
      (List.pairwise_append.mp hordered).2.2 earlier hearlier now List.mem_cons_self
    exact raced_le capacity rate b before now
      (hfirst now (List.mem_append_right before List.mem_cons_self)) hbefore
  · intro hordered start span
    have hle := hwindow start span
    rwa [setback_of_pairwise hordered, Nat.add_zero] at hle

/-! Three attempts on a full bucket for one token, which fills up in ten seconds. The second one has
read the clock before the others. -/

def overtaken : List Moment := [Span.seconds 10, 0, Span.seconds 10]

/-- The bound is reached. -/
theorem raceLaw_overtaken :
    (0 : Rat) ≤ 1 ∧ (0 : Rat) ≤ 1 / 10 ∧ RaceLaw 1 (1 / 10) (full 1 0) overtaken ∧
      (admittedIn 1 (1 / 10) (Span.seconds 10) 0 (full 1 0) overtaken : Rat) =
        1 + 1 / 10 * Span.exact (0 + setback overtaken) := by
  have hc : (0 : Rat) ≤ 1 := by decide
  have hr : (0 : Rat) ≤ 1 / 10 := by decide +kernel
  exact ⟨hc, hr, raceLaw hc hr (full 1 0) overtaken, by decide +kernel⟩

/-- The bucket goes back, and in the window of one moment two are admitted where it holds one. -/
theorem not_forwards_overtaken :
    (raced 1 (1 / 10) (full 1 0) [Span.seconds 10, 0]).lastRefill <
        (raced 1 (1 / 10) (full 1 0) [Span.seconds 10]).lastRefill ∧
      (raced 1 (1 / 10) (full 1 0) [Span.seconds 10, 0]).lastSeen <
        (raced 1 (1 / 10) (full 1 0) [Span.seconds 10]).lastSeen ∧
      ¬ (admittedIn 1 (1 / 10) (Span.seconds 10) 0 (full 1 0) overtaken : Rat) ≤
        1 + 1 / 10 * Span.exact 0 := by
  decide +kernel

/-! ## No bound for the window alone -/

/-- Pairs of readings, the older one second. -/
def backAndForth (t : Moment) : Nat → List Moment
  | 0 => []
  | n + 1 => t :: 0 :: backAndForth t n

/-- Each pair fills the bucket up again by what comes in until `t`. -/
theorem le_admittedIn_backAndForth {capacity rate : Rat} (hc : 1 ≤ capacity) (hr : 0 ≤ rate)
    {t : Moment} (ht : 1 ≤ rate * Span.exact t) (n : Nat) {b : Bucket Rat} (htokens : 0 ≤ b.tokens)
    (hrefill : b.lastRefill = 0) : n ≤ admittedIn capacity rate t 0 b (backAndForth t n) := by
  induction n generalizing b with
  | zero => exact Nat.zero_le _
  | succ n ih =>
    have hone : 1 ≤ level capacity rate b t := by
      rw [level_eq_min, hrefill]
      exact le_min hc (le_add_of_nonneg_of_le htokens ht)
    have hadmitted := (tryAcquire_fst_iff capacity rate b t).mpr hone
    have hleft : ∀ (b : Bucket Rat) now, 0 ≤ b.tokens →
        0 ≤ (b.tryAcquire capacity rate now).2.tokens := by
      intro b now hb
      rw [tryAcquire_snd]
      exact sub_nonneg.mpr (cost_le_level (level_nonneg (zero_le_one.trans hc) hr hb))
    have hrest := ih (hleft _ 0 (hleft b t htokens)) (tryAcquire_seen capacity rate _ 0).1
    rw [backAndForth, admittedIn_cons, admittedIn_cons, if_pos ⟨hadmitted, le_refl t, le_refl t⟩]
    omega

/-- However many attempts there are to be, they can all be admitted with one and the same reading. -/
theorem exists_le_admittedIn {capacity rate : Rat} (hc : 1 ≤ capacity) (hr : 0 < rate) (n : Nat) :
    ∃ readings t, n ≤ admittedIn capacity rate t 0 (full capacity 0) readings := by
  have ht : 1 ≤ rate * Span.exact (Span.seconds rate.den) := by
    rw [Span.exact_seconds, Rat.mul_den_eq_num]
    exact_mod_cast Rat.num_pos.mpr hr
  exact ⟨backAndForth (Span.seconds rate.den) n, Span.seconds rate.den,
    le_admittedIn_backAndForth hc hr.le ht n (zero_le_one.trans hc) rfl⟩

end Bucket

end Gatehouse
