import Gatehouse.Telemetry.Metrics
import Mathlib.Algebra.Ring.Nat
import Mathlib.Data.List.Basic
import Mathlib.Data.List.Induction

/-!
# Totals of series

What has been measured is spread over many series. Summed over the series of one name, whatever
their labels, the counters say how many measurements of a kind there were, and the series of spans
how many spans.

* `Metrics.weigh` : a sum over the series of a name;
* `weigh_change` : what one more measurement adds to such a sum;
* `count_ofMeasurements` : a sum that every measurement of a kind adds one to;
* `Metrics.total`, `Metrics.samples` : the two sums, of counters and of spans;
* `total_ofMeasurements`, `total_requests`, `samples_ofMeasurements` : the sums as numbers of
  measurements;
* `Metrics.carries` : a test of one label.
-/

namespace Gatehouse

def Series.Value.counted : Value → Nat
  | counter n => n
  | _ => 0

def Series.Value.sampled : Value → Nat
  | spans ss => ss.length
  | _ => 0

/-- The labels of a measurement that counts a request. -/
def Measurement.requestLabels? : Measurement → Option (List (String × String))
  | request method status service outcome _ =>
    some [("method", .ofList method), ("status", .ofList (Text.decimal status.code)),
      ("service", service), ("outcome", outcome)]
  | _ => none

/-- The series of counters that a measurement counts in: its name and its labels. -/
def Measurement.counter? : Measurement → Option (String × List (String × String))
  | .rateLimited => some (Metrics.rateLimitedTotal, [])
  | .circuitRefusal service => some (Metrics.circuitRefusals, [("service", service)])
  | m => m.requestLabels?.map fun labels => (Metrics.requestsTotal, labels)

/-- The labels of the series of spans that a measurement adds to. -/
def Measurement.durationLabels? : Measurement → Option (List (String × String))
  | request method _ service _ _ => some [("method", .ofList method), ("service", service)]
  | _ => none

namespace Metrics

/-! ## Sums -/

section Weigh
variable (μ : Series.Value → Nat) (name : String) (p : List (String × String) → Bool)

/-- The sum of a measure of values over the series of a name whose labels pass a test. -/
def weigh (m : Metrics) : Nat :=
  ((m.filter fun s => s.name = name ∧ p s.labels = true).map fun s => μ s.value).sum

theorem weigh_cons (s : Series) (m : Metrics) :
    weigh μ name p (s :: m) =
      (if s.name = name ∧ p s.labels = true then μ s.value else 0) + weigh μ name p m := by
  unfold weigh
  by_cases hs : s.name = name ∧ p s.labels = true
  · rw [if_pos hs, List.filter_cons_of_pos (by simpa using hs), List.map_cons, List.sum_cons]
  · rw [if_neg hs, List.filter_cons_of_neg (by simpa using hs), Nat.zero_add]

/-- A change that raises the measure of every value by `d` raises the sum by `d`, if the series is
one of those that are summed. -/
theorem weigh_change (n : String) (labels : List (String × String))
    (f : Option Series.Value → Series.Value) (d : Nat)
    (hf : n = name → p labels = true → μ (f none) = d ∧ ∀ v, μ (f (some v)) = μ v + d)
    (m : Metrics) :
    weigh μ name p (change n labels f m) =
      weigh μ name p m + if n = name ∧ p labels = true then d else 0 := by
  have hnew : (if n = name ∧ p labels = true then μ (f none) else 0) =
      if n = name ∧ p labels = true then d else 0 := by
    split_ifs with h
    · exact (hf h.1 h.2).1
    · rfl
  induction m with
  | nil => rw [change, weigh_cons, hnew, Nat.add_comm]
  | cons s m ih =>
    rw [change]
    by_cases hsame : s.name = n ∧ s.labels = labels
    · rw [if_pos hsame]
      obtain ⟨rfl, rfl⟩ := hsame
      rw [weigh_cons, weigh_cons]
      dsimp only
      by_cases h : s.name = name ∧ p s.labels = true
      · rw [if_pos h, if_pos h, if_pos h, (hf h.1 h.2).2]
        omega
      · rw [if_neg h, if_neg h, if_neg h]
        omega
    · rw [if_neg hsame]
      by_cases hbefore : n < s.name ∨ n = s.name ∧ labelsBefore labels s.labels = true
      · rw [if_pos hbefore, weigh_cons]
        exact (Nat.add_comm ..).trans (congrArg _ hnew)
      · rw [if_neg hbefore, weigh_cons, weigh_cons, ih, Nat.add_assoc]

variable {name} in
theorem weigh_change_of_ne {n : String} (h : n ≠ name) (labels : List (String × String))
    (f : Option Series.Value → Series.Value) (m : Metrics) :
    weigh μ name p (change n labels f m) = weigh μ name p m := by
  refine (weigh_change μ name p n labels f 0 (fun hn => absurd hn h) m).trans ?_
  rw [if_neg fun hn => h hn.1]
  rfl

end Weigh

/-- The counters of a name, summed over the labels that pass a test. -/
def total (name : String) (p : List (String × String) → Bool) : Metrics → Nat :=
  weigh Series.Value.counted name p

/-- The number of spans of a name, over the labels that pass a test. -/
def samples (name : String) (p : List (String × String) → Bool) : Metrics → Nat :=
  weigh Series.Value.sampled name p

section Record
variable (name : String) (p : List (String × String) → Bool) (m : Metrics)

theorem total_increment (n : String) (labels : List (String × String)) :
    total name p (increment n labels m) =
      total name p m + if n = name ∧ p labels = true then 1 else 0 := by
  refine weigh_change _ name p n labels _ 1 (fun _ _ => ⟨rfl, fun v => ?_⟩) m
  cases v with
  | counter n => rfl
  | gauge n => rfl
  | spans ss => rfl

variable {name} in
theorem total_setGauge {n : String} (h : n ≠ name) (labels : List (String × String)) (value : Nat) :
    total name p (setGauge n labels value m) = total name p m :=
  weigh_change_of_ne _ p h labels _ m

variable {name} in
theorem total_observe {n : String} (h : n ≠ name) (labels : List (String × String)) (span : Span) :
    total name p (observe n labels span m) = total name p m :=
  weigh_change_of_ne _ p h labels _ m

theorem samples_observe (n : String) (labels : List (String × String)) (span : Span) :
    samples name p (observe n labels span m) =
      samples name p m + if n = name ∧ p labels = true then 1 else 0 := by
  refine weigh_change _ name p n labels _ 1 (fun _ _ => ⟨rfl, fun v => ?_⟩) m
  cases v with
  | counter n => rfl
  | gauge n => rfl
  | spans ss => exact List.length_append

variable {name} in
theorem samples_increment {n : String} (h : n ≠ name) (labels : List (String × String)) :
    samples name p (increment n labels m) = samples name p m :=
  weigh_change_of_ne _ p h labels _ m

variable {name} in
theorem samples_setGauge {n : String} (h : n ≠ name) (labels : List (String × String))
    (value : Nat) : samples name p (setGauge n labels value m) = samples name p m :=
  weigh_change_of_ne _ p h labels _ m

end Record

/-! ## What measurements add up to -/

def counters : List String := [requestsTotal, rateLimitedTotal, circuitRefusals]

def ofMeasurements (ms : List Measurement) : Metrics := ms.foldl record []

theorem ofMeasurements_concat (ms : List Measurement) (x : Measurement) :
    ofMeasurements (ms ++ [x]) = record (ofMeasurements ms) x := by
  unfold ofMeasurements
  rw [List.foldl_append]
  rfl

/-- A size that grows by one with the measurements that pass a test counts them. -/
theorem count_ofMeasurements {size : Metrics → Nat} {test : Measurement → Bool}
    (hempty : size [] = 0)
    (hrecord : ∀ m x, size (record m x) = size m + if test x = true then 1 else 0)
    (ms : List Measurement) : size (ofMeasurements ms) = ms.countP test := by
  induction ms using List.reverseRecOn with
  | nil => exact hempty
  | append_singleton ms x ih =>
    rw [ofMeasurements_concat, hrecord, ih, List.countP_append, List.countP_singleton]

variable (p : List (String × String) → Bool)

/-- A measurement counts once, in the series that it is for. -/
theorem total_record {name : String} (hname : name ∈ counters) (m : Metrics) (x : Measurement) :
    total name p (record m x) =
      total name p m + if (x.counter?.any fun c => c.1 = name ∧ p c.2 = true) = true then 1 else 0 := by
  have hduration : requestDuration ≠ name := by
    rintro rfl
    revert hname
    decide
  have hclients : limiterClients ≠ name := by
    rintro rfl
    revert hname
    decide
  have hstate : circuitState ≠ name := by
    rintro rfl
    revert hname
    decide
  cases x with
  | request method status service outcome duration =>
    refine (total_observe p _ hduration _ duration).trans ((total_increment name p m _ _).trans ?_)
    simp [Measurement.counter?, Measurement.requestLabels?]
  | rateLimited =>
    refine (total_increment name p m _ _).trans ?_
    simp [Measurement.counter?]
  | clients count => exact total_setGauge p m hclients _ count
  | circuit service state => exact total_setGauge p m hstate _ state.gauge
  | circuitRefusal service =>
    refine (total_increment name p m _ _).trans ?_
    simp [Measurement.counter?]

theorem samples_record (m : Metrics) (x : Measurement) :
    samples requestDuration p (record m x) =
      samples requestDuration p m + if x.durationLabels?.any p = true then 1 else 0 := by
  cases x with
  | request method status service outcome duration =>
    refine (samples_observe requestDuration p _ _ _ duration).trans ?_
    rw [samples_increment p m (by decide)]
    refine congrArg _ (if_congr ?_ rfl rfl)
    simp [Measurement.durationLabels?]
  | rateLimited => exact samples_increment p m (by decide) _
  | clients count => exact samples_setGauge p m (by decide) _ count
  | circuit service state => exact samples_setGauge p m (by decide) _ state.gauge
  | circuitRefusal service => exact samples_increment p m (by decide) _

/-- A counter says how many measurements there were for it. -/
theorem total_ofMeasurements {name : String} (hname : name ∈ counters) (ms : List Measurement) :
    total name p (ofMeasurements ms) =
      ms.countP fun x => x.counter?.any fun c => c.1 = name ∧ p c.2 = true :=
  count_ofMeasurements rfl (total_record p hname) ms

/-- Requests are counted as such, and by nothing else. -/
theorem total_requests (ms : List Measurement) :
    total requestsTotal p (ofMeasurements ms) = ms.countP fun x => x.requestLabels?.any p := by
  rw [total_ofMeasurements p (by decide)]
  refine List.countP_congr fun x _ => ?_
  cases x with
  | request method status service outcome duration =>
    simp [Measurement.counter?, Measurement.requestLabels?]
  | rateLimited =>
    have hname : rateLimitedTotal ≠ requestsTotal := by decide
    simp [Measurement.counter?, Measurement.requestLabels?, hname]
  | clients count => exact iff_of_false Bool.false_ne_true Bool.false_ne_true
  | circuit service state => exact iff_of_false Bool.false_ne_true Bool.false_ne_true
  | circuitRefusal service =>
    have hname : circuitRefusals ≠ requestsTotal := by decide
    simp [Measurement.counter?, Measurement.requestLabels?, hname]

theorem samples_ofMeasurements (ms : List Measurement) :
    samples requestDuration p (ofMeasurements ms) = ms.countP fun x => x.durationLabels?.any p :=
  count_ofMeasurements rfl (samples_record p) ms

/-! ## Labels -/

/-- Whether a label has a value. -/
def carries (key value : String) (labels : List (String × String)) : Bool :=
  labels.lookup key = some value

theorem carries_cons (key value k v : String) (labels : List (String × String)) :
    carries key value ((k, v) :: labels) =
      if key = k then decide (v = value) else carries key value labels := by
  unfold carries
  rw [List.lookup_cons]
  by_cases h : key = k
  · rw [if_pos h, beq_iff_eq.mpr h]
    simp
  · rw [if_neg h, beq_false_of_ne h]

end Metrics

end Gatehouse
