import Gatehouse.Proofs.Telemetry.Totals
import Mathlib.Data.String.Basic
import Mathlib.Tactic.SplitIfs

/-!
# What a series holds

A page of metrics is read by names and labels. It has one series at most for each, since the series
stand in a strict order, and a measurement changes its own series and no other.

* `Metrics.Before` : the order of names with their labels;
* `Metrics.Ordered`, `Metrics.ordered_ofMeasurements` : the series stand in this order;
* `Metrics.reading?` : what the series of a name with some labels holds;
* `Metrics.reading?_change` : what it holds after a change of one series;
* `Event.states`, `Event.refusals` : what some events tell about the breaker of a service;
* `Metrics.reading?_circuitState`, `Metrics.reading?_circuitRefusals` : the two series about a breaker.
-/

namespace Gatehouse

def Series.key (s : Series) : String × List (String × String) := (s.name, s.labels)

namespace Metrics

/-! ## Order -/

theorem labelsBefore_cons_iff {k v l w : String} {a b : List (String × String)} :
    labelsBefore ((k, v) :: a) ((l, w) :: b) = true ↔
      k < l ∨ k = l ∧ (v < w ∨ v = w ∧ labelsBefore a b = true) := by
  simp [labelsBefore]

theorem not_labelsBefore_self (a : List (String × String)) : ¬ labelsBefore a a = true := by
  induction a with
  | nil => exact Bool.false_ne_true
  | cons x a ih =>
    rw [labelsBefore_cons_iff]
    rintro (h | ⟨-, h | ⟨-, h⟩⟩)
    · exact lt_irrefl _ h
    · exact lt_irrefl _ h
    · exact ih h

theorem labelsBefore_trans {a b c : List (String × String)} (hab : labelsBefore a b = true)
    (hbc : labelsBefore b c = true) : labelsBefore a c = true := by
  induction a generalizing b c with
  | nil =>
    cases c with
    | nil => cases b <;> exact absurd hbc Bool.false_ne_true
    | cons z c => rfl
  | cons x a ih =>
    cases b with
    | nil => exact absurd hab Bool.false_ne_true
    | cons y b =>
      cases c with
      | nil => exact absurd hbc Bool.false_ne_true
      | cons z c =>
        rw [labelsBefore_cons_iff] at hab hbc ⊢
        rcases hab with h | ⟨hk, h⟩
        · rcases hbc with h' | ⟨hk', -⟩
          · exact .inl (lt_trans h h')
          · exact .inl (hk' ▸ h)
        · rcases hbc with h' | ⟨hk', h'⟩
          · exact .inl (hk ▸ h')
          · refine .inr ⟨hk.trans hk', ?_⟩
            rcases h with hv | ⟨hv, h⟩
            · rcases h' with hv' | ⟨hv', -⟩
              · exact .inl (lt_trans hv hv')
              · exact .inl (hv' ▸ hv)
            · rcases h' with hv' | ⟨hv', h'⟩
              · exact .inl (hv ▸ hv')
              · exact .inr ⟨hv.trans hv', ih h h'⟩

theorem labelsBefore_trichotomy (a b : List (String × String)) :
    labelsBefore a b = true ∨ a = b ∨ labelsBefore b a = true := by
  induction a generalizing b with
  | nil =>
    cases b with
    | nil => exact .inr (.inl rfl)
    | cons y b => exact .inl rfl
  | cons x a ih =>
    cases b with
    | nil => exact .inr (.inr rfl)
    | cons y b =>
      rw [labelsBefore_cons_iff, labelsBefore_cons_iff]
      rcases lt_trichotomy x.1 y.1 with h | hk | h
      · exact .inl (.inl h)
      · rcases lt_trichotomy x.2 y.2 with h | hv | h
        · exact .inl (.inr ⟨hk, .inl h⟩)
        · rcases ih b with h | rfl | h
          · exact .inl (.inr ⟨hk, .inr ⟨hv, h⟩⟩)
          · exact .inr (.inl (congrArg (· :: a) (Prod.ext hk hv)))
          · exact .inr (.inr (.inr ⟨hk.symm, .inr ⟨hv.symm, h⟩⟩))
        · exact .inr (.inr (.inr ⟨hk.symm, .inl h⟩))
      · exact .inr (.inr (.inl h))

/-- One name with its labels comes before another. -/
def Before (k l : String × List (String × String)) : Prop :=
  k.1 < l.1 ∨ k.1 = l.1 ∧ labelsBefore k.2 l.2 = true

instance (k l : String × List (String × String)) : Decidable (Before k l) :=
  inferInstanceAs (Decidable (k.1 < l.1 ∨ k.1 = l.1 ∧ labelsBefore k.2 l.2 = true))

theorem not_before_self (k : String × List (String × String)) : ¬ Before k k := by
  rintro (h | ⟨-, h⟩)
  · exact lt_irrefl _ h
  · exact not_labelsBefore_self _ h

theorem Before.trans {j k l : String × List (String × String)} (h : Before j k) (h' : Before k l) :
    Before j l := by
  rcases h with h | ⟨hname, h⟩
  · rcases h' with h' | ⟨hname', -⟩
    · exact .inl (lt_trans h h')
    · exact .inl (hname' ▸ h)
  · rcases h' with h' | ⟨hname', h'⟩
    · exact .inl (hname ▸ h')
    · exact .inr ⟨hname.trans hname', labelsBefore_trans h h'⟩

theorem before_trichotomy (k l : String × List (String × String)) :
    Before k l ∨ k = l ∨ Before l k := by
  rcases lt_trichotomy k.1 l.1 with h | hname | h
  · exact .inl (.inl h)
  · rcases labelsBefore_trichotomy k.2 l.2 with h | hlabels | h
    · exact .inl (.inr ⟨hname, h⟩)
    · exact .inr (.inl (Prod.ext hname hlabels))
    · exact .inr (.inr (.inr ⟨hname.symm, h⟩))
  · exact .inr (.inr (.inl h))

/-! ## Series in order -/

/-- The series stand in the order of their names and labels, so there is one at most for each. -/
def Ordered (m : Metrics) : Prop := m.Pairwise fun s t => Before s.key t.key

/-- What the series of a name with some labels holds. -/
def reading? (name : String) (labels : List (String × String)) (m : Metrics) : Option Series.Value :=
  (m.find? fun s => s.key = (name, labels)).map (·.value)

section Change
variable (name : String) (labels : List (String × String)) (f : Option Series.Value → Series.Value)

theorem change_cons (s : Series) (m : Metrics) :
    change name labels f (s :: m) =
      if s.key = (name, labels) then { s with value := f (some s.value) } :: m
      else if Before (name, labels) s.key then ⟨name, labels, f none⟩ :: s :: m
      else s :: change name labels f m := by
  rw [change]
  exact if_congr (Prod.mk.injEq ..).to_iff.symm rfl (if_congr Iff.rfl rfl rfl)

theorem mem_key_change {m : Metrics} {s : Series} (hs : s ∈ change name labels f m) :
    s.key = (name, labels) ∨ ∃ t ∈ m, t.key = s.key := by
  induction m with
  | nil =>
    obtain rfl := List.mem_singleton.mp hs
    exact .inl rfl
  | cons t m ih =>
    rw [change_cons] at hs
    split_ifs at hs with hsame hbefore
    · rcases List.mem_cons.mp hs with rfl | hs
      · exact .inl hsame
      · exact .inr ⟨s, List.mem_cons_of_mem t hs, rfl⟩
    · rcases List.mem_cons.mp hs with rfl | hs
      · exact .inl rfl
      · exact .inr ⟨s, hs, rfl⟩
    · rcases List.mem_cons.mp hs with rfl | hs
      · exact .inr ⟨s, List.mem_cons_self, rfl⟩
      · rcases ih hs with h | ⟨u, hu, h⟩
        · exact .inl h
        · exact .inr ⟨u, List.mem_cons_of_mem t hu, h⟩

theorem Ordered.change {m : Metrics} (hm : Ordered m) : Ordered (change name labels f m) := by
  induction m with
  | nil => exact List.pairwise_singleton _ _
  | cons t m ih =>
    obtain ⟨hhead, htail⟩ := List.pairwise_cons.mp hm
    rw [change_cons]
    split_ifs with hsame hbefore
    · exact List.pairwise_cons.mpr ⟨hhead, htail⟩
    · refine List.pairwise_cons.mpr ⟨fun s hs => ?_, hm⟩
      rcases List.mem_cons.mp hs with rfl | hs
      · exact hbefore
      · exact hbefore.trans (hhead s hs)
    · refine List.pairwise_cons.mpr ⟨fun s hs => ?_, ih htail⟩
      rcases mem_key_change name labels f hs with h | ⟨u, hu, h⟩
      · rw [h]
        rcases before_trichotomy t.key (name, labels) with hlt | heq | hgt
        · exact hlt
        · exact absurd heq hsame
        · exact absurd hgt hbefore
      · exact h ▸ hhead u hu

theorem reading?_cons (n : String) (l : List (String × String)) (s : Series) (m : Metrics) :
    reading? n l (s :: m) = if s.key = (n, l) then some s.value else reading? n l m := by
  unfold reading?
  rw [List.find?_cons]
  by_cases h : s.key = (n, l)
  · rw [if_pos h]
    simp [h]
  · rw [if_neg h]
    simp [h]

/-- Behind a series that comes after a name with labels there is none of them. -/
theorem reading?_eq_none_of_before {n : String} {l : List (String × String)} {m : Metrics}
    (h : ∀ s ∈ m, Before (n, l) s.key) : reading? n l m = none := by
  unfold reading?
  rw [Option.map_eq_none_iff, List.find?_eq_none]
  intro s hs
  have hne : s.key ≠ (n, l) := fun heq => not_before_self _ (heq ▸ h s hs)
  simpa using hne

/-- **A change of a series is seen under its name and labels**, and nowhere else. -/
theorem reading?_change {m : Metrics} (hm : Ordered m) (n : String) (l : List (String × String)) :
    reading? n l (change name labels f m) =
      if (name, labels) = (n, l) then some (f (reading? n l m)) else reading? n l m := by
  induction m with
  | nil => exact reading?_cons n l ⟨name, labels, f none⟩ []
  | cons t m ih =>
    obtain ⟨hhead, htail⟩ := List.pairwise_cons.mp hm
    rw [change_cons]
    by_cases hsame : t.key = (name, labels)
    · rw [if_pos hsame, reading?_cons, reading?_cons]
      show (if t.key = (n, l) then some (f (some t.value)) else reading? n l m) = _
      rw [hsame]
      split_ifs
      · rfl
      · rfl
    · rw [if_neg hsame]
      by_cases hbefore : Before (name, labels) t.key
      · rw [if_pos hbefore, reading?_cons]
        refine ite_congr rfl (fun hkey => ?_) fun _ => rfl
        have hnone : reading? n l (t :: m) = none := by
          refine reading?_eq_none_of_before fun s hs => ?_
          rw [← show (name, labels) = (n, l) from hkey]
          rcases List.mem_cons.mp hs with rfl | hs
          · exact hbefore
          · exact hbefore.trans (hhead s hs)
        rw [hnone]
      · rw [if_neg hbefore, reading?_cons, reading?_cons, ih htail]
        by_cases hkey : (name, labels) = (n, l)
        · rw [if_pos hkey, if_pos hkey, ← hkey, if_neg hsame, if_neg hsame]
        · rw [if_neg hkey, if_neg hkey]

end Change

end Metrics

/-! ## The series about a breaker -/

/-- The state of the breaker of a service, if that is what is measured. -/
def Measurement.state? (service : String) : Measurement → Option Circuit
  | circuit name state => if name = service then some state else none
  | _ => none

theorem Measurement.state?_circuit (service name : String) (state : Circuit) :
    (circuit name state).state? service = if name = service then some state else none := rfl

namespace Event

/-- The states of the breaker of a service that some events show, in order. -/
def states (service : String) (events : List Event) : List Circuit :=
  (measurements events).filterMap (Measurement.state? service)

/-- How many calls to a service some events count as refused. -/
def refusals (service : String) (events : List Event) : Nat :=
  (measurements events).countP (· = .circuitRefusal service)

end Event

namespace Metrics

theorem Ordered.record {m : Metrics} (hm : Ordered m) (x : Measurement) : Ordered (record m x) := by
  cases x with
  | request method status service outcome duration => exact (hm.change ..).change ..
  | rateLimited => exact hm.change ..
  | clients count => exact hm.change ..
  | circuit service state => exact hm.change ..
  | circuitRefusal service => exact hm.change ..

theorem ordered_ofMeasurements (ms : List Measurement) : Ordered (ofMeasurements ms) := by
  induction ms using List.reverseRecOn with
  | nil => exact List.Pairwise.nil
  | append_singleton ms x ih =>
    rw [ofMeasurements_concat]
    exact ih.record x

section Record
variable {m : Metrics} (hm : Ordered m) (service : String) (x : Measurement)
include hm

theorem reading?_change_of_ne {name n : String} (h : name ≠ n) (labels l : List (String × String))
    (f : Option Series.Value → Series.Value) :
    reading? n l (change name labels f m) = reading? n l m := by
  rw [reading?_change name labels f hm, if_neg fun heq => h (Prod.mk.inj heq).1]

theorem reading?_record_circuitState :
    reading? circuitState [("service", service)] (record m x) =
      ((x.state? service).map fun c => .gauge c.gauge).or
        (reading? circuitState [("service", service)] m) := by
  cases x with
  | request method status name outcome duration =>
    exact (reading?_change_of_ne (hm.change ..) (by decide) ..).trans
      (reading?_change_of_ne hm (by decide) ..)
  | rateLimited => exact reading?_change_of_ne hm (by decide) ..
  | clients count => exact reading?_change_of_ne hm (by decide) ..
  | circuitRefusal name => exact reading?_change_of_ne hm (by decide) ..
  | circuit name state =>
    refine (reading?_change _ _ _ hm _ _).trans ?_
    rw [Measurement.state?_circuit]
    by_cases h : name = service
    · rw [if_pos (by rw [h]), if_pos h]
      rfl
    · rw [if_neg (by simpa using h), if_neg h]
      rfl

theorem reading?_record_circuitRefusals {n : Nat}
    (hvalue : reading? circuitRefusals [("service", service)] m =
      if n = 0 then none else some (.counter n)) :
    reading? circuitRefusals [("service", service)] (record m x) =
      if x = .circuitRefusal service then some (.counter (n + 1))
      else if n = 0 then none else some (.counter n) := by
  rw [← hvalue]
  cases x with
  | request method status name outcome duration =>
    exact (reading?_change_of_ne (hm.change ..) (by decide) ..).trans
      (reading?_change_of_ne hm (by decide) ..)
  | rateLimited => exact reading?_change_of_ne hm (by decide) ..
  | clients count => exact reading?_change_of_ne hm (by decide) ..
  | circuit name state => exact reading?_change_of_ne hm (by decide) ..
  | circuitRefusal name =>
    refine (reading?_change _ _ _ hm _ _).trans ?_
    by_cases h : name = service
    · rw [if_pos (by rw [h]), if_pos (by rw [h]), hvalue]
      split_ifs with hn
      · rw [hn]
      · rfl
    · rw [if_neg (by simpa using h), if_neg (by simpa using h)]

end Record

section Events
variable (service : String)

theorem reading?_circuitState (events : List Event) :
    reading? circuitState [("service", service)] (ofEvents events) =
      (Event.states service events).getLast?.map fun c => .gauge c.gauge := by
  show reading? _ _ (ofMeasurements (Event.measurements events)) = _
  unfold Event.states
  induction Event.measurements events using List.reverseRecOn with
  | nil => rfl
  | append_singleton ms x ih =>
    rw [ofMeasurements_concat, List.filterMap_append, List.getLast?_append,
      reading?_record_circuitState (ordered_ofMeasurements ms) service x, ih]
    cases hx : x.state? service with
    | none =>
      rw [List.filterMap_cons_none hx]
      rfl
    | some c =>
      rw [List.filterMap_cons_some hx]
      rfl

/-- The counter of a service shows how many calls were told to be refused. There is none before the
first. -/
theorem reading?_circuitRefusals (events : List Event) :
    reading? circuitRefusals [("service", service)] (ofEvents events) =
      if Event.refusals service events = 0 then none
      else some (.counter (Event.refusals service events)) := by
  show reading? _ _ (ofMeasurements (Event.measurements events)) = _
  unfold Event.refusals
  induction Event.measurements events using List.reverseRecOn with
  | nil => rfl
  | append_singleton ms x ih =>
    rw [ofMeasurements_concat, List.countP_append, List.countP_singleton,
      reading?_record_circuitRefusals (ordered_ofMeasurements ms) service x ih]
    by_cases hx : x = .circuitRefusal service
    · simp [hx]
    · simp [hx]

end Events

end Metrics

end Gatehouse
