import Gatehouse.Config.Validity
import Mathlib.Algebra.Order.Field.Power
import Mathlib.Algebra.Order.Field.Rat
import Mathlib.Data.List.Nodup
import Mathlib.Tactic.Positivity

/-!
# What validity says

A configuration is valid when no section has a problem. Here the list of problems is read back: what
there is to know of the services, the rate limit and the timeouts of a valid configuration.

* `isValid_iff` : validity, section by section;
* `Service.allProblems_eq_nil_iff` : the services have names of their own and usable addresses;
* `method?_eq_some_iff` : the entries of a route that name a method;
* `Route.problems_eq_nil_iff` : the routes lead to services, by methods that there are;
* `refillRate_pos` : a rate limit that is on lets tokens come in;
* `breaker_pos`, `sweepInterval_pos`, `timeouts_pos` : settings that are above zero;
* `backendSecs_lt_requestSecs` : a whole request has more time than its backend;
* `apiKey_ne_nil` : an admin interface has a key.
-/

namespace Gatehouse

theorem Number.Binary64.toRat_pos {x : Number.Binary64} (hfinite : x.isFinite = true)
    (hpos : x.isPositive = true) : 0 < x.toRat := by
  simp only [isPositive, Bool.and_eq_true, Bool.not_eq_true', bne_iff_ne] at hpos
  obtain ⟨⟨-, hsign⟩, hbits⟩ := hpos
  have hmagnitude : ∃ (m : Nat) (k : Int), x.magnitude? = some (m, k) ∧ 0 < m := by
    unfold magnitude?
    rw [if_pos hfinite]
    by_cases he : x.unsignedBits / leadingBit = 0
    · have hdiv := Nat.div_add_mod x.unsignedBits leadingBit
      rw [he, Nat.mul_zero, Nat.zero_add] at hdiv
      refine ⟨x.unsignedBits % leadingBit, -1074, by simp [he], ?_⟩
      rw [hdiv]
      exact Nat.pos_of_ne_zero hbits
    · refine ⟨x.unsignedBits % leadingBit + leadingBit,
        (x.unsignedBits / leadingBit : Nat) - 1075, by simp [he], ?_⟩
      exact Nat.add_pos_right _ (by decide)
  obtain ⟨m, k, hmag, hm⟩ := hmagnitude
  have hrat : x.toRat = (m : Rat) * (2 : Rat) ^ k := by
    unfold toRat
    simp [hmag, hsign]
  have hm' : (0 : Rat) < m := Nat.cast_pos.mpr hm
  rw [hrat]
  positivity

theorem Span.seconds_pos {n : Nat} (h : 0 < n) : 0 < Span.seconds n := Nat.mul_pos h (by decide)

namespace Config

open Gatehouse.Http Gatehouse.Text

@[simp] theorem when_eq_nil_iff (condition : Bool) (p : Problem) :
    when condition p = [] ↔ condition = false := by
  cases condition <;> simp [when]

theorem isValid_iff [Idna] (c : Config) :
    c.isValid = true ↔ c.listener.problems = [] ∧ Service.allProblems [] c.services = [] ∧
      (∀ r ∈ c.routes, r.problems c.serviceNames = []) ∧ c.circuitBreaker.problems = [] ∧
      c.rateLimit.problems = [] ∧ c.timeouts.problems = [] ∧ c.proxy.problems = [] ∧
      c.admin.problems = [] := by
  simp [isValid, problems]

/-! ## Services -/

/-- A service has no problem when it has a name that no service before it has, and a usable address. -/
theorem Service.problems_eq_nil_iff [Idna] (names : List String) (s : Service) :
    s.problems names = [] ↔
      s.name.isEmpty = false ∧ s.name ∉ names ∧ baseUrlProblem? s.baseUrl = none := by
  unfold Service.problems
  cases s.name.isEmpty <;> simp

theorem Service.allProblems_eq_nil_iff [Idna] (names : List String) (services : List Service) :
    allProblems names services = [] ↔
      (services.map (·.name)).Nodup ∧ ∀ s ∈ services,
        s.name.isEmpty = false ∧ s.name ∉ names ∧ baseUrlProblem? s.baseUrl = none := by
  induction services generalizing names with
  | nil => simp [allProblems]
  | cons s services ih =>
    rw [allProblems, List.append_eq_nil_iff, problems_eq_nil_iff, ih, List.map_cons,
      List.nodup_cons, List.forall_mem_cons]
    constructor
    · rintro ⟨hs, hn, hrest⟩
      refine ⟨⟨?_, hn⟩, hs, fun t ht => ?_⟩
      · intro hmem
        obtain ⟨t, ht, hname⟩ := List.mem_map.mp hmem
        exact (hrest t ht).2.1 (hname ▸ List.mem_cons_self)
      · obtain ⟨he, hnames, hb⟩ := hrest t ht
        exact ⟨he, fun h => hnames (List.mem_cons_of_mem _ h), hb⟩
    · rintro ⟨⟨hs', hn⟩, hs, hrest⟩
      refine ⟨hs, hn, fun t ht => ?_⟩
      obtain ⟨he, hnames, hb⟩ := hrest t ht
      refine ⟨he, fun h => ?_, hb⟩
      rcases List.mem_cons.mp h with h | h
      · exact hs' (List.mem_map.mpr ⟨t, ht, h⟩)
      · exact hnames h

theorem nodup_of_isValid [Idna] {c : Config} (h : c.isValid = true) :
    (c.services.map (·.name)).Nodup := by
  obtain ⟨-, hservices, -⟩ := c.isValid_iff.1 h
  exact ((Service.allProblems_eq_nil_iff [] c.services).1 hservices).1

theorem eq_of_name_eq {c : Config} (hn : (c.services.map (·.name)).Nodup) {s t : Service}
    (hs : s ∈ c.services) (ht : t ∈ c.services) (h : s.name = t.name) : s = t :=
  List.inj_on_of_nodup_map hn hs ht h

theorem exists_parse_of_isValid [Idna] {c : Config} (h : c.isValid = true) {s : Service}
    (hs : s ∈ c.services) : ∃ u, Url.parse s.baseUrl.toList = .ok u := by
  obtain ⟨-, hservices, -⟩ := c.isValid_iff.1 h
  have hproblem := (((Service.allProblems_eq_nil_iff [] c.services).1 hservices).2 s hs).2.2
  unfold baseUrlProblem? at hproblem
  cases hparse : Url.parse s.baseUrl.toList with
  | error e => simp [hparse] at hproblem
  | ok u => exact ⟨u, rfl⟩

theorem name_ne_nil [Idna] {c : Config} (h : c.isValid = true) {s : Service} (hs : s ∈ c.services) :
    s.name.toList ≠ [] := by
  obtain ⟨-, hservices, -⟩ := c.isValid_iff.1 h
  have hname := (((Service.allProblems_eq_nil_iff [] c.services).1 hservices).2 s hs).1
  intro hnil
  rw [String.toList_eq_nil_iff.mp hnil] at hname
  exact absurd hname (by decide)

/-! ## Routes -/

/-- An entry names a method when it is a token in upper case. -/
theorem method?_eq_some_iff {entry : String} {method : Method} :
    method? entry = some method ↔
      isToken (upper entry.toList) = true ∧ upper entry.toList = method.name := by
  unfold method? Method.ofText?
  rw [Option.ite_none_right_eq_some, Option.some.injEq]
  cases method
  rw [Method.mk.injEq]

theorem method?_eq_none_iff {entry : String} :
    method? entry = none ↔ isToken (upper entry.toList) = false := by
  unfold method? Method.ofText?
  rw [ite_eq_right_iff, ← Bool.not_eq_true]
  exact forall_congr' fun _ => iff_of_false (Option.some_ne_none _) id

theorem Route.problems_eq_nil_iff (names : List String) (r : Route) :
    r.problems names = [] ↔ r.service ∈ names ∧ r.pathPrefix.toList.head? = some '/' ∧
      ∀ m ∈ r.methods, (method? m).isSome = true := by
  unfold Route.problems
  simp [Option.isSome_iff_ne_none]

theorem exists_service_of_isValid [Idna] {c : Config} (h : c.isValid = true) {r : Route}
    (hr : r ∈ c.routes) : ∃ s ∈ c.services, s.name = r.service := by
  obtain ⟨-, -, hroutes, -⟩ := c.isValid_iff.1 h
  have hmem := ((Route.problems_eq_nil_iff c.serviceNames r).1 (hroutes r hr)).1
  exact List.mem_map.mp (List.mem_of_mem_filter hmem)

theorem method?_of_isValid [Idna] {c : Config} (h : c.isValid = true) {r : Route}
    (hr : r ∈ c.routes) : ∀ m ∈ r.methods, method? m = some ⟨upper m.toList⟩ := by
  obtain ⟨-, -, hroutes, -⟩ := c.isValid_iff.1 h
  intro m hm
  have hsome := ((Route.problems_eq_nil_iff c.serviceNames r).1 (hroutes r hr)).2.2 m hm
  unfold method? Method.ofText? at hsome ⊢
  split_ifs at hsome ⊢
  · rfl
  · cases hsome

/-! ## The breakers -/

theorem breaker_pos [Idna] {c : Config} (h : c.isValid = true) :
    0 < c.circuitBreaker.settings.maxFailures ∧ 0 < c.circuitBreaker.settings.openTimeout := by
  obtain ⟨-, -, -, hbreaker, -⟩ := c.isValid_iff.1 h
  unfold CircuitBreaker.problems at hbreaker
  simp only [List.append_eq_nil_iff, when_eq_nil_iff, decide_eq_false_iff_not] at hbreaker
  obtain ⟨hfailures, htimeout⟩ := hbreaker
  refine ⟨?_, Span.seconds_pos ?_⟩
  · exact Nat.pos_of_ne_zero fun hzero => hfailures (UInt32.toNat_inj.mp hzero)
  · exact Nat.pos_of_ne_zero fun hzero => htimeout (UInt64.toNat_inj.mp hzero)

/-! ## The rate limit -/

theorem sweepInterval_pos [Idna] {c : Config} (h : c.isValid = true)
    (he : c.rateLimit.enabled = true) : 0 < Span.seconds c.rateLimit.sweepIntervalSecs.toNat := by
  obtain ⟨-, -, -, -, hlimit, -⟩ := c.isValid_iff.1 h
  unfold RateLimit.problems at hlimit
  rw [if_pos he] at hlimit
  simp only [List.append_eq_nil_iff, when_eq_nil_iff, decide_eq_false_iff_not] at hlimit
  exact Span.seconds_pos (Nat.pos_of_ne_zero fun hzero => hlimit.2 (UInt64.toNat_inj.mp hzero))

theorem RateLimit.isPositive_of_problems_eq_nil {r : RateLimit} (h : r.problems = [])
    (he : r.enabled = true) : r.refillPerSecond.isPositive = true := by
  unfold RateLimit.problems at h
  rw [if_pos he] at h
  simp only [List.append_eq_nil_iff, when_eq_nil_iff, Bool.not_eq_false'] at h
  exact h.1.1.2

theorem refillRate_pos [Idna] {c : Config} (h : c.isValid = true) (he : c.rateLimit.enabled = true)
    (hfinite : c.rateLimit.refillPerSecond.isFinite = true) :
    0 < c.rateLimit.refillPerSecond.toRat := by
  obtain ⟨-, -, -, -, hlimit, -⟩ := c.isValid_iff.1 h
  exact Number.Binary64.toRat_pos hfinite (RateLimit.isPositive_of_problems_eq_nil hlimit he)

/-! ## The timeouts -/

theorem timeouts_pos [Idna] {c : Config} (h : c.isValid = true) :
    0 < Span.seconds c.timeouts.connectSecs.toNat ∧ 0 < Span.seconds c.timeouts.backendSecs.toNat ∧
      0 < Span.seconds c.timeouts.requestSecs.toNat := by
  obtain ⟨-, -, -, -, -, htimeouts, -⟩ := c.isValid_iff.1 h
  unfold Timeouts.problems at htimeouts
  simp only [List.append_eq_nil_iff, when_eq_nil_iff, decide_eq_false_iff_not] at htimeouts
  obtain ⟨⟨⟨hconnect, hbackend⟩, hrequest⟩, -⟩ := htimeouts
  have hpos {n : UInt64} (hn : n ≠ 0) : 0 < Span.seconds n.toNat :=
    Span.seconds_pos (Nat.pos_of_ne_zero fun hzero => hn (UInt64.toNat_inj.mp hzero))
  exact ⟨hpos hconnect, hpos hbackend, hpos hrequest⟩

theorem backendSecs_lt_requestSecs [Idna] {c : Config} (h : c.isValid = true) :
    c.timeouts.backendSecs.toNat < c.timeouts.requestSecs.toNat := by
  obtain ⟨-, -, -, -, -, htimeouts, -⟩ := c.isValid_iff.1 h
  unfold Timeouts.problems at htimeouts
  simp only [List.append_eq_nil_iff, when_eq_nil_iff, decide_eq_false_iff_not] at htimeouts
  obtain ⟨⟨⟨-, hbackend⟩, hrequest⟩, hless⟩ := htimeouts
  have hpos {n : UInt64} (hn : n ≠ 0) : 0 < n :=
    UInt64.pos_iff_ne_zero.mpr hn
  by_contra hnot
  exact hless ⟨hpos hbackend, hpos hrequest, UInt64.le_iff_toNat_le.mpr (Nat.le_of_not_lt hnot)⟩

/-! ## The admin interface -/

theorem apiKey_ne_nil [Idna] {c : Config} (h : c.isValid = true)
    (henabled : c.admin.enabled = true) : c.admin.apiKey.toList ≠ [] := by
  obtain ⟨-, -, -, -, -, -, -, hadmin⟩ := c.isValid_iff.1 h
  unfold Admin.problems at hadmin
  rw [when_eq_nil_iff, henabled, Bool.true_and] at hadmin
  intro hnil
  rw [String.toList_eq_nil_iff.mp hnil] at hadmin
  exact absurd hadmin (by decide)

/-! A shop and its cart: the path of one route lies under that of the other. -/

def storefront : Config :=
  { (default : Config) with
    services := [⟨"shop", "http://shop:80/v1/"⟩, ⟨"cart", "http://cart:80"⟩]
    routes := [⟨"shop", "/shop/", "shop", ["get", "POST"], 0⟩,
      ⟨"cart", "/shop/cart", "cart", [], 0⟩] }

example : storefront.isValid = true := by decide +kernel

end Config

end Gatehouse
