import Gatehouse.Proofs.Config.Valid

/-!
# Sound configurations

What a configuration has to be like, and how often each problem is one that it has, said of the
configuration as a whole: there is no order in which its parts are looked at.

* `Binary64.isPositive_iff` : which numbers are above zero;
* `Usable`, `Unusable` : base URLs that a service can have, and what is wrong with the others;
* `Config.Sound` : what a configuration has to be like;
* `Config.faults` : how often a configuration has a problem;
* `Config.sound_iff` : a configuration is sound when it has none.
-/

namespace Gatehouse

open Gatehouse.Http Gatehouse.Text

/-! ## Numbers above zero -/

namespace Number.Binary64

variable {x : Number.Binary64}

theorem unsignedBits_of_not_isNegative (h : x.isNegative = false) :
    x.unsignedBits = x.bits.toNat := by
  unfold isNegative at h
  exact Nat.mod_eq_of_lt (Nat.lt_of_not_le (of_decide_eq_false h))

theorem toRat_of_not_isFinite (h : x.isFinite = false) : x.toRat = 0 := by
  simp [toRat, magnitude?, h]

theorem toRat_of_unsignedBits_eq_zero (h : x.unsignedBits = 0) : x.toRat = 0 := by
  have hpos : 0 < infinityBits := by decide
  simp [toRat, magnitude?, isFinite, h, hpos]

theorem toRat_nonpos (h : x.isNegative = true) : x.toRat ≤ 0 := by
  unfold toRat
  split
  · rw [if_pos h]
    exact mul_nonpos_of_nonpos_of_nonneg (by simp) (by positivity)
  · exact le_rfl

/-- A number is above zero when its exact value is, or when it is infinite. -/
theorem isPositive_iff : x.isPositive = true ↔ x = infinity false ∨ 0 < x.toRat := by
  constructor
  · intro hpos
    by_cases hfinite : x.isFinite = true
    · exact .inr (toRat_pos hfinite hpos)
    · left
      unfold isPositive isNaN at hpos
      unfold isFinite at hfinite
      simp only [Bool.and_eq_true, Bool.not_eq_true', decide_eq_false_iff_not, decide_eq_true_eq]
        at hpos hfinite
      obtain ⟨⟨hnan, hsign⟩, -⟩ := hpos
      have hbits : x.bits.toNat = infinityBits := by
        rw [← unsignedBits_of_not_isNegative hsign]
        omega
      exact congrArg mk (UInt64.toNat_inj.mp hbits)
  · rintro (rfl | hpos)
    · decide
    · have hsign : x.isNegative = false := by
        by_contra h
        exact hpos.not_ge (toRat_nonpos (Bool.of_not_eq_false h))
      have hfinite : x.isFinite = true := by
        by_contra h
        exact hpos.ne' (toRat_of_not_isFinite (Bool.of_not_eq_true h))
      have hbits : x.unsignedBits ≠ 0 := fun h => hpos.ne' (toRat_of_unsignedBits_eq_zero h)
      have hnan : x.isNaN = false := by
        unfold isFinite at hfinite
        unfold isNaN
        rw [decide_eq_true_eq] at hfinite
        rw [decide_eq_false_iff_not]
        omega
      simp [isPositive, hnan, hsign, hbits]

end Number.Binary64

namespace Config

/-! ## Base URLs -/

def OfWeb (u : Url) : Prop := u.scheme = "http".toList ∨ u.scheme = "https".toList

instance (u : Url) : Decidable (OfWeb u) := inferInstanceAs (Decidable (_ ∨ _))

/-- A base URL is usable: a web address with a host and without a query. -/
def Usable [Idna] (url : String) : Prop :=
  ∃ u, Url.parse url.toList = .ok u ∧ OfWeb u ∧ u.hostText?.isSome = true ∧ u.query = none

/-- What is wrong with a base URL. Of several things it is the first. -/
inductive Unusable [Idna] (url : String) : BaseUrlProblem → Prop
  | malformed {e} (hparse : Url.parse url.toList = .error e) : Unusable url (.malformed e)
  | unsupportedScheme {u} (hparse : Url.parse url.toList = .ok u) (hscheme : ¬ OfWeb u) :
    Unusable url (.unsupportedScheme u.scheme)
  | missingHost {u} (hparse : Url.parse url.toList = .ok u) (hscheme : OfWeb u)
    (hhost : u.hostText? = none) : Unusable url .missingHost
  | hasQuery {u} (hparse : Url.parse url.toList = .ok u) (hscheme : OfWeb u)
    (hhost : u.hostText?.isSome = true) (hquery : u.query.isSome = true) : Unusable url .hasQuery

theorem baseUrlProblem?_of_error [Idna] {url : String} {e : Url.ParseError}
    (hparse : Url.parse url.toList = .error e) : baseUrlProblem? url = some (.malformed e) := by
  unfold baseUrlProblem?
  rw [hparse]

theorem baseUrlProblem?_of_ok [Idna] {url : String} {u : Url}
    (hparse : Url.parse url.toList = .ok u) : baseUrlProblem? url =
      if OfWeb u then
        if u.hostText? = none then some .missingHost
        else if u.query.isSome = true then some .hasQuery
        else none
      else some (.unsupportedScheme u.scheme) := by
  unfold baseUrlProblem?
  rw [hparse, ← ite_not]
  simp only [OfWeb, ne_eq, not_or, Option.isNone_iff_eq_none]

/-- A base URL is found fault with for what is wrong with it. -/
theorem baseUrlProblem?_eq_some_iff [Idna] {url : String} {reason : BaseUrlProblem} :
    baseUrlProblem? url = some reason ↔ Unusable url reason := by
  constructor
  · intro h
    cases hparse : Url.parse url.toList with
    | error e =>
      rw [baseUrlProblem?_of_error hparse, Option.some.injEq] at h
      exact h ▸ .malformed hparse
    | ok u =>
      rw [baseUrlProblem?_of_ok hparse] at h
      split_ifs at h with hscheme hhost hquery <;> cases h
      · exact .missingHost hparse hscheme hhost
      · exact .hasQuery hparse hscheme (Option.isSome_iff_ne_none.mpr hhost) hquery
      · exact .unsupportedScheme hparse hscheme
  · intro h
    cases h with
    | malformed hparse => exact baseUrlProblem?_of_error hparse
    | unsupportedScheme hparse hscheme => rw [baseUrlProblem?_of_ok hparse, if_neg hscheme]
    | missingHost hparse hscheme hhost =>
      rw [baseUrlProblem?_of_ok hparse, if_pos hscheme, if_pos hhost]
    | hasQuery hparse hscheme hhost hquery =>
      rw [baseUrlProblem?_of_ok hparse, if_pos hscheme,
        if_neg (Option.isSome_iff_ne_none.mp hhost), if_pos hquery]

theorem baseUrlProblem?_eq_none_iff [Idna] {url : String} :
    baseUrlProblem? url = none ↔ Usable url := by
  constructor
  · intro h
    cases hparse : Url.parse url.toList with
    | error e => exact absurd ((baseUrlProblem?_of_error hparse).symm.trans h) (Option.some_ne_none _)
    | ok u =>
      rw [baseUrlProblem?_of_ok hparse] at h
      split_ifs at h with hscheme hhost hquery
      exact ⟨u, hparse, hscheme, Option.isSome_iff_ne_none.mpr hhost,
        Option.not_isSome_iff_eq_none.mp hquery⟩
  · rintro ⟨u, hparse, hscheme, hhost, hquery⟩
    rw [baseUrlProblem?_of_ok hparse, if_pos hscheme,
      if_neg (Option.isSome_iff_ne_none.mp hhost), if_neg (by simp [hquery])]

/-! ## Settings above zero -/

/-- The settings of the rate limit have to be above zero only while it is on. -/
def Requires (c : Config) : PositiveSetting → Prop
  | .capacity | .refill | .idleTimeout | .sweepInterval => c.rateLimit.enabled = true
  | _ => True

def Positive (c : Config) : PositiveSetting → Prop
  | .maxFailures => 0 < c.circuitBreaker.maxFailures
  | .openTimeout => 0 < c.circuitBreaker.openTimeoutSecs
  | .capacity => 0 < c.rateLimit.capacity
  | .refill => c.rateLimit.refillPerSecond = .infinity false ∨ 0 < c.rateLimit.refillPerSecond.toRat
  | .idleTimeout => 0 < c.rateLimit.idleTimeoutSecs
  | .sweepInterval => 0 < c.rateLimit.sweepIntervalSecs
  | .connectTimeout => 0 < c.timeouts.connectSecs
  | .backendTimeout => 0 < c.timeouts.backendSecs
  | .requestTimeout => 0 < c.timeouts.requestSecs

instance (c : Config) : DecidablePred c.Requires
  | .capacity | .refill | .idleTimeout | .sweepInterval =>
    inferInstanceAs (Decidable (c.rateLimit.enabled = true))
  | .maxFailures | .openTimeout | .connectTimeout | .backendTimeout | .requestTimeout =>
    inferInstanceAs (Decidable True)

instance (c : Config) : DecidablePred c.Positive
  | .maxFailures => inferInstanceAs (Decidable (0 < c.circuitBreaker.maxFailures))
  | .openTimeout => inferInstanceAs (Decidable (0 < c.circuitBreaker.openTimeoutSecs))
  | .capacity => inferInstanceAs (Decidable (0 < c.rateLimit.capacity))
  | .refill => inferInstanceAs (Decidable (_ ∨ _))
  | .idleTimeout => inferInstanceAs (Decidable (0 < c.rateLimit.idleTimeoutSecs))
  | .sweepInterval => inferInstanceAs (Decidable (0 < c.rateLimit.sweepIntervalSecs))
  | .connectTimeout => inferInstanceAs (Decidable (0 < c.timeouts.connectSecs))
  | .backendTimeout => inferInstanceAs (Decidable (0 < c.timeouts.backendSecs))
  | .requestTimeout => inferInstanceAs (Decidable (0 < c.timeouts.requestSecs))

/-! ## Sound configurations -/

/-- A prefix that can be stripped from paths is empty, or starts with a slash and ends with something
else. -/
def Strippable (p : List Char) : Prop := p = [] ∨ p.head? = some '/' ∧ p.getLast? ≠ some '/'

instance (p : List Char) : Decidable (Strippable p) := inferInstanceAs (Decidable (_ ∨ _))

/-- What a configuration has to be like. -/
structure Sound [Idna] (c : Config) : Prop where
  bindAddress : (Net.Endpoint.parse? c.listener.bindAddress.toList).isSome = true
  named : ∀ s ∈ c.services, s.name ≠ ""
  distinct : (c.services.map (·.name)).Nodup
  usable : ∀ s ∈ c.services, Usable s.baseUrl
  routed : ∀ r ∈ c.routes, ∃ s ∈ c.services, s.name = r.service
  rooted : ∀ r ∈ c.routes, r.pathPrefix.toList.head? = some '/'
  methods : ∀ r ∈ c.routes, ∀ entry ∈ r.methods, isToken (upper entry.toList) = true
  positive : ∀ setting, c.Requires setting → c.Positive setting
  longer : c.timeouts.backendSecs < c.timeouts.requestSecs
  strippable : Strippable c.proxy.stripPrefix.toList
  key : c.admin.enabled = true → c.admin.apiKey ≠ ""

/-! ## How often there is a problem -/

instance [Idna] (url : String) (reason : BaseUrlProblem) : Decidable (Unusable url reason) :=
  decidable_of_iff _ baseUrlProblem?_eq_some_iff

def uses (c : Config) (name : String) : Nat := (c.services.map (·.name)).count name

/-- How many times a configuration has a problem. -/
def faults [Idna] (c : Config) : Problem → Nat
  | .bindAddress address =>
    if c.listener.bindAddress = address ∧ ¬ (Net.Endpoint.parse? address.toList).isSome = true then 1
    else 0
  | .duplicateService name => if name = "" then 0 else c.uses name - 1
  | .emptyServiceName => c.uses ""
  | .baseUrl service url reason =>
    if Unusable url reason then c.services.count ⟨service, url⟩ else 0
  | .unknownService route service =>
    if service ≠ "" ∧ 0 < c.uses service then 0
    else c.routes.countP fun r => r.name = route ∧ r.service = service
  | .pathPrefix route =>
    c.routes.countP fun r => r.name = route ∧ r.pathPrefix.toList.head? ≠ some '/'
  | .method route entry =>
    if isToken (upper entry.toList) = true then 0
    else ((c.routes.filter fun r => r.name = route).flatMap (·.methods)).count entry
  | .notPositive setting => if c.Requires setting ∧ ¬ c.Positive setting then 1 else 0
  | .requestTimeout request backend =>
    if c.timeouts.requestSecs = request ∧ c.timeouts.backendSecs = backend ∧ 0 < request ∧
      0 < backend ∧ request ≤ backend then 1
    else 0
  | .stripPrefix value =>
    if c.proxy.stripPrefix = value ∧ ¬ Strippable value.toList then 1 else 0
  | .missingAdminKey => if c.admin.enabled = true ∧ c.admin.apiKey = "" then 1 else 0

/-! ## Configurations without faults -/

theorem not_unusable_of_usable [Idna] {url : String} {reason : BaseUrlProblem} (h : Usable url) :
    ¬ Unusable url reason := by
  rw [← baseUrlProblem?_eq_some_iff, baseUrlProblem?_eq_none_iff.mpr h]
  exact Option.some_ne_none reason ∘ Eq.symm

theorem uses_pos_iff {c : Config} {name : String} :
    0 < c.uses name ↔ ∃ s ∈ c.services, s.name = name := by
  unfold uses
  rw [List.count_pos_iff, List.mem_map]

theorem sound_of_faults [Idna] {c : Config} (h : ∀ p, c.faults p = 0) : c.Sound := by
  have hnamed : ∀ s ∈ c.services, s.name ≠ "" := by
    intro s hs hname
    exact (uses_pos_iff.mpr ⟨s, hs, hname⟩).ne' (h .emptyServiceName)
  have hpositive : ∀ setting, c.Requires setting → c.Positive setting := by
    intro setting hrequires
    by_contra hnot
    exact absurd (h (.notPositive setting)) (by simp [faults, hrequires, hnot])
  refine ⟨?_, hnamed, ?_, ?_, ?_, ?_, ?_, hpositive, ?_, ?_, ?_⟩
  · have hbind := h (.bindAddress c.listener.bindAddress)
    by_contra hnot
    exact absurd hbind (by simp [faults, hnot])
  · rw [List.nodup_iff_count_le_one]
    intro name
    by_cases hname : name = ""
    · have hnone := h .emptyServiceName
      simp only [faults, uses] at hnone
      rw [hname, hnone]
      omega
    · have hduplicate := h (.duplicateService name)
      simp only [faults, uses, if_neg hname] at hduplicate
      omega
  · intro s hs
    rw [← baseUrlProblem?_eq_none_iff, Option.eq_none_iff_forall_ne_some]
    intro reason hreason
    have hcount := h (.baseUrl s.name s.baseUrl reason)
    simp only [faults, if_pos (baseUrlProblem?_eq_some_iff.mp hreason)] at hcount
    exact List.count_eq_zero.mp hcount hs
  · intro r hr
    have hunknown := h (.unknownService r.name r.service)
    simp only [faults] at hunknown
    split_ifs at hunknown with hknown
    · exact uses_pos_iff.mp hknown.2
    · exact absurd (List.countP_eq_zero.mp hunknown r hr) (by simp)
  · intro r hr
    have hprefix := List.countP_eq_zero.mp (h (.pathPrefix r.name)) r hr
    simpa using hprefix
  · intro r hr entry hentry
    have hmethod := h (.method r.name entry)
    simp only [faults] at hmethod
    split_ifs at hmethod with htoken
    · exact htoken
    · refine absurd (List.count_eq_zero.mp hmethod) (not_not.mpr ?_)
      exact List.mem_flatMap.mpr ⟨r, List.mem_filter.mpr ⟨hr, by simp⟩, hentry⟩
  · have hrequest : 0 < c.timeouts.requestSecs := hpositive .requestTimeout trivial
    have hbackend : 0 < c.timeouts.backendSecs := hpositive .backendTimeout trivial
    have hlonger := h (.requestTimeout c.timeouts.requestSecs c.timeouts.backendSecs)
    by_contra hnot
    exact absurd hlonger (by simp [faults, hrequest, hbackend, UInt64.not_lt.mp hnot])
  · have hstrip := h (.stripPrefix c.proxy.stripPrefix)
    by_contra hnot
    exact absurd hstrip (by simp [faults, hnot])
  · intro henabled hkey
    exact absurd (h .missingAdminKey) (by simp [faults, henabled, hkey])

/-- A sound configuration has no faults. -/
theorem Sound.faults_eq_zero [Idna] {c : Config} (h : c.Sound) (p : Problem) : c.faults p = 0 := by
  cases p with
  | bindAddress address => exact if_neg fun hbad => hbad.2 (hbad.1 ▸ h.bindAddress)
  | duplicateService name =>
    simp only [faults]
    split_ifs
    · rfl
    · have hcount := List.nodup_iff_count_le_one.mp h.distinct name
      unfold uses
      omega
  | emptyServiceName =>
    by_contra hnot
    obtain ⟨s, hs, hname⟩ := uses_pos_iff.mp (Nat.pos_of_ne_zero hnot)
    exact h.named s hs hname
  | baseUrl service url reason =>
    simp only [faults]
    split_ifs with hreason
    · rw [List.count_eq_zero]
      intro hmem
      exact not_unusable_of_usable (h.usable _ hmem) hreason
    · rfl
  | unknownService route service =>
    simp only [faults]
    split_ifs with hknown
    · rfl
    · rw [List.countP_eq_zero]
      intro r hr hroute
      simp only [decide_eq_true_eq] at hroute
      obtain ⟨s, hs, hname⟩ := h.routed r hr
      rw [hroute.2] at hname
      exact hknown ⟨hname ▸ h.named s hs, uses_pos_iff.mpr ⟨s, hs, hname⟩⟩
  | pathPrefix route =>
    simp only [faults, List.countP_eq_zero, decide_eq_true_eq]
    intro r hr hroute
    exact hroute.2 (h.rooted r hr)
  | method route entry =>
    simp only [faults]
    split_ifs with htoken
    · rfl
    · rw [List.count_eq_zero]
      intro hmem
      obtain ⟨r, hr, hentry⟩ := List.mem_flatMap.mp hmem
      exact htoken (h.methods r (List.mem_of_mem_filter hr) entry hentry)
  | notPositive setting => exact if_neg fun hbad => hbad.2 (h.positive setting hbad.1)
  | requestTimeout request backend =>
    refine if_neg ?_
    rintro ⟨rfl, rfl, -, -, hle⟩
    exact UInt64.not_le.mpr h.longer hle
  | stripPrefix value => exact if_neg fun hbad => hbad.2 (hbad.1 ▸ h.strippable)
  | missingAdminKey => exact if_neg fun hbad => h.key hbad.1 hbad.2

theorem sound_iff [Idna] (c : Config) : c.Sound ↔ ∀ p, c.faults p = 0 :=
  ⟨Sound.faults_eq_zero, sound_of_faults⟩

end Config

end Gatehouse
