import Gatehouse.Proofs.Config.Sound

/-!
# What the list of problems says

The problems of a configuration are found section by section, those of a service with the names that
came before it at hand, those of a route with the names of all services. Whatever the order in which
they are found, each problem is on the list as often as the configuration has it.

* `Service.count_allProblems`, `Route.count_flatMap_problems`, `count_settings` : what the sections
  report;
* `count_problems` : what is reported of the whole configuration;
* `Config.Rearranges` : the same services, routes and methods in another order;
* `ProblemLaw`, `problemLaw` : the list of problems, for every configuration.
-/

namespace Gatehouse

open Gatehouse.Http Gatehouse.Text

namespace Config

/-! ## What the sections report -/

@[simp] theorem count_when (condition : Bool) (q p : Problem) :
    (when condition q).count p = if condition = true ∧ q = p then 1 else 0 := by
  cases condition <;> simp [when, List.count_singleton]

@[simp] theorem count_toList (o : Option Problem) (p : Problem) :
    o.toList.count p = if o = some p then 1 else 0 := by
  cases o <;> simp [List.count_singleton]

theorem Service.count_problems [Idna] (names : List String) (s : Service) (p : Problem) :
    (s.problems names).count p = match p with
      | .emptyServiceName => if s.name = "" then 1 else 0
      | .duplicateService name =>
        if (s.name ≠ "" ∧ s.name ∈ names) ∧ s.name = name then 1 else 0
      | .baseUrl service url reason =>
        if Unusable s.baseUrl reason ∧ s.name = service ∧ s.baseUrl = url then 1 else 0
      | _ => 0 := by
  unfold Service.problems
  simp only [← baseUrlProblem?_eq_some_iff]
  cases p <;> simp

theorem RateLimit.problems_eq (r : RateLimit) :
    r.problems = when (r.enabled && r.capacity = 0) (.notPositive .capacity)
      ++ when (r.enabled && !r.refillPerSecond.isPositive) (.notPositive .refill)
      ++ when (r.enabled && r.idleTimeoutSecs = 0) (.notPositive .idleTimeout)
      ++ when (r.enabled && r.sweepIntervalSecs = 0) (.notPositive .sweepInterval) := by
  unfold problems
  cases r.enabled <;> simp [when]

/-- Settings that have to be above zero are found in three sections. -/
theorem count_settings (c : Config) (p : Problem) :
    c.circuitBreaker.problems.count p + c.rateLimit.problems.count p +
      c.timeouts.problems.count p = match p with
      | .notPositive setting => if c.Requires setting ∧ ¬ c.Positive setting then 1 else 0
      | .requestTimeout request backend =>
        if c.timeouts.requestSecs = request ∧ c.timeouts.backendSecs = backend ∧ 0 < request ∧
          0 < backend ∧ request ≤ backend then 1
        else 0
      | _ => 0 := by
  rw [RateLimit.problems_eq]
  unfold CircuitBreaker.problems Timeouts.problems
  cases p with
  | notPositive setting =>
    cases setting <;> simp [Requires, Positive, ← Number.Binary64.isPositive_iff]
  | requestTimeout request backend =>
    simp only [List.count_append, count_when, decide_eq_true_eq, Problem.requestTimeout.injEq,
      reduceCtorEq, and_false, if_false, Nat.zero_add]
    grind
  | _ => simp

/-- A name that is used `m` times is reported `m - 1` times, or `m` times when it is known before. -/
theorem Service.count_allProblems [Idna] (names : List String) (services : List Service)
    (p : Problem) : (allProblems names services).count p = match p with
      | .emptyServiceName => (services.map (·.name)).count ""
      | .duplicateService name =>
        if name = "" then 0
        else (services.map (·.name)).count name - if name ∈ names then 0 else 1
      | .baseUrl service url reason =>
        if Unusable url reason then services.count ⟨service, url⟩ else 0
      | _ => 0 := by
  induction services generalizing names with
  | nil => cases p <;> simp [allProblems]
  | cons s services ih =>
    rw [allProblems, List.count_append, Service.count_problems, ih]
    cases p with
    | duplicateService name =>
      simp only [List.map_cons, List.count_cons, List.mem_cons, beq_iff_eq]
      grind
    | emptyServiceName =>
      simp only [List.map_cons, List.count_cons, beq_iff_eq]
      omega
    | baseUrl service url reason =>
      cases s
      simp only [List.count_cons, beq_iff_eq, mk.injEq]
      grind
    | _ => rfl

theorem Route.count_methods (r : Route) (p : Problem) :
    ((r.methods.filter fun m => (method? m).isNone).map (Problem.method r.name)).count p =
      match p with
      | .method route entry =>
        if r.name = route ∧ isToken (upper entry.toList) = false then r.methods.count entry else 0
      | _ => 0 := by
  cases p with
  | method route entry =>
    simp only [← method?_eq_none_iff, ← Option.isNone_iff_eq_none]
    split_ifs with h
    · obtain ⟨rfl, hnone⟩ := h
      rw [List.count_map_of_injective _ _ fun _ _ h => (Problem.method.inj h).2]
      exact List.count_filter hnone
    · rw [List.count_eq_zero]
      simp only [List.mem_map, List.mem_filter, Problem.method.injEq, not_exists, not_and]
      rintro _ ⟨-, hnone⟩ hname rfl
      exact h ⟨hname, hnone⟩
  | _ => simp [List.count_eq_zero]

theorem Route.count_problems (names : List String) (r : Route) (p : Problem) :
    (r.problems names).count p = match p with
      | .unknownService route service =>
        if r.service ∉ names ∧ r.name = route ∧ r.service = service then 1 else 0
      | .pathPrefix route =>
        if r.pathPrefix.toList.head? ≠ some '/' ∧ r.name = route then 1 else 0
      | .method route entry =>
        if r.name = route ∧ isToken (upper entry.toList) = false then r.methods.count entry else 0
      | _ => 0 := by
  unfold Route.problems
  rw [List.count_append, List.count_append, Route.count_methods]
  cases p <;> simp

theorem Route.count_flatMap_problems (names : List String) (routes : List Route) (p : Problem) :
    (routes.flatMap (Route.problems names)).count p = match p with
      | .unknownService route service =>
        if service ∈ names then 0
        else routes.countP fun r => r.name = route ∧ r.service = service
      | .pathPrefix route =>
        routes.countP fun r => r.name = route ∧ r.pathPrefix.toList.head? ≠ some '/'
      | .method route entry =>
        if isToken (upper entry.toList) = true then 0
        else ((routes.filter fun r => r.name = route).flatMap (·.methods)).count entry
      | _ => 0 := by
  induction routes with
  | nil => cases p <;> simp
  | cons r routes ih =>
    rw [List.flatMap_cons, List.count_append, Route.count_problems, ih]
    cases p with
    | unknownService route service =>
      simp only [List.countP_cons, decide_eq_true_eq]
      grind
    | pathPrefix route =>
      simp only [List.countP_cons, decide_eq_true_eq]
      grind
    | method route entry =>
      simp only [List.filter_cons, decide_eq_true_eq]
      grind
    | _ => rfl

theorem mem_serviceNames_iff {c : Config} {name : String} :
    name ∈ c.serviceNames ↔ name ≠ "" ∧ 0 < c.uses name := by
  unfold serviceNames uses
  rw [List.mem_filter, List.count_pos_iff, and_comm]
  simp

theorem Listener.count_problems (l : Listener) (p : Problem) :
    l.problems.count p = match p with
      | .bindAddress address =>
        if l.bindAddress = address ∧ ¬ (Net.Endpoint.parse? address.toList).isSome = true then 1
        else 0
      | _ => 0 := by
  unfold problems
  cases p with
  | bindAddress address =>
    simp only [count_when, Problem.bindAddress.injEq, Option.isNone_iff_eq_none,
      Option.not_isSome_iff_eq_none]
    grind
  | _ => simp

theorem isStrippable_iff {p : List Char} : Proxy.isStrippable p = true ↔ Strippable p := by
  simp [Proxy.isStrippable, Strippable]

theorem Proxy.count_problems (proxy : Proxy) (p : Problem) :
    proxy.problems.count p = match p with
      | .stripPrefix value => if proxy.stripPrefix = value ∧ ¬ Strippable value.toList then 1 else 0
      | _ => 0 := by
  unfold problems
  cases p with
  | stripPrefix value =>
    simp only [count_when, Problem.stripPrefix.injEq, ← isStrippable_iff, Bool.not_eq_eq_eq_not,
      Bool.not_true, Bool.not_eq_true]
    grind
  | _ => simp

theorem Admin.count_problems (a : Admin) (p : Problem) :
    a.problems.count p = match p with
      | .missingAdminKey => if a.enabled = true ∧ a.apiKey = "" then 1 else 0
      | _ => 0 := by
  unfold problems
  cases p <;> simp

/-- Each problem is found as often as the configuration has it. -/
theorem count_problems [Idna] (c : Config) (p : Problem) : c.problems.count p = c.faults p := by
  have hsections : c.problems.count p =
      c.listener.problems.count p + (Service.allProblems [] c.services).count p
        + (c.routes.flatMap (Route.problems c.serviceNames)).count p
        + (c.circuitBreaker.problems.count p + c.rateLimit.problems.count p
          + c.timeouts.problems.count p)
        + c.proxy.problems.count p + c.admin.problems.count p := by
    unfold problems
    simp only [List.count_append]
    omega
  rw [hsections, Listener.count_problems, Service.count_allProblems, Route.count_flatMap_problems,
    count_settings, Proxy.count_problems, Admin.count_problems]
  cases p with
  | unknownService route service => simp [faults, mem_serviceNames_iff]
  | duplicateService name => simp [faults, uses]
  | _ => simp only [faults, uses, Nat.zero_add, Nat.add_zero]

/-! ## Other orders -/

/-- A route that says the same but for the order of its methods. -/
structure Route.Rearranges (r' r : Route) : Prop where
  name : r'.name = r.name
  pathPrefix : r'.pathPrefix = r.pathPrefix
  service : r'.service = r.service
  methods : r'.methods.Perm r.methods

/-- A configuration that says the same but for the order of the services, of the routes, and of the
methods of a route. -/
structure Rearranges (c' c : Config) : Prop where
  services : c'.services.Perm c.services
  routes : ∃ routes, c'.routes.Perm routes ∧ List.Forall₂ Route.Rearranges routes c.routes
  listener : c'.listener = c.listener
  circuitBreaker : c'.circuitBreaker = c.circuitBreaker
  rateLimit : c'.rateLimit = c.rateLimit
  timeouts : c'.timeouts = c.timeouts
  proxy : c'.proxy = c.proxy
  admin : c'.admin = c.admin

theorem Service.allProblems_perm [Idna] {services' services : List Service}
    (h : services'.Perm services) : (allProblems [] services').Perm (allProblems [] services) := by
  rw [List.perm_iff_count]
  intro p
  rw [count_allProblems, count_allProblems]
  cases p with
  | duplicateService name => simp only [(h.map (·.name)).count_eq]
  | emptyServiceName => simp only [(h.map (·.name)).count_eq]
  | baseUrl service url reason => simp only [h.count_eq]
  | _ => rfl

theorem Route.problems_perm {r' r : Route} (h : r'.Rearranges r) {names' names : List String}
    (hnames : ∀ name, name ∈ names' ↔ name ∈ names) :
    (r'.problems names').Perm (r.problems names) := by
  have hknown : names'.contains r.service = names.contains r.service := by
    rw [Bool.eq_iff_iff, List.contains_iff_mem, List.contains_iff_mem, hnames]
  unfold Route.problems
  rw [h.name, h.pathPrefix, h.service, hknown]
  exact ((h.methods.filter _).map _).append_left _

theorem Route.flatMap_problems_perm {names' names : List String}
    (hnames : ∀ name, name ∈ names' ↔ name ∈ names) {routes' routes : List Route}
    (h : List.Forall₂ Route.Rearranges routes' routes) :
    (routes'.flatMap (Route.problems names')).Perm (routes.flatMap (Route.problems names)) := by
  induction h with
  | nil => exact .refl _
  | cons hroute _ ih => exact (Route.problems_perm hroute hnames).append ih

theorem Rearranges.problems_perm [Idna] {c' c : Config} (h : c'.Rearranges c) :
    c'.problems.Perm c.problems := by
  have hnames : ∀ name, name ∈ c'.serviceNames ↔ name ∈ c.serviceNames :=
    fun _ => ((h.services.map _).filter _).mem_iff
  have hroutes : (c'.routes.flatMap (Route.problems c'.serviceNames)).Perm
      (c.routes.flatMap (Route.problems c.serviceNames)) := by
    obtain ⟨routes, hperm, hmethods⟩ := h.routes
    exact (hperm.flatMap_right _).trans (Route.flatMap_problems_perm hnames hmethods)
  unfold problems
  rw [h.listener, h.circuitBreaker, h.rateLimit, h.timeouts, h.proxy, h.admin]
  have hservices := (Service.allProblems_perm h.services).append_left c.listener.problems
  exact (((((hservices.append hroutes).append_right _).append_right _).append_right _).append_right
    _).append_right _

/-! ## The law -/

/-- What the list of problems of a configuration is. -/
structure ProblemLaw [Idna] (c : Config) : Prop where
  /-- There is no problem exactly if the configuration is sound. -/
  valid_iff : c.isValid = true ↔ c.Sound
  /-- Every problem is listed as often as the configuration has it. -/
  count_eq : ∀ p, c.problems.count p = c.faults p
  /-- The list is the same in another order when the services, the routes or the methods of a route
  are in another order. -/
  perm : ∀ c' : Config, c'.Rearranges c → c'.problems.Perm c.problems

/-- **Every problem is reported, as often as it is there, whatever the order.** -/
theorem problemLaw [Idna] (c : Config) : ProblemLaw c := by
  refine ⟨?_, c.count_problems, fun c' h => h.problems_perm⟩
  unfold isValid
  rw [sound_iff, List.isEmpty_iff, List.eq_nil_iff_forall_not_mem]
  simp only [← count_problems, List.count_eq_zero]

/-! The third use of a name is a second duplicate, and a service without a name is nothing that a
route could name. -/

example :
    { (default : Config) with
      services := [⟨"a", "http://a:1"⟩, ⟨"", "http://b:1"⟩, ⟨"a", "http://c:1"⟩, ⟨"a", "ftp://d"⟩]
      routes := [⟨"r", "/r", "", ["get", "no method"], 0⟩] }.problems =
    [.emptyServiceName, .duplicateService "a", .duplicateService "a",
      .baseUrl "a" "ftp://d" (.unsupportedScheme "ftp".toList), .unknownService "r" "",
      .method "r" "no method"] := by
  decide +kernel

end Config

end Gatehouse
