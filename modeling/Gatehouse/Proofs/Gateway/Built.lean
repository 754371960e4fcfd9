import Gatehouse.Proofs.Gateway.OwnBreaker
import Gatehouse.Proofs.Routing.Compiled

/-!
# The gateway of a valid configuration

The route table, the registry and the limiter are each made from the configuration on their own, and
each has a way to go on when something in it does not fit. Behind a valid configuration none of these
ways is taken.

* `Registry.ofServices_eq` : the registry of services with names of their own and usable addresses;
* `Gateway.WellBuilt` : nothing of the configuration is lost in the gateway;
* `Gateway.wellBuilt_ofConfig` : so it is for every valid configuration.
-/

namespace Gatehouse

open Gatehouse.Routing

theorem Event.notices_append (events more : List Event) :
    notices (events ++ more) = notices events ++ notices more :=
  List.filterMap_append

theorem Event.notices_gauges (breakers : List Breaker) :
    notices (breakers.map Breaker.gauge) = [] := by
  unfold notices
  rw [List.filterMap_map]
  exact List.filterMap_eq_nil_iff.mpr fun b _ => rfl

namespace Registry

variable (settings : Breaker.Settings) (now : Moment)

theorem add_eq [Idna] {r : Registry} {service base : String} {u : Url}
    (hnew : r.get? service = none) (hbase : Url.parse base.toList = .ok u) :
    r.add settings now service base =
      (⟨r.breakers ++ [Breaker.new service settings now], r.entries ++ [⟨service, some u⟩]⟩,
        [(Breaker.new service settings now).gauge]) := by
  unfold add
  simp [hnew, hbase, Except.toOption]

/-- Services with names of their own and usable addresses have a breaker and an entry each, and no
address is called unusable. -/
theorem ofServices_eq [Idna] {services : List (String × String)}
    (hnames : (services.map Prod.fst).Nodup)
    (hbases : ∀ s ∈ services, ∃ u, Url.parse s.2.toList = .ok u) :
    ofServices services settings now =
      (⟨services.map fun s => Breaker.new s.1 settings now,
          services.map fun s => ⟨s.1, (Url.parse s.2.toList).toOption⟩⟩,
        (services.map fun s => Breaker.new s.1 settings now).map Breaker.gauge ++
          [.notice .circuitsReady]) := by
  -- for a registry that has none of the names yet
  have h : ∀ (r : Registry) (events : List Event), (∀ s ∈ services, r.get? s.1 = none) →
      services.foldl (fun (x : Registry × List Event) s =>
          ((x.1.add settings now s.1 s.2).1, x.2 ++ (x.1.add settings now s.1 s.2).2))
          (r, events) =
        (⟨r.breakers ++ services.map fun s => Breaker.new s.1 settings now,
            r.entries ++ services.map fun s => ⟨s.1, (Url.parse s.2.toList).toOption⟩⟩,
          events ++ (services.map fun s => Breaker.new s.1 settings now).map Breaker.gauge) := by
    induction services with
    | nil => intro r events _; simp
    | cons s services ih =>
      intro r events hr
      rw [List.map_cons, List.nodup_cons] at hnames
      obtain ⟨u, hu⟩ := hbases s List.mem_cons_self
      have hadd := add_eq settings now (hr s List.mem_cons_self) hu
      rw [List.foldl_cons, ih hnames.2 fun t ht => hbases t (List.mem_cons_of_mem s ht)]
      · simp [hadd, hu, Except.toOption]
      · intro t ht
        have hne : t.1 ≠ s.1 := by
          intro hsame
          exact hnames.1 (List.mem_map.mpr ⟨t, ht, hsame⟩)
        rw [get?_add, hr t (List.mem_cons_of_mem s ht), if_neg hne]
        rfl
  exact congrArg (fun x : Registry × List Event => (x.1, x.2 ++ [.notice .circuitsReady]))
    (h ⟨[], []⟩ [] fun _ _ => rfl)

end Registry

namespace Gateway

variable {α : Type}

/-- The gateway `g` has everything that the configuration `c` says, and `events`, which are told
while it is built, speak of nothing left out. -/
structure WellBuilt [Idna] (c : Config) (now : Moment) (g : Gateway α) (events : List Event) :
    Prop where
  config : g.config = c
  /-- The table is the list of the configured routes in another order. -/
  routes : ∃ compiled, g.table.routes.Perm compiled ∧
    List.Forall₂ (Route.CompiledFrom c.services) c.routes compiled
  /-- Each service has one breaker. -/
  breakers : g.registry.breakers =
    c.services.map fun s => Breaker.new s.name c.circuitBreaker.settings now
  nodup : (g.registry.breakers.map (·.service)).Nodup
  closed : ∀ b ∈ g.registry.breakers, b.circuit = .closed ∧ b.failures = 0
  settings : 0 < c.circuitBreaker.settings.maxFailures ∧
    0 < c.circuitBreaker.settings.openTimeout
  /-- And its address is known. -/
  entries : List.Forall₂ (fun s e => e.service = s.name ∧
    ∃ u, e.base = some u ∧ Url.parse s.baseUrl.toList = .ok u) c.services g.registry.entries
  /-- Nothing is skipped, and no address is unusable. -/
  notices : Event.notices events = [.routesReady, .circuitsReady]
  sweepInterval : g.config.rateLimit.enabled = true → 0 < g.limiter.sweepInterval
  connectTimeout : 0 < Span.seconds g.config.timeouts.connectSecs.toNat
  backendTimeout : 0 < g.dispatcher.backendTimeout
  requestTimeout : 0 < Span.seconds g.config.timeouts.requestSecs.toNat

/-- **Nothing of a valid configuration is lost** in the gateway that is built from it. -/
theorem wellBuilt_ofConfig [Idna] [TokenArithmetic α] (c : Config) (now : Moment)
    (hvalid : c.isValid = true) :
    WellBuilt c now (ofConfig (α := α) c now).1 (ofConfig (α := α) c now).2 := by
  have hnames : ((serviceAddresses c).map Prod.fst).Nodup := by
    unfold serviceAddresses
    rw [List.map_map]
    exact Config.nodup_of_isValid hvalid
  have hbases : ∀ s ∈ serviceAddresses c, ∃ u, Url.parse s.2.toList = .ok u := by
    intro s hs
    obtain ⟨t, ht, rfl⟩ := List.mem_map.mp hs
    exact Config.exists_parse_of_isValid hvalid ht
  have hregistry := Registry.ofServices_eq c.circuitBreaker.settings now hnames hbases
  have htable := Table.ofConfig_of_isValid hvalid
  obtain ⟨hconnect, hbackend, hrequest⟩ := Config.timeouts_pos hvalid
  have hbreakers : (ofConfig (α := α) c now).1.registry.breakers =
      c.services.map fun s => Breaker.new s.name c.circuitBreaker.settings now := by
    show (Registry.ofServices _ _ _).1.breakers = _
    rw [hregistry]
    exact List.map_map
  refine {
    config := rfl
    routes := ⟨c.routes.map (Route.compiled c.services), ?_, ?_⟩
    breakers := hbreakers
    nodup := ?_
    closed := ?_
    settings := Config.breaker_pos hvalid
    entries := ?_
    notices := ?_
    sweepInterval := fun henabled => Config.sweepInterval_pos hvalid henabled
    connectTimeout := hconnect
    backendTimeout := hbackend
    requestTimeout := hrequest }
  · show (Table.ofConfig _ _).1.routes.Perm _
    rw [htable]
    exact List.mergeSort_perm ..
  · rw [List.forall₂_map_right_iff, List.forall₂_same]
    exact fun r hr => (Route.compile_of_isValid hvalid hr).2
  · rw [hbreakers, List.map_map]
    exact Config.nodup_of_isValid hvalid
  · rw [hbreakers]
    intro b hb
    obtain ⟨s, -, rfl⟩ := List.mem_map.mp hb
    exact ⟨rfl, rfl⟩
  · show List.Forall₂ _ _ (Registry.ofServices _ _ _).1.entries
    rw [hregistry]
    unfold serviceAddresses
    rw [List.forall₂_map_right_iff, List.forall₂_map_right_iff, List.forall₂_same]
    intro s hs
    obtain ⟨u, hu⟩ := Config.exists_parse_of_isValid hvalid hs
    exact ⟨rfl, u, by simp [hu, Except.toOption], hu⟩
  · show Event.notices ((Table.ofConfig _ _).2 ++ (Registry.ofServices _ _ _).2) = _
    rw [htable, hregistry, Event.notices_append, Event.notices_append, Event.notices_gauges]
    rfl

/-- A route with a slash at its end and a method in lower case is in the table all the same. -/
theorem wellBuilt_ofConfig_storefront :
    Config.storefront.isValid = true ∧
      WellBuilt Config.storefront 0 (ofConfig (α := Rat) Config.storefront 0).1
        (ofConfig (α := Rat) Config.storefront 0).2 := by
  have hvalid : Config.storefront.isValid = true := by decide +kernel
  exact ⟨hvalid, wellBuilt_ofConfig Config.storefront 0 hvalid⟩

end Gateway

end Gatehouse
