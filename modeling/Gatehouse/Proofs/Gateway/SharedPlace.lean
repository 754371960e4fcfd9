import Gatehouse.Gateway.Dispatch
import Gatehouse.Proofs.Config.Valid
import Gatehouse.Proofs.Gateway.OwnBreaker
import Gatehouse.Proofs.Isolation.Breakers

/-!
# Services at one place

A call carries the address it is made to and not the name of its service, so of several services at
one place it is the first whose breaker guards the calls to all of them.

* `Config.serviceAt?` : the first service at an address;
* `Registry.Guards` : the breaker of a name guards an address;
* `Gateway.Guarded` : the service that answers for a route, and what its breaker does;
* `Gateway.guarded_ofConfig` : for every route of a valid configuration there is one.
-/

namespace Gatehouse

open Gatehouse.Http Gatehouse.Routing

/-! ## The first service at a place -/

namespace Config

/-- The first service whose address is the place that `target` leads to. -/
def serviceAt? [Idna] (c : Config) (target : Url) : Option Service :=
  c.services.find? fun s =>
    (Url.parse s.baseUrl.toList).toOption.any fun base => Registry.sameOrigin base target

/-- No service in front of the one of this name is at the same place. -/
def FirstAtPlace [Idna] (c : Config) (name : String) : Prop :=
  ∀ before s after, c.services = before ++ s :: after → s.name = name →
    ∀ e ∈ before, e.sameOrigin s = false

theorem DistinctOrigins.firstAtPlace [Idna] {c : Config} (hd : c.DistinctOrigins) (name : String) :
    c.FirstAtPlace name := by
  intro before s after hsplit _ e he
  unfold DistinctOrigins at hd
  rw [hsplit, List.pairwise_append] at hd
  exact hd.2.2 e he s List.mem_cons_self

theorem Service.sameOrigin_eq [Idna] {s : Service} {target : Url}
    (hs : Url.parse s.baseUrl.toList = .ok target) (e : Service) :
    e.sameOrigin s =
      (Url.parse e.baseUrl.toList).toOption.any fun base => Registry.sameOrigin base target := by
  unfold Service.sameOrigin
  rw [hs]
  cases Url.parse e.baseUrl.toList with
  | error _ => rfl
  | ok base => rfl

variable {c : Config}

/-- Among services with names of their own, one that is at a place is found there exactly when it is
the first. -/
theorem serviceAt?_eq_some_iff [Idna] (hn : (c.services.map (·.name)).Nodup) {s : Service}
    {target : Url} (hs : s ∈ c.services) (htarget : Url.parse s.baseUrl.toList = .ok target) :
    c.serviceAt? target = some s ↔ c.FirstAtPlace s.name := by
  have hself : s.sameOrigin s = true := by
    rw [Service.sameOrigin_eq htarget, htarget]
    exact Registry.sameOrigin_self target
  have hfind : c.serviceAt? target = c.services.find? fun e => e.sameOrigin s := by
    unfold serviceAt?
    congr 1
    funext e
    rw [Service.sameOrigin_eq htarget e]
  rw [hfind]
  constructor
  · intro hfirst before t after hsplit hname e he
    have ht : t ∈ c.services := by
      rw [hsplit]
      exact List.mem_append_right before List.mem_cons_self
    obtain rfl : t = s := eq_of_name_eq hn ht hs hname
    by_contra hsame
    rw [Bool.not_eq_false] at hsame
    have hfront : (before.find? fun e => e.sameOrigin t).isSome = true :=
      List.find?_isSome.mpr ⟨e, he, hsame⟩
    rw [hsplit, List.find?_append] at hfirst
    obtain ⟨x, hx⟩ := Option.isSome_iff_exists.mp hfront
    rw [hx, Option.some_or] at hfirst
    have hmem : t ∈ before := by
      rw [← Option.some.inj hfirst]
      exact List.mem_of_find?_eq_some hx
    have hnodup : (before ++ t :: after).Nodup := by
      rw [← hsplit]
      exact hn.of_map _
    exact (List.nodup_append.mp hnodup).2.2 t hmem t List.mem_cons_self rfl
  · intro hfirst
    obtain ⟨before, after, hsplit⟩ := List.append_of_mem hs
    rw [List.find?_eq_some_iff_append]
    refine ⟨hself, before, after, hsplit, fun e he => ?_⟩
    rw [hfirst before s after hsplit rfl e he]
    rfl

end Config

/-! ## The breaker that guards a target -/

namespace Registry

/-- The breaker of `name` guards `target`. -/
structure Guards (r : Registry) (name : String) (target : Url) : Prop where
  serviceName : r.serviceName target = name
  isSome : (r.get? name).isSome = true

variable {r : Registry} {name : String} {target : Url}

theorem Guards.resolve (h : r.Guards name target) :
    ∃ b, r.resolve target = some b ∧ b.service = name := by
  obtain ⟨b, hb⟩ := Option.isSome_iff_exists.mp h.isSome
  refine ⟨b, ?_, service_of_get? hb⟩
  unfold Registry.resolve
  rw [h.serviceName]
  exact hb

theorem Guards.of_sameServices {r' : Registry} (h : r.Guards name target)
    (hr : r'.SameServices r) : r'.Guards name target := by
  refine ⟨?_, ?_⟩
  · rw [hr.serviceName target]
    exact h.serviceName
  · rw [hr.isSome name]
    exact h.isSome

theorem Guards.resolve_update (h : r.Guards name target) (service : String)
    (operation : Breaker → Breaker × List Event)
    (hop : ∀ b, (operation b).1.service = b.service) :
    (r.update service operation).1.resolve target =
      if service = name then (r.resolve target).map fun b => (operation b).1
      else r.resolve target := by
  have hname : (r.update service operation).1.serviceName target = name := by
    have hs := (near_update r service operation hop).sameServices
    rw [hs.serviceName target]
    exact h.serviceName
  unfold Registry.resolve
  rw [hname, h.serviceName, get?_update r service operation hop]
  exact if_congr eq_comm rfl rfl

end Registry

/-! ## Routes -/

namespace Gateway

/-- The breakers of a configuration as they are at `now`, when it comes into force. -/
def registryOf [Idna] (c : Config) (now : Moment) : Registry :=
  (Registry.ofServices (serviceAddresses c) c.circuitBreaker.settings now).1

theorem find?_entries_registryOf [Idna] (c : Config) (now : Moment) (target : Url) :
    ((registryOf c now).entries.find? fun e =>
        e.base.any fun base => Registry.sameOrigin base target).map (·.service) =
      (c.serviceAt? target).map (·.name) := by
  have hentries : (registryOf c now).entries = c.services.map fun s =>
      (⟨s.name, (Url.parse s.baseUrl.toList).toOption⟩ : Registry.Entry) := by
    unfold registryOf
    rw [Registry.entries_ofServices]
    unfold serviceAddresses
    rw [List.map_map]
    rfl
  rw [hentries, List.find?_map, Option.map_map]
  rfl

/-- The first service at a place guards all calls to it. -/
theorem guards_of_serviceAt? [Idna] {c : Config} {s : Config.Service} {target : Url} (now : Moment)
    (h : c.serviceAt? target = some s) : (registryOf c now).Guards s.name target := by
  have hs : s ∈ c.services := List.mem_of_find?_eq_some h
  refine ⟨?_, ?_⟩
  · have hfind := find?_entries_registryOf c now target
    rw [h, Option.map_some] at hfind
    obtain ⟨e, he, hname⟩ := Option.map_eq_some_iff.mp hfind
    unfold Registry.serviceName Registry.serviceOf?
    rw [he, Option.some_or, Option.map_some, Option.getD_some]
    exact hname
  · have hmem : s.name ∈ (serviceAddresses c).map Prod.fst :=
      List.mem_map.mpr ⟨(s.name, s.baseUrl), List.mem_map.mpr ⟨s, hs, rfl⟩, rfl⟩
    unfold registryOf
    rw [Registry.get?_ofServices, if_pos hmem]
    rfl

/-- The service `s` answers for a route. Its breaker, however far it has come since the start, is
the one that calls on the route are counted against, refused by and reset through. -/
structure Guarded [Idna] (c : Config) (now : Moment) (route : Route) (s : Config.Service) :
    Prop where
  /-- No service in front of it is where the route leads to. -/
  serviceAt? : c.serviceAt? route.target = some s
  /-- At the start its breaker is a new one. -/
  resolve_eq : (registryOf c now).resolve route.target =
    some (Breaker.new s.name c.circuitBreaker.settings now)
  /-- Later on it is its breaker still. -/
  resolve : ∀ r : Registry, r.SameServices (registryOf c now) →
    ∃ b, r.resolve route.target = some b ∧ b.service = s.name
  /-- A result that is recorded under its name shows there, and no other does. -/
  counted : ∀ r : Registry, r.SameServices (registryOf c now) →
    ∀ (service : String) (succeeded : Bool) (later : Moment),
      (r.update service fun b => b.record succeeded later).1.resolve route.target =
        if service = s.name then (r.resolve route.target).map fun b => (b.record succeeded later).1
        else r.resolve route.target
  /-- While it is open calls are turned away in its name. -/
  refused : ∀ d : Dispatcher, d.registry.SameServices (registryOf c now) →
    ∀ (b : Breaker) (later : Moment) (request : Request),
      d.registry.resolve route.target = some b → (b.tryAcquire later).1 = false →
        (d.start later route.target request).1 = .answered (Dispatcher.refusal s.name)
  /-- A reset under its name reaches it, and no other does. -/
  reset : ∀ r : Registry, r.SameServices (registryOf c now) →
    ∀ (service : String) (later : Moment),
      (r.reset service later).2.1.resolve route.target =
        if service = s.name then (r.resolve route.target).map fun b => (b.reset later).1
        else r.resolve route.target
  /-- It is the service that the route names, if no service in front of that one is at its place. -/
  own_iff : s.name = route.service ↔ c.FirstAtPlace route.service
  own_of_distinctOrigins : c.DistinctOrigins → s.name = route.service

/-- **For every route of a valid configuration the first service at its target answers.** -/
theorem guarded_ofConfig [Idna] (c : Config) (hvalid : c.isValid = true) (now : Moment)
    (route : Route) (hroute : route ∈ (Table.ofConfig c.routes c.services).1.routes) :
    ∃ s ∈ c.services, Guarded c now route s := by
  have hn : (c.services.map (·.name)).Nodup := Config.nodup_of_isValid hvalid
  obtain ⟨own, hown, hname, htarget⟩ := Table.target_of_mem hroute
  have hsome : (c.serviceAt? route.target).isSome = true := by
    refine List.find?_isSome.mpr ⟨own, hown, ?_⟩
    rw [htarget]
    exact Registry.sameOrigin_self route.target
  obtain ⟨s, hs⟩ := Option.isSome_iff_exists.mp hsome
  have hmem : s ∈ c.services := List.mem_of_find?_eq_some hs
  have hguards := guards_of_serviceAt? now hs
  have hnew : (registryOf c now).resolve route.target =
      some (Breaker.new s.name c.circuitBreaker.settings now) := by
    have hget := Registry.get?_ofServices c.circuitBreaker.settings now (serviceAddresses c) s.name
    have hsome := hguards.isSome
    unfold registryOf at hsome
    rw [hget] at hsome
    unfold Registry.resolve
    rw [hguards.serviceName]
    refine hget.trans (if_pos ?_)
    by_contra hno
    rw [if_neg hno] at hsome
    cases hsome
  have hown_iff : s.name = route.service ↔ c.FirstAtPlace route.service := by
    rw [← hname, ← Config.serviceAt?_eq_some_iff hn hown htarget, hs]
    constructor
    · intro hsame
      rw [Config.eq_of_name_eq hn hmem hown hsame]
    · intro hsame
      rw [Option.some.inj hsame]
  refine ⟨s, hmem, {
    serviceAt? := hs
    resolve_eq := hnew
    resolve := fun r hr => (hguards.of_sameServices hr).resolve
    counted := fun r hr service succeeded later =>
      (hguards.of_sameServices hr).resolve_update service _
        fun b => b.service_record later succeeded
    refused := ?_
    reset := ?_
    own_iff := hown_iff
    own_of_distinctOrigins := fun hd => hown_iff.mpr (hd.firstAtPlace route.service) }⟩
  · intro d hd b later request hb hrefused
    have hbegin := b.begin_eq later
    obtain ⟨b', hb', hservice⟩ := (hguards.of_sameServices hd).resolve
    obtain rfl : b' = b := Option.some.inj (hb'.symm.trans hb)
    unfold Dispatcher.start
    rw [hb]
    simp only [hbegin.1, hrefused, Bool.false_eq_true, if_false, Breaker.service_begin, hservice]
  · intro r hr service later
    rw [(r.reset_eq_update service later).2]
    exact (hguards.of_sameServices hr).resolve_update service _ fun b => b.service_reset later

/-! Two services behind one address, and a route to the second of them. -/

def sharedPlace : Config :=
  { (default : Config) with
    services := [⟨"a", "http://x:1/v1"⟩, ⟨"b", "http://x:1/v1/"⟩]
    routes := [⟨"to-b", "/b", "b", [], 0⟩] }

def routeToB : Route :=
  ⟨"to-b", "b", ⟨"http".toList, some ⟨[], [], some (.name "x".toList), some 1⟩,
    "/v1/".toList, none, none⟩, 0, "/b".toList, []⟩

theorem routes_sharedPlace :
    (Table.ofConfig sharedPlace.routes sharedPlace.services).1.routes = [routeToB] := by
  have hcompile : sharedPlace.routes.map (Route.compile sharedPlace.services) = [.ok routeToB] := by
    decide +kernel
  unfold Table.ofConfig
  simp [hcompile, Except.toOption]

/-- The first service answers for the route to the second. -/
theorem guarded_ofConfig_sharedPlace :
    sharedPlace.isValid = true ∧ ∃ s ∈ sharedPlace.services, Guarded sharedPlace 0 routeToB s := by
  have hvalid : sharedPlace.isValid = true := by decide +kernel
  refine ⟨hvalid, guarded_ofConfig sharedPlace hvalid 0 routeToB ?_⟩
  rw [routes_sharedPlace]
  exact List.mem_singleton_self routeToB

/-- A route of a valid configuration can lead to the breaker of a service that it does not name. -/
theorem not_own_breaker_sharedPlace :
    sharedPlace.isValid = true ∧ ∃ route ∈ (Table.ofConfig sharedPlace.routes
      sharedPlace.services).1.routes, route.service = "b" ∧
        ((registryOf sharedPlace 0).resolve route.target).map (·.service) = some "a" := by
  refine ⟨by decide +kernel, routeToB, ?_, rfl, by decide +kernel⟩
  rw [routes_sharedPlace]
  exact List.mem_singleton_self routeToB

end Gateway

end Gatehouse
