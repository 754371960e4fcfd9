import Gatehouse.Proofs.Config.Valid
import Gatehouse.Proofs.Routing.Table

/-!
# The table of a valid configuration

In a valid configuration every route finds its service, the address of the service is a URL, and the
entries of its method list are methods. So no route is left out of the table, and none loses a
method; the table holds the routes of the configuration, sorted.

* `Route.CompiledFrom` : a route of the table has everything from a route of the configuration;
* `Route.compiled` : the route of the table that a configured route becomes;
* `Table.ofConfig_of_isValid` : the table of a valid configuration, and what is said on the way.
-/

namespace Gatehouse.Routing

open Gatehouse.Http Gatehouse.Text

/-- `route` is what `r` becomes: its target is the address of the service that `r` names, its path
the prefix without slashes at the end, its methods all those of `r` in upper case. -/
structure Route.CompiledFrom [Idna] (services : List Config.Service) (r : Config.Route)
    (route : Route) : Prop where
  name : route.name = r.name
  service : route.service = r.service
  hasService : ∃ s ∈ services, s.name = r.service
  target : ∀ s ∈ services, s.name = r.service → Url.parse s.baseUrl.toList = .ok route.target
  priority : route.priority = r.priority.toNat
  path : route.path = trimPrefix r.pathPrefix.toList
  methods : route.methods = r.methods.map fun m => ⟨upper m.toList⟩

/-- The route that a route of the configuration becomes, when it is not left out. -/
def Route.compiled [Idna] (services : List Config.Service) (r : Config.Route) : Route :=
  (Route.compile services r).toOption.getD default

variable {c : Config}

theorem Route.baseUrl?_of_isValid [Idna] (h : c.isValid = true) {s : Config.Service}
    (hs : s ∈ c.services) : Route.baseUrl? c.services s.name = some s.baseUrl := by
  unfold Route.baseUrl?
  have hsome : (c.services.reverse.find? fun t => t.name = s.name).isSome = true :=
    List.find?_isSome.mpr ⟨s, List.mem_reverse.mpr hs, by simp⟩
  obtain ⟨t, ht⟩ := Option.isSome_iff_exists.mp hsome
  have hmem : t ∈ c.services := List.mem_reverse.mp (List.mem_of_find?_eq_some ht)
  have hname := List.find?_some ht
  obtain rfl : t = s :=
    Config.eq_of_name_eq (Config.nodup_of_isValid h) hmem hs (of_decide_eq_true hname)
  rw [ht, Option.map_some]

/-- No route of a valid configuration is left out, and each keeps everything that it says. -/
theorem Route.compile_of_isValid [Idna] (h : c.isValid = true) {r : Config.Route}
    (hr : r ∈ c.routes) : Route.compile c.services r = .ok (Route.compiled c.services r) ∧
      Route.CompiledFrom c.services r (Route.compiled c.services r) := by
  obtain ⟨s, hs, hname⟩ := Config.exists_service_of_isValid h hr
  obtain ⟨u, hu⟩ := Config.exists_parse_of_isValid h hs
  have hmethods : r.methods.filterMap Config.method? =
      r.methods.map fun m => ⟨upper m.toList⟩ := by
    rw [← List.filterMap_eq_map]
    exact List.filterMap_congr (Config.method?_of_isValid h hr)
  have hcompile : Route.compile c.services r =
      .ok ⟨r.name, r.service, u, r.priority.toNat, trimPrefix r.pathPrefix.toList,
        r.methods.map fun m => ⟨upper m.toList⟩⟩ := by
    unfold Route.compile
    rw [← hname, Route.baseUrl?_of_isValid h hs]
    simp only
    rw [hu, hmethods]
  unfold Route.compiled
  rw [hcompile]
  refine ⟨rfl, rfl, rfl, ⟨s, hs, hname⟩, ?_, rfl, rfl, rfl⟩
  intro t ht htname
  obtain rfl : t = s :=
    Config.eq_of_name_eq (Config.nodup_of_isValid h) ht hs (htname.trans hname.symm)
  exact hu

/-- The table of a valid configuration is the list of its routes, sorted, and no route is said to be
skipped. -/
theorem Table.ofConfig_of_isValid [Idna] (h : c.isValid = true) :
    Table.ofConfig c.routes c.services =
      (⟨(c.routes.map (Route.compiled c.services)).mergeSort Route.mayPrecede⟩,
        [.notice .routesReady]) := by
  have hcompiled : c.routes.map (Route.compile c.services) =
      (c.routes.map (Route.compiled c.services)).map .ok := by
    rw [List.map_map]
    exact List.map_congr_left fun r hr => (Route.compile_of_isValid h hr).1
  have hkept : ∀ l : List Route,
      (l.map (Except.ok (ε := Notice))).filterMap Except.toOption = l := by
    intro l
    rw [List.filterMap_map]
    exact List.filterMap_some
  unfold Table.ofConfig
  simp only
  rw [hcompiled, hkept]
  congr 1
  rw [List.filterMap_map, List.append_left_eq_self, List.filterMap_eq_nil_iff]
  exact fun r _ => rfl

end Gatehouse.Routing
