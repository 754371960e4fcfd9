import Gatehouse.Routing.Table

/-!
# Routes of a table

Every route of the table comes from a route of the configuration: its target is the base URL of the
service that it names, and its path is the configured prefix without slashes at the end.

* `Table.exists_compile_of_mem` : where a route comes from;
* `Table.ofConfig_of_pairwise` : routes that need no sorting;
* `Route.service_of_compile`, `Route.path_of_compile` : what it has from there;
* `Table.of_find?` : a route that is found is one of the table, and the path lies under it;
* `startsSegment_of_isUnder` : a path under a rooted prefix is rooted.
-/

namespace Gatehouse

theorem eq_ok_of_mem_toOption {ε β : Type} {x : Except ε β} {y : β} (h : y ∈ x.toOption) :
    x = .ok y := by
  cases x with
  | error e => cases h
  | ok z => exact congrArg Except.ok (Option.some.inj h)

namespace Routing

open Gatehouse.Http Gatehouse.Text

/-! ## Where a route comes from -/

section Compile
variable {routes : List Config.Route} {services : List Config.Service} {route : Route}

theorem Route.of_compile [Idna] {r : Config.Route} (h : Route.compile services r = .ok route) :
    (∃ s ∈ services, s.name = route.service ∧ Url.parse s.baseUrl.toList = .ok route.target) ∧
      route.path = trimPrefix r.pathPrefix.toList := by
  unfold Route.compile at h
  split at h
  · cases h
  · rename_i base hb
    split at h
    · cases h
    · rename_i target ht
      cases h
      unfold Route.baseUrl? at hb
      obtain ⟨s, hs, rfl⟩ := Option.map_eq_some_iff.mp hb
      have hn := List.find?_some hs
      exact ⟨⟨s, List.mem_reverse.mp (List.mem_of_find?_eq_some hs), of_decide_eq_true hn, ht⟩, rfl⟩

theorem Table.exists_compile_of_mem [Idna] (h : route ∈ (Table.ofConfig routes services).1.routes) :
    ∃ r ∈ routes, Route.compile services r = .ok route := by
  unfold Table.ofConfig at h
  simp only [List.mem_mergeSort, List.mem_filterMap, List.mem_map] at h
  obtain ⟨compiled, ⟨r, hr, rfl⟩, hc⟩ := h
  exact ⟨r, hr, eq_ok_of_mem_toOption hc⟩

theorem Table.target_of_mem [Idna] (h : route ∈ (Table.ofConfig routes services).1.routes) :
    ∃ s ∈ services, s.name = route.service ∧ Url.parse s.baseUrl.toList = .ok route.target := by
  obtain ⟨r, -, hr⟩ := Table.exists_compile_of_mem h
  exact (Route.of_compile hr).1

/-- Routes that are in order already make a table as they are. -/
theorem Table.ofConfig_of_pairwise [Idna]
    (h : ((routes.map (Route.compile services)).filterMap Except.toOption).Pairwise
      fun a b => a.mayPrecede b) :
    Table.ofConfig routes services =
      (⟨(routes.map (Route.compile services)).filterMap Except.toOption⟩,
        (Table.ofConfig routes services).2) :=
  Prod.ext (congrArg Table.mk (List.mergeSort_of_pairwise h)) rfl

end Compile

/-! ## What a route takes -/

theorem Table.of_find? {t : Table} {method : Method} {path : List Char} {route : Route}
    (h : t.find? method path = some route) :
    route ∈ t.routes ∧ isUnder route.path path = true := by
  unfold Table.find? at h
  have htakes := List.find?_some h
  simp only [Route.takes, Route.condition, Condition.holds, Condition.holdAll, Bool.and_eq_true]
    at htakes
  exact ⟨List.mem_of_find?_eq_some h, htakes.1⟩

/-- A path under a prefix that is empty or starts with a slash is so itself. -/
theorem startsSegment_of_isUnder {p path : List Char} (hp : startsSegment p = true)
    (h : isUnder p path = true) : startsSegment path = true := by
  obtain ⟨rest, hrest, hstarts⟩ := (Option.any_eq_true _ _).mp h
  obtain rfl := afterPrefix?_eq_some_iff.mp hrest
  cases p with
  | nil => exact hstarts
  | cons c p => exact hp

theorem startsSegment_trimPrefix {p : List Char} (hp : p.head? = some '/') :
    startsSegment (trimPrefix p) = true := by
  obtain ⟨n, hn⟩ := exists_append_dropEnd '/' p
  unfold trimPrefix
  cases htrim : dropEnd '/' p with
  | nil => rfl
  | cons c s =>
    rw [hn, htrim, List.cons_append, List.head?_cons] at hp
    exact decide_eq_true (Option.some.inj hp)

end Routing

end Gatehouse
