import Gatehouse.Proofs.Routing.BestRoute

/-!
# Method lists

A route of the configuration lists the methods that it is for. What becomes of the list when the
table is made is told here for all routes, valid or not: entries that are no methods are dropped, and
a list of which nothing is left stands for every method, like one that was empty from the start.

* `Config.Route.Lists`, `Config.Route.Restricts` : what a list says, and whether anything of it is
  left in the table;
* `Route.takes_of_compile_iff` : the requests that a route of the table takes;
* `MethodLaw`, `methodLaw` : the methods of the requests that a route is found for.
-/

namespace Gatehouse

open Gatehouse.Http Gatehouse.Text

/-! ## The entries of a list -/

namespace Config.Route

/-- An entry of the method list is the method, in upper case. -/
def Lists (r : Config.Route) (method : Method) : Prop :=
  ∃ entry ∈ r.methods, upper entry.toList = method.name

instance (r : Config.Route) (method : Method) : Decidable (r.Lists method) :=
  inferInstanceAs (Decidable (∃ entry ∈ r.methods, _))

/-- Some entry of the method list is a method. -/
def Restricts (r : Config.Route) : Prop :=
  ∃ entry ∈ r.methods, isToken (upper entry.toList) = true

/-- The methods that a list names are the tokens that it lists. -/
theorem exists_method?_iff {r : Config.Route} {method : Method} :
    (∃ entry ∈ r.methods, method? entry = some method) ↔
      isToken method.name = true ∧ r.Lists method := by
  simp only [method?_eq_some_iff]
  constructor
  · rintro ⟨entry, hentry, htoken, hname⟩
    exact ⟨hname ▸ htoken, entry, hentry, hname⟩
  · rintro ⟨htoken, entry, hentry, hname⟩
    exact ⟨entry, hentry, hname.symm ▸ htoken, hname⟩

/-- In a valid configuration every entry is a method. -/
theorem restricts_of_isValid [Idna] {c : Config} (h : c.isValid = true) {r : Config.Route}
    (hr : r ∈ c.routes) (hmethods : r.methods ≠ []) : r.Restricts := by
  obtain ⟨entry, hentry⟩ := List.exists_mem_of_ne_nil r.methods hmethods
  exact ⟨entry, hentry, (method?_eq_some_iff.mp (method?_of_isValid h hr entry hentry)).1⟩

end Config.Route

/-! ## What is left of a list -/

namespace Routing

section Compile
variable {services : List Config.Service} {r : Config.Route} {route : Route}

theorem Route.methods_of_compile [Idna] (h : Route.compile services r = .ok route) :
    route.methods = r.methods.filterMap Config.method? := by
  unfold Route.compile at h
  split at h
  · cases h
  · split at h
    · cases h
    · cases h
      rfl

/-- Nothing is left of a list exactly if no entry of it is a method. -/
theorem Route.methods_eq_nil_iff [Idna] (h : Route.compile services r = .ok route) :
    route.methods = [] ↔ ¬ r.Restricts := by
  rw [Route.methods_of_compile h, List.filterMap_eq_nil_iff]
  unfold Config.Route.Restricts
  simp only [Config.method?_eq_none_iff, not_exists, not_and, Bool.not_eq_true]

/-- A route of the table takes the requests under its prefix whose method is listed, and all of them
if its list has no method in it. -/
theorem Route.takes_of_compile_iff [Idna] (h : Route.compile services r = .ok route)
    {method : Method} {path : List Char} :
    route.takes method path = true ↔ pieces '/' r.trimmed <+: pieces '/' path ∧
      (¬ r.Restricts ∨ isToken method.name = true ∧ r.Lists method) := by
  have hpath : route.path = r.trimmed := (Route.of_compile h).2
  have hmem : method ∈ route.methods ↔ isToken method.name = true ∧ r.Lists method := by
    rw [Route.methods_of_compile h, List.mem_filterMap]
    exact Config.Route.exists_method?_iff
  rw [Route.takes_iff, hpath, Route.methods_eq_nil_iff h, hmem]

theorem Table.mem_of_compile [Idna] {routes : List Config.Route} (hr : r ∈ routes)
    (h : Route.compile services r = .ok route) :
    route ∈ (Table.ofConfig routes services).1.routes := by
  unfold Table.ofConfig
  simp only [List.mem_mergeSort, List.mem_filterMap, List.mem_map]
  exact ⟨.ok route, ⟨r, hr, h⟩, rfl⟩

end Compile

/-! ## The law -/

/-- What the method lists of some routes come to for the requests with one method and one path. -/
structure MethodLaw [Idna] (routes : List Config.Route) (services : List Config.Service)
    (method : Method) (path : List Char) : Prop where
  /-- A route that takes the request is what some route of the configuration became. -/
  configured : ∀ route, taken? routes services method path = some route →
    ∃ r ∈ routes, Route.compile services r = .ok route
  /-- If its list has a method in it, the list has that of the request in it. -/
  listed : ∀ route, taken? routes services method path = some route →
    ∀ r, Route.compile services r = .ok route → r.Restricts → r.Lists method
  /-- If its list has no method in it, it takes requests of any method. -/
  widened : ∀ r route, Route.compile services r = .ok route → ¬ r.Restricts →
    pieces '/' r.trimmed <+: pieces '/' path → route.takes method path = true
  /-- If no route takes the request, the routes that its path is under are for other methods. -/
  passed : taken? routes services method path = none →
    ∀ r ∈ routes, ∀ route, Route.compile services r = .ok route →
      pieces '/' r.trimmed <+: pieces '/' path →
      r.Restricts ∧ (isToken method.name = true → ¬ r.Lists method)
  /-- In a valid configuration a list that is not empty has the method of the request in it. -/
  valid : ∀ c : Config, c.isValid = true → c.routes = routes → c.services = services →
    ∀ route, taken? routes services method path = some route →
      ∀ r ∈ routes, Route.compile services r = .ok route → r.methods ≠ [] → r.Lists method

/-- **A route takes the methods on its list, and every method if there is none on it**, for all
routes and services and every request. -/
theorem methodLaw [Idna] (routes : List Config.Route) (services : List Config.Service)
    (method : Method) (path : List Char) : MethodLaw routes services method path := by
  have htakes : ∀ route, taken? routes services method path = some route →
      route.takes method path = true := by
    intro route htaken
    unfold taken? Table.find? at htaken
    exact (List.find?_eq_some_iff_append.mp htaken).1
  have hlisted : ∀ route, taken? routes services method path = some route →
      ∀ r, Route.compile services r = .ok route → r.Restricts → r.Lists method := by
    intro route htaken r hr hrestricts
    have hmethods := ((Route.takes_of_compile_iff hr).mp (htakes route htaken)).2
    exact (hmethods.resolve_left fun hnot => hnot hrestricts).2
  refine ⟨?_, hlisted, ?_, ?_, ?_⟩
  · intro route htaken
    exact Table.exists_compile_of_mem (Table.of_find? htaken).1
  · intro r route hr hwide hpath
    exact (Route.takes_of_compile_iff hr).mpr ⟨hpath, .inl hwide⟩
  · intro hnone r hr route hroute hpath
    unfold taken? Table.find? at hnone
    have hnot := List.find?_eq_none.mp hnone route (Table.mem_of_compile hr hroute)
    rw [Route.takes_of_compile_iff hroute] at hnot
    constructor
    · by_contra hwide
      exact hnot ⟨hpath, .inl hwide⟩
    · intro htoken hlists
      exact hnot ⟨hpath, .inr ⟨htoken, hlists⟩⟩
  · rintro c hvalid rfl rfl route htaken r hr hroute hmethods
    exact hlisted route htaken r hroute (Config.Route.restricts_of_isValid hvalid hr hmethods)

/-! A route with a list of one entry, which is not a method. -/

def mistyped : Config.Route := ⟨"a", "/", "a", ["NOT A METHOD"], 0⟩

/-- The route takes a request whose method is not on its list. -/
theorem not_listed_mistyped :
    mistyped.methods ≠ [] ∧
      (taken? [mistyped] [⟨"a", "http://a:1"⟩] ⟨"DELETE".toList⟩ "/x".toList).map (·.name) =
        some mistyped.name ∧
      ¬ mistyped.Lists ⟨"DELETE".toList⟩ := by
  refine ⟨by decide, ?_, by decide +kernel⟩
  unfold taken?
  rw [Table.ofConfig_of_pairwise (by decide +kernel)]
  decide +kernel

end Routing

end Gatehouse
