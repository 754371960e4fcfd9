import Gatehouse.Proofs.Routing.Compiled
import Gatehouse.Proofs.Routing.Segments
import Gatehouse.Proofs.StableSort

/-!
# The best route

Which route takes a request can be said of the configuration alone: among the routes whose prefix
and methods fit the request it is the one of the highest priority, of these the one with the longest
prefix, and of these the first.

* `Config.Route.Fits`, `Config.Route.IsBest` : the routes that fit a request, and the best of them;
* `taken?_eq` : the route that takes a request is the first of the best;
* `BestRoute`, `bestRoute_of_isValid` : what follows, and which changes of a configuration it does not
  notice.
-/

namespace Gatehouse

open Gatehouse.Http Gatehouse.Text

namespace Routing

/-! ## The order of the table -/

theorem Route.mayPrecede_iff (a b : Route) : Route.mayPrecede a b = true ↔
    b.priority < a.priority ∨ a.priority = b.priority ∧ b.pathSize ≤ a.pathSize := by
  simp [mayPrecede]

theorem Route.mayPrecede_trans (a b c : Route) (hab : Route.mayPrecede a b = true)
    (hbc : Route.mayPrecede b c = true) : Route.mayPrecede a c = true := by
  rw [mayPrecede_iff] at hab hbc ⊢
  omega

theorem Route.mayPrecede_total (a b : Route) :
    (Route.mayPrecede a b || Route.mayPrecede b a) = true := by
  rw [Bool.or_eq_true, mayPrecede_iff, mayPrecede_iff]
  omega

end Routing

/-! ## Routes that fit -/

namespace Config.Route

open Gatehouse.Routing

variable (routes : List Config.Route) (method : Method) (path : List Char)

def trimmed (r : Config.Route) : List Char := trimPrefix r.pathPrefix.toList

/-- A route fits a request when the path begins with the segments of its prefix, and its method list
is empty or has the method of the request in it, in either case of letters. -/
def Fits (r : Config.Route) : Prop :=
  pieces '/' r.trimmed <+: pieces '/' path ∧
    (r.methods = [] ∨ ∃ m ∈ r.methods, upper m.toList = method.name)

instance (r : Config.Route) : Decidable (r.Fits method path) :=
  inferInstanceAs (Decidable (_ ∧ _))

/-- No other route that fits the request has a higher priority or, of the same priority, a longer
prefix. -/
structure IsBest (r : Config.Route) : Prop where
  fits : r.Fits method path
  highest : ∀ s ∈ routes, s.Fits method path → s.priority ≤ r.priority
  longest : ∀ s ∈ routes, s.Fits method path → s.priority = r.priority →
    s.trimmed.length ≤ r.trimmed.length

theorem isBest_iff (r : Config.Route) : r.IsBest routes method path ↔
    r.Fits method path ∧ (∀ s ∈ routes, s.Fits method path → s.priority ≤ r.priority) ∧
      ∀ s ∈ routes, s.Fits method path → s.priority = r.priority →
        s.trimmed.length ≤ r.trimmed.length :=
  ⟨fun h => ⟨h.fits, h.highest, h.longest⟩, fun h => ⟨h.1, h.2.1, h.2.2⟩⟩

instance (r : Config.Route) : Decidable (r.IsBest routes method path) :=
  decidable_of_iff _ (isBest_iff routes method path r).symm

variable {routes method path}

theorem Fits.prefix {r : Config.Route} (h : r.Fits method path) : r.trimmed <+: path :=
  prefix_of_isUnder ((isUnder_iff _ _).mpr h.1)

/-- The best routes are equal in what they are compared by. -/
theorem IsBest.tied {r s : Config.Route} (hr : r ∈ routes) (hs : s ∈ routes)
    (hbest : r.IsBest routes method path) (hbest' : s.IsBest routes method path) :
    s.priority = r.priority ∧ s.trimmed = r.trimmed := by
  have hpriority : s.priority = r.priority :=
    UInt32.le_antisymm (hbest.highest s hs hbest'.fits) (hbest'.highest r hr hbest.fits)
  have hle := hbest.longest s hs hbest'.fits hpriority
  have hge := hbest'.longest r hr hbest.fits hpriority.symm
  refine ⟨hpriority, ?_⟩
  have hprefix : s.trimmed <+: r.trimmed :=
    List.prefix_of_prefix_length_le hbest'.fits.prefix hbest.fits.prefix hle
  exact hprefix.eq_of_length (by omega)

/-- Only the routes that fit have a say in which are the best. -/
theorem isBest_congr {routes' : List Config.Route} {r : Config.Route}
    (h : ∀ s, s.Fits method path → (s ∈ routes' ↔ s ∈ routes)) :
    r.IsBest routes' method path ↔ r.IsBest routes method path := by
  rw [isBest_iff, isBest_iff]
  constructor
  · rintro ⟨hfits, hhighest, hlongest⟩
    exact ⟨hfits, fun s hs hs' => hhighest s ((h s hs').mpr hs) hs',
      fun s hs hs' => hlongest s ((h s hs').mpr hs) hs'⟩
  · rintro ⟨hfits, hhighest, hlongest⟩
    exact ⟨hfits, fun s hs hs' => hhighest s ((h s hs').mp hs) hs',
      fun s hs hs' => hlongest s ((h s hs').mp hs) hs'⟩

end Config.Route

/-! ## The route that is taken -/

namespace Config

/-- The gateway does not need all of its routes to be valid. -/
theorem isValid_of_subset [Idna] {c : Config} (h : c.isValid = true) {routes : List Config.Route}
    (hroutes : ∀ r ∈ routes, r ∈ c.routes) : { c with routes := routes }.isValid = true := by
  obtain ⟨hlistener, hservices, hvalid, hrest⟩ := c.isValid_iff.1 h
  exact (isValid_iff _).2
    ⟨hlistener, hservices, fun r hr => hvalid r (hroutes r hr), hrest⟩

end Config

namespace Routing

/-- The route that takes a request, by the routes and services of a configuration. -/
def taken? [Idna] (routes : List Config.Route) (services : List Config.Service) (method : Method)
    (path : List Char) : Option Route :=
  (Table.ofConfig routes services).1.find? method path

variable {c : Config} {method : Method} {path : List Char}

theorem Route.takes_iff (r : Route) : r.takes method path = true ↔
    pieces '/' r.path <+: pieces '/' path ∧ (r.methods = [] ∨ method ∈ r.methods) := by
  simp [takes, condition, Condition.holds, Condition.holdAll, isUnder_iff, allows]

/-- A route of the table takes the requests that its route of the configuration fits. -/
theorem Route.takes_compiled_iff [Idna] (h : c.isValid = true) {r : Config.Route}
    (hr : r ∈ c.routes) :
    (Route.compiled c.services r).takes method path = true ↔ r.Fits method path := by
  have hfrom := (Route.compile_of_isValid h hr).2
  rw [Route.takes_iff, hfrom.path, hfrom.methods, List.map_eq_nil_iff, List.mem_map]
  have hname (m : String) : (⟨upper m.toList⟩ : Method) = method ↔ upper m.toList = method.name := by
    cases method
    exact Iff.of_eq (Method.mk.injEq ..)
  simp only [hname]
  exact Iff.rfl

/-- Among the routes that fit a request the table has those in front that are better. -/
theorem Route.mayPrecede_compiled_iff [Idna] (h : c.isValid = true) {r s : Config.Route}
    (hr : r ∈ c.routes) (hs : s ∈ c.routes) (hrfits : r.Fits method path)
    (hsfits : s.Fits method path) :
    Route.mayPrecede (Route.compiled c.services r) (Route.compiled c.services s) = true ↔
      s.priority ≤ r.priority ∧
        (s.priority = r.priority → s.trimmed.length ≤ r.trimmed.length) := by
  have hrfrom := (Route.compile_of_isValid h hr).2
  have hsfrom := (Route.compile_of_isValid h hs).2
  have hsize : (Route.compiled c.services s).pathSize ≤ (Route.compiled c.services r).pathSize ↔
      s.trimmed.length ≤ r.trimmed.length := by
    unfold Route.pathSize
    rw [hrfrom.path, hsfrom.path]
    exact byteLength_le_iff hsfits.prefix hrfits.prefix
  rw [Route.mayPrecede_iff, hsize, hrfrom.priority, hsfrom.priority, UInt32.le_iff_toNat_le,
    ← UInt32.toNat_inj]
  omega

/-- **The first of the best routes takes a request.** -/
theorem taken?_eq [Idna] (h : c.isValid = true) (method : Method) (path : List Char) :
    taken? c.routes c.services method path =
      (c.routes.find? fun r => r.IsBest c.routes method path).map (Route.compiled c.services) := by
  let le (r s : Config.Route) : Bool :=
    Route.mayPrecede (Route.compiled c.services r) (Route.compiled c.services s)
  let fits (r : Config.Route) : Bool := r.Fits method path
  have hsorted : (c.routes.map (Route.compiled c.services)).mergeSort Route.mayPrecede =
      (c.routes.mergeSort le).map (Route.compiled c.services) :=
    (List.map_mergeSort (r := le) (s := Route.mayPrecede) fun _ _ _ _ => rfl).symm
  have htakes : ∀ r ∈ c.routes.mergeSort le,
      (Route.compiled c.services r).takes method path = fits r := by
    intro r hr
    rw [Bool.eq_iff_iff, Route.takes_compiled_iff h (List.mem_mergeSort.mp hr)]
    exact decide_eq_true_iff.symm
  have hhead : (c.routes.mergeSort le).find? fits =
      (c.routes.filter fits).find? fun r => (c.routes.filter fits).all (le r) := by
    rw [← List.head?_filter, filter_mergeSort, head?_mergeSort]
    · exact fun r s t => Route.mayPrecede_trans _ _ _
    · exact fun r s => Route.mayPrecede_total _ _
    · exact fun r s t => Route.mayPrecede_trans _ _ _
    · exact fun r s => Route.mayPrecede_total _ _
  have hbest : ∀ r ∈ c.routes, decide (fits r = true ∧ (c.routes.filter fits).all (le r) = true) =
      decide (r.IsBest c.routes method path) := by
    intro r hr
    rw [decide_eq_decide, Config.Route.isBest_iff, List.all_eq_true]
    simp only [List.mem_filter, and_imp, fits, decide_eq_true_eq]
    refine and_congr_right fun hrfits => ?_
    rw [← forall₂_and]
    refine forall₂_congr fun s hs => ?_
    rw [← forall_and]
    exact forall_congr' fun hsfits => Route.mayPrecede_compiled_iff h hr hs hrfits hsfits
  unfold taken? Table.find?
  rw [Table.ofConfig_of_isValid h]
  simp only
  rw [hsorted, List.find?_map]
  refine congrArg (Option.map _) ((find?_congr (q := fits) htakes).trans ?_)
  rw [hhead, List.find?_filter]
  exact find?_congr hbest

theorem isSome_taken?_iff [Idna] (h : c.isValid = true) :
    (taken? c.routes c.services method path).isSome = true ↔
      ∃ r ∈ c.routes, r.Fits method path := by
  unfold taken? Table.find?
  rw [Table.ofConfig_of_isValid h, List.find?_isSome]
  simp only [List.mem_mergeSort, List.mem_map]
  constructor
  · rintro ⟨_, ⟨r, hr, rfl⟩, htakes⟩
    exact ⟨r, hr, (Route.takes_compiled_iff h hr).mp htakes⟩
  · rintro ⟨r, hr, hfits⟩
    exact ⟨_, ⟨r, hr, rfl⟩, (Route.takes_compiled_iff h hr).mpr hfits⟩

/-- Where only routes that do not fit are missing, the best are the same. -/
theorem taken?_of_subset [Idna] (h : c.isValid = true) {routes : List Config.Route}
    (hsubset : ∀ r ∈ routes, r ∈ c.routes)
    (hfits : ∀ r ∈ c.routes, r.Fits method path → r ∈ routes) :
    taken? routes c.services method path =
      (routes.find? fun r => r.IsBest c.routes method path).map (Route.compiled c.services) := by
  refine (taken?_eq (Config.isValid_of_subset h hsubset) method path).trans ?_
  refine congrArg (Option.map _) (find?_congr fun r _ => ?_)
  rw [decide_eq_decide]
  exact Config.Route.isBest_congr fun s hs => ⟨hsubset s, fun hmem => hfits s hmem hs⟩

/-- The order of the routes does not matter but for those that are equal in priority and in the size
of their trimmed prefix, whatever the size of a text may be. -/
theorem taken?_perm [Idna] (h : c.isValid = true) {routes : List Config.Route}
    (size : List Char → Nat) (hperm : routes.Perm c.routes)
    (hties : ∀ (priority : UInt32) (n : Nat),
      (routes.filter fun r => r.priority = priority ∧ size r.trimmed = n) =
        c.routes.filter fun r => r.priority = priority ∧ size r.trimmed = n) :
    taken? routes c.services method path = taken? c.routes c.services method path := by
  rw [taken?_of_subset h (fun r hr => hperm.mem_iff.mp hr) fun r hr _ => hperm.mem_iff.mpr hr,
    taken?_eq h]
  refine congrArg (Option.map _) ?_
  by_cases hex : ∃ r ∈ c.routes, r.IsBest c.routes method path
  · obtain ⟨r, hr, hrbest⟩ := hex
    -- the best routes are all among those that are tied with one of them
    have htied : ∀ l : List Config.Route, l.Perm c.routes →
        (l.find? fun s => s.IsBest c.routes method path) =
          (l.filter fun s => s.priority = r.priority ∧ size s.trimmed = size r.trimmed).find?
            fun s => s.IsBest c.routes method path := by
      intro l hl
      rw [List.find?_filter]
      refine find?_congr fun s hs => ?_
      rw [decide_eq_decide, decide_eq_true_iff, decide_eq_true_iff]
      refine (and_iff_right_of_imp fun hsbest => ?_).symm
      obtain ⟨hpriority, htrimmed⟩ := hrbest.tied hr (hl.mem_iff.mp hs) hsbest
      exact ⟨hpriority, congrArg size htrimmed⟩
    rw [htied routes hperm, htied c.routes (List.Perm.refl _), hties]
  · rw [List.find?_eq_none.mpr, List.find?_eq_none.mpr]
    · exact fun r hr hrbest => hex ⟨r, hr, of_decide_eq_true hrbest⟩
    · exact fun r hr hrbest => hex ⟨r, hperm.mem_iff.mp hr, of_decide_eq_true hrbest⟩

/-- A route that does not fit a request is not missed when it is taken away. -/
theorem taken?_without [Idna] (h : c.isValid = true) {before after : List Config.Route}
    {r : Config.Route} (hroutes : c.routes = before ++ r :: after) (hr : ¬ r.Fits method path) :
    taken? (before ++ after) c.services method path = taken? c.routes c.services method path := by
  have hnot : ¬ r.IsBest c.routes method path := fun hbest => hr hbest.fits
  have hfind : ((before ++ after).find? fun s : Config.Route => s.IsBest c.routes method path) =
      (before ++ r :: after).find? fun s : Config.Route => s.IsBest c.routes method path := by
    rw [List.find?_append, List.find?_append, List.find?_cons_of_neg (by simpa using hnot)]
  rw [taken?_of_subset h, hfind, ← hroutes, taken?_eq h]
  · intro s hs
    rw [hroutes]
    rcases List.mem_append.mp hs with hs | hs
    · exact List.mem_append_left _ hs
    · exact List.mem_append_right _ (List.mem_cons_of_mem r hs)
  · intro s hs hfits
    have hne : s ≠ r := fun heq => hr (heq ▸ hfits)
    simpa [hroutes, hne] using hs

/-- What routing comes to for the requests with one method and one path. -/
structure BestRoute [Idna] (c : Config) (method : Method) (path : List Char) : Prop where
  /-- Some route is taken when some route of the configuration fits. -/
  isSome_iff : (taken? c.routes c.services method path).isSome = true ↔
    ∃ r ∈ c.routes, r.Fits method path
  /-- The one that is taken fits, has the highest priority of those that fit, the longest prefix of
  those of this priority, and comes before all others for which this is true. -/
  best : ∀ route, taken? c.routes c.services method path = some route →
    ∃ before r after, c.routes = before ++ r :: after ∧ Route.CompiledFrom c.services r route ∧
      r.Fits method path ∧
      (∀ s ∈ c.routes, s.Fits method path → s.priority ≤ r.priority) ∧
      (∀ s ∈ c.routes, s.Fits method path → s.priority = r.priority →
        s.trimmed.length ≤ r.trimmed.length) ∧
      ∀ s ∈ before, s.Fits method path → s.priority = r.priority →
        s.trimmed.length ≠ r.trimmed.length
  /-- It stays the same when routes change places but for those that are tied. -/
  permuted : ∀ (routes : List Config.Route) (size : List Char → Nat), routes.Perm c.routes →
    (∀ (priority : UInt32) (n : Nat),
      (routes.filter fun r => r.priority = priority ∧ size r.trimmed = n) =
        c.routes.filter fun r => r.priority = priority ∧ size r.trimmed = n) →
    taken? routes c.services method path = taken? c.routes c.services method path
  /-- It stays the same when a route comes or goes that does not fit. -/
  without : ∀ before r after, c.routes = before ++ r :: after → ¬ r.Fits method path →
    taken? (before ++ after) c.services method path = taken? c.routes c.services method path

/-- **Routing takes the best route**, for every valid configuration and every request. -/
theorem bestRoute_of_isValid [Idna] (c : Config) (hvalid : c.isValid = true) (method : Method)
    (path : List Char) : BestRoute c method path where
  isSome_iff := isSome_taken?_iff hvalid
  permuted := fun _ size hperm hties => taken?_perm hvalid size hperm hties
  without := fun _ _ _ hroutes hr => taken?_without hvalid hroutes hr
  best := by
    intro route htaken
    rw [taken?_eq hvalid] at htaken
    obtain ⟨r, hfind, rfl⟩ := Option.map_eq_some_iff.mp htaken
    rw [List.find?_eq_some_iff_append] at hfind
    obtain ⟨hbest, before, after, hsplit, hbefore⟩ := hfind
    have hbest : r.IsBest c.routes method path := of_decide_eq_true hbest
    have hr : r ∈ c.routes := by
      rw [hsplit]
      exact List.mem_append_right before List.mem_cons_self
    refine ⟨before, r, after, hsplit, (Route.compile_of_isValid hvalid hr).2, hbest.fits,
      hbest.highest, hbest.longest, ?_⟩
    intro s hs hfits hpriority hlength
    have hsbest : s.IsBest c.routes method path :=
      ⟨hfits, fun t ht htfits => hpriority ▸ hbest.highest t ht htfits,
        fun t ht htfits htp => hlength ▸ hbest.longest t ht htfits (htp.trans hpriority)⟩
    have hnot := hbefore s hs
    simp [hsbest] at hnot

example : (Config.storefront.routes.find? fun r =>
    r.IsBest Config.storefront.routes .get "/shop/cart/3".toList).map (·.name) = some "cart" := by
  decide +kernel

theorem bestRoute_storefront :
    Config.storefront.isValid = true ∧
      BestRoute Config.storefront .get "/shop/cart/3".toList := by
  have hvalid : Config.storefront.isValid = true := by decide +kernel
  exact ⟨hvalid, bestRoute_of_isValid Config.storefront hvalid .get "/shop/cart/3".toList⟩

end Routing

end Gatehouse
