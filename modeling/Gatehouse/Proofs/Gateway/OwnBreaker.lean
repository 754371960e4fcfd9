import Gatehouse.Gateway.Basic
import Gatehouse.Proofs.Breaker.Registry
import Gatehouse.Proofs.Routing.Table

/-!
# Every route has the breaker of its service

A route names a service and leads to a target; the breaker that guards a call is found from the
target alone. Where no two services are at one place the two agree.

* `Registry.entries_ofServices`, `Registry.get?_ofServices` : the registry of some services;
* `Registry.serviceOf?_of_base` : the base URL of a service belongs to it;
* `Config.DistinctOrigins` : no two services are at one place;
* `Gateway.OwnBreakers`, `Gateway.ownBreakers_ofConfig` : every route is guarded by the breaker of its
  service.
-/

namespace Gatehouse

open Gatehouse.Routing

namespace Registry

/-! ## The registry of some services -/

section OfServices
variable (settings : Breaker.Settings) (now : Moment)

theorem get?_add [Idna] (service base : String) (r : Registry) (name : String) :
    (r.add settings now service base).1.get? name =
      (r.get? name).or (if name = service then some (Breaker.new name settings now) else none) := by
  by_cases hn : name = service
  · subst hn
    rw [if_pos rfl]
    cases hg : r.get? name with
    | some b =>
      have ha : (r.add settings now name base).1.breakers = r.breakers := by
        simp [add, hg]
      exact (congrArg (List.find? _) ha).trans hg
    | none =>
      have ha : (r.add settings now name base).1.breakers =
          r.breakers ++ [Breaker.new name settings now] := by
        simp [add, hg]
      refine (congrArg (List.find? _) ha).trans ?_
      rw [List.find?_append]
      unfold get? at hg
      rw [hg]
      simp [Breaker.new]
  · rw [if_neg hn, Option.or_none]
    unfold add get?
    simp only
    split_ifs with hnew
    · rw [List.find?_append]
      simp [Breaker.new, Ne.symm hn]
    · rfl

theorem ofServices_fst [Idna] (services : List (String × String)) :
    (ofServices services settings now).1 =
      services.foldl (fun r s => (r.add settings now s.1 s.2).1) ⟨[], []⟩ := by
  have h : ∀ (r : Registry) (events : List Event),
      (services.foldl (fun (x : Registry × List Event) s =>
        ((x.1.add settings now s.1 s.2).1, x.2 ++ (x.1.add settings now s.1 s.2).2))
          (r, events)).1 = services.foldl (fun r s => (r.add settings now s.1 s.2).1) r := by
    induction services with
    | nil => exact fun r events => rfl
    | cons s services ih => exact fun r events => ih _ _
  exact h _ _

theorem entries_ofServices [Idna] (services : List (String × String)) :
    (ofServices services settings now).1.entries =
      services.map fun s => ⟨s.1, (Url.parse s.2.toList).toOption⟩ := by
  have h : ∀ r : Registry,
      (services.foldl (fun r s => (r.add settings now s.1 s.2).1) r).entries =
        r.entries ++ services.map fun s => ⟨s.1, (Url.parse s.2.toList).toOption⟩ := by
    induction services with
    | nil => exact fun r => (List.append_nil _).symm
    | cons s services ih =>
      intro r
      rw [List.foldl_cons, ih, List.map_cons, List.append_cons]
      rfl
  rw [ofServices_fst]
  exact h ⟨[], []⟩

theorem get?_ofServices [Idna] (services : List (String × String)) (name : String) :
    (ofServices services settings now).1.get? name =
      if name ∈ services.map Prod.fst then some (Breaker.new name settings now) else none := by
  have h : ∀ r : Registry,
      (services.foldl (fun r s => (r.add settings now s.1 s.2).1) r).get? name =
        (r.get? name).or
          (if name ∈ services.map Prod.fst then some (Breaker.new name settings now) else none) := by
    induction services with
    | nil => exact fun r => (Option.or_none ..).symm
    | cons s services ih =>
      intro r
      rw [List.foldl_cons, ih, get?_add, Option.or_assoc]
      congr 1
      by_cases hn : name = s.1
      · simp [hn]
      · rw [if_neg hn, Option.none_or]
        exact if_congr (by rw [List.map_cons, List.mem_cons, or_iff_right hn]) rfl rfl
  rw [ofServices_fst]
  exact h ⟨[], []⟩

end OfServices

/-! ## Base URLs -/

theorem sameOrigin_self (u : Url) : sameOrigin u u = true := by
  simp [sameOrigin]

theorem serviceOf?_of_base {r : Registry} {e : Entry} {base : Url}
    (hd : r.entries.Pairwise fun a b => ∀ x ∈ a.base, ∀ y ∈ b.base, sameOrigin x y = false)
    (he : e ∈ r.entries) (hb : e.base = some base) : r.serviceOf? base = some e.service := by
  obtain ⟨before, after, hsplit⟩ := List.append_of_mem he
  have hfind : (r.entries.find? fun e => e.base.any fun b => sameOrigin b base) = some e := by
    rw [List.find?_eq_some_iff_append]
    refine ⟨?_, before, after, hsplit, fun a ha => ?_⟩
    · rw [hb]
      exact sameOrigin_self base
    · rw [hsplit, List.pairwise_append] at hd
      have hae := hd.2.2 a ha e List.mem_cons_self
      cases hx : a.base with
      | none => rfl
      | some x =>
        have hs : sameOrigin x base = false := hae x hx base hb
        simp [hs]
  unfold serviceOf?
  rw [hfind]
  rfl

end Registry

/-! ## Routes -/

def Config.Service.sameOrigin [Idna] (s t : Config.Service) : Bool :=
  match Url.parse s.baseUrl.toList, Url.parse t.baseUrl.toList with
  | .ok x, .ok y => Registry.sameOrigin x y
  | _, _ => false

/-- No two services are at one place. -/
def Config.DistinctOrigins [Idna] (c : Config) : Prop :=
  c.services.Pairwise fun s t => s.sameOrigin t = false

instance [Idna] : DecidablePred Config.DistinctOrigins := fun c =>
  inferInstanceAs (Decidable (c.services.Pairwise fun s t => s.sameOrigin t = false))

namespace Gateway

/-- The breaker that guards the target of a route is the one of the route's service. -/
def OwnBreakers (table : Table) (r : Registry) : Prop :=
  ∀ route ∈ table.routes, r.serviceName route.target = route.service ∧
    (r.get? route.service).isSome = true

/-- **Every route has the breaker of its service** where no two services are at one place. -/
theorem ownBreakers_ofConfig [Idna] {c : Config} (hd : c.DistinctOrigins) (now : Moment) :
    OwnBreakers (Table.ofConfig c.routes c.services).1
      (Registry.ofServices (serviceAddresses c) c.circuitBreaker.settings now).1 := by
  intro route hroute
  obtain ⟨s, hs, hname, hparse⟩ := Table.target_of_mem hroute
  have hentries := Registry.entries_ofServices c.circuitBreaker.settings now (serviceAddresses c)
  unfold serviceAddresses at hentries ⊢
  rw [List.map_map] at hentries
  refine ⟨?_, ?_⟩
  · have he : ⟨s.name, some route.target⟩ ∈ c.services.map fun s =>
        (⟨s.name, (Url.parse s.baseUrl.toList).toOption⟩ : Registry.Entry) :=
      List.mem_map.mpr ⟨s, hs, by rw [hparse]; rfl⟩
    have hp : (c.services.map fun s =>
        (⟨s.name, (Url.parse s.baseUrl.toList).toOption⟩ : Registry.Entry)).Pairwise
          fun a b => ∀ x ∈ a.base, ∀ y ∈ b.base, Registry.sameOrigin x y = false :=
      List.pairwise_map.mpr (hd.imp fun h x hx y hy => by
        unfold Config.Service.sameOrigin at h
        rw [eq_ok_of_mem_toOption hx, eq_ok_of_mem_toOption hy] at h
        exact h)
    unfold Registry.serviceName
    rw [Registry.serviceOf?_of_base (hentries ▸ hp) (hentries ▸ he) rfl]
    exact hname
  · rw [Registry.get?_ofServices, if_pos]
    · rfl
    · exact List.mem_map.mpr ⟨(s.name, s.baseUrl), List.mem_map.mpr ⟨s, hs, rfl⟩, hname⟩

end Gateway

end Gatehouse
