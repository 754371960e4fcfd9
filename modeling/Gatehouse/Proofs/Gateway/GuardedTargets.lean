import Gatehouse.Gateway.Dispatch
import Gatehouse.Proofs.Breaker.HostLabels
import Gatehouse.Proofs.Isolation.Breakers

/-!
# Which targets are guarded

A call to a target that belongs to a service is guarded by the breaker of such a service, and a call
to any other target goes past the breakers. There is one exception: a target that belongs to no
service is looked up as the unknown one, and that is a name that a service can have.

* `Dispatcher.PassesBy` : calls to a target change no breaker and ask none;
* `Dispatcher.passesBy_of_resolve` : so it is for every target that is not guarded;
* `Registry.resolve_eq_none_iff` : which targets are not guarded;
* `Registry.GuardLaw`, `Registry.guardLaw` : whose breaker guards a target.
-/

namespace Gatehouse

open Gatehouse.Http

/-! ## Calls past the breakers -/

namespace Dispatcher

/-- Calls to a target go past the breakers. Whatever states these are in, such a call begins in the
same way and leaves them as they are, and if it goes out it ends in the same way and leaves them as
they are then. -/
structure PassesBy (d : Dispatcher) (target : Url) : Prop where
  start : ∀ now r, ∃ begun events, ∀ registry : Registry, registry.SameServices d.registry →
    { d with registry := registry }.start now target r =
      (begun, { d with registry := registry }, events)
  finish : ∀ now r call request, (d.start now target r).1 = .sent call request →
    ∀ later result, ∃ verdict events, ∀ d' : Dispatcher,
      d'.finish later call result = (verdict, d', events)

theorem finish_of_not_guarded {call : Forward} (h : call.guarded = false) (later : Moment)
    (result : Except ForwardingFailure Response) : ∃ verdict events, ∀ d : Dispatcher,
      d.finish later call result = (verdict, d, events) := by
  refine ⟨.of (conclude call.service result).1 (conclude call.service result).2.1,
    (conclude call.service result).2.2, fun d => ?_⟩
  unfold finish
  rw [h]
  rfl

theorem send_of_not_guarded (d : Dispatcher) (now : Moment) (service : String) (target : Url)
    (r : Request) : ∃ begun events,
      (∀ registry, { d with registry := registry }.send now service false target r =
        (begun, { d with registry := registry }, events)) ∧
      ∀ call request, begun = .sent call request → call.guarded = false := by
  have hguarded : (⟨service, false, deadline now d.backendTimeout⟩ : Forward).guarded = false := rfl
  have hfinish := finish_of_not_guarded hguarded now
  cases ho : outbound d.rules target r with
  | error e =>
    obtain ⟨verdict, events, hend⟩ := hfinish (.error (.invalidTarget e))
    refine ⟨.answered verdict, events, fun registry => ?_, nofun⟩
    simp only [send, ho, finishAtOnce, hend]
  | ok sent =>
    obtain ⟨request, events⟩ := sent
    by_cases hdue : isDue (deadline now d.backendTimeout) now = true
    · obtain ⟨verdict, more, hend⟩ := hfinish (.error (.timeout d.backendTimeout))
      refine ⟨.answered verdict, events ++ more, fun registry => ?_, nofun⟩
      simp only [send, ho, finishAtOnce, hend, if_pos hdue]
    · refine ⟨.sent ⟨service, false, deadline now d.backendTimeout⟩ request, events,
        fun registry => ?_, fun call request h => ?_⟩
      · simp only [send, ho, if_neg hdue]
      · cases h
        rfl

theorem start_of_resolve_eq_none {d : Dispatcher} {target : Url}
    (h : d.registry.resolve target = none) (now : Moment) (r : Request) :
    d.start now target r = d.send now Registry.unknownService false target r := by
  unfold start
  rw [h]

theorem passesBy_of_resolve {d : Dispatcher} {target : Url}
    (h : d.registry.resolve target = none) : PassesBy d target := by
  refine ⟨fun now r => ?_, fun now r call request hsent later result => ?_⟩
  · obtain ⟨begun, events, hsend, -⟩ :=
      send_of_not_guarded d now Registry.unknownService target r
    refine ⟨begun, events, fun registry hsame => ?_⟩
    have hnone : registry.resolve target = none := by
      unfold Registry.resolve at h ⊢
      rw [hsame.serviceName target, ← Option.isNone_iff_eq_none, ← Option.not_isSome,
        hsame.isSome, h]
      rfl
    rw [start_of_resolve_eq_none hnone, hsend registry]
  · obtain ⟨begun, events, hsend, hguarded⟩ :=
      send_of_not_guarded d now Registry.unknownService target r
    rw [start_of_resolve_eq_none h, hsend d.registry] at hsent
    exact finish_of_not_guarded (hguarded call request hsent) later result

end Dispatcher

/-! ## Which targets are guarded -/

namespace Registry

section Guard
variable [Idna] {services : List (String × String)} {settings : Breaker.Settings} {now : Moment}
  {r : Registry} (hr : r.SameServices (ofServices services settings now).1)
include hr

theorem isSome_get?_iff (name : String) :
    (r.get? name).isSome = true ↔ name ∈ services.map Prod.fst := by
  rw [hr.isSome, get?_ofServices]
  split_ifs with h
  · exact iff_of_true rfl h
  · exact iff_of_false Bool.false_ne_true h

/-- A target is either looked up under the name of a service that it belongs to, or it belongs to
none and is looked up as the unknown one. -/
theorem serviceName_cases (target : Url) :
    Belongs services (r.serviceName target) target ∨
      r.serviceName target = unknownService ∧ ∀ service, ¬ Belongs services service target := by
  rw [hr.serviceName]
  unfold serviceName
  cases h : (ofServices services settings now).1.serviceOf? target with
  | some service => exact .inl (belongs_of_serviceOf? h)
  | none => exact .inr ⟨rfl, serviceOf?_eq_none_iff.mp h⟩

theorem resolve_eq_none_iff (target : Url) :
    r.resolve target = none ↔
      (∀ service, ¬ Belongs services service target) ∧ unknownService ∉ services.map Prod.fst := by
  unfold resolve
  rw [← Option.not_isSome_iff_eq_none, isSome_get?_iff hr]
  rcases serviceName_cases hr target with hbelongs | ⟨hname, hstrange⟩
  · obtain ⟨s, hs, hservice, -⟩ := id hbelongs
    exact iff_of_false (not_not_intro (hservice ▸ List.mem_map_of_mem hs))
      fun h => h.1 _ hbelongs
  · rw [hname]
    exact (and_iff_right hstrange).symm

end Guard

/-- Whose breaker in `r` guards a target, each service being given by its name and its base URL. -/
structure GuardLaw [Idna] (services : List (String × String)) (r : Registry) (target : Url) :
    Prop where
  /-- It is that of a service that the target belongs to, or that of a service with the name of the
  unknown one, and then the target belongs to none. -/
  guarded : ∀ b, r.resolve target = some b → Belongs services b.service target ∨
    b.service = unknownService ∧ ∀ service, ¬ Belongs services service target
  /-- A target is not guarded exactly if it belongs to no service and none has that name. -/
  resolve_eq_none_iff : r.resolve target = none ↔
    (∀ service, ¬ Belongs services service target) ∧ unknownService ∉ services.map Prod.fst
  /-- Calls to a target that is not guarded go past the breakers. -/
  passesBy : r.resolve target = none → ∀ rules limit, Dispatcher.PassesBy ⟨r, rules, limit⟩ target

/-- **Breakers guard the targets of their services**, and strange ones too if a service is named as
the unknown one. -/
theorem guardLaw [Idna] {services : List (String × String)} {settings : Breaker.Settings}
    {now : Moment}
    {r : Registry} (hr : r.SameServices (ofServices services settings now).1) (target : Url) :
    GuardLaw services r target where
  guarded b hb := by
    rw [resolve_service hb]
    exact serviceName_cases hr target
  resolve_eq_none_iff := Registry.resolve_eq_none_iff hr target
  passesBy h rules limit := Dispatcher.passesBy_of_resolve (d := ⟨r, rules, limit⟩) h

/-! A target that belongs to no service. -/

def elsewhere : Url :=
  ⟨"http".toList, some ⟨[], [], some (.name "somewhere-else".toList), none⟩, "/".toList, none, none⟩

/-- One service with a breaker that has counted a failure. -/
def oneFailure : Registry :=
  ((ofServices [("auth", "http://auth-service:3001")] default 0).1.update "auth"
    fun b => b.record false 1).1

/-- Calls to it go past that breaker. -/
theorem guardLaw_elsewhere :
    oneFailure.SameServices (ofServices [("auth", "http://auth-service:3001")] default 0).1 ∧
      GuardLaw [("auth", "http://auth-service:3001")] oneFailure elsewhere ∧
      oneFailure.resolve elsewhere = none := by
  have hsame : oneFailure.SameServices
      (ofServices [("auth", "http://auth-service:3001")] default 0).1 :=
    (near_update _ "auth" _ fun b => b.service_record 1 false).sameServices
  exact ⟨hsame, guardLaw hsame elsewhere, by decide +kernel⟩

/-- A service that is named as the unknown one guards it all the same. -/
theorem not_unguarded_elsewhere :
    Url.parse "http://somewhere-else:80".toList = .ok elsewhere ∧
      (∀ s ∈ [("unknown", "http://u:1")], s.1 ≠ "") ∧
      ([("unknown", "http://u:1")].map Prod.fst).Nodup ∧
      ¬ Belongs [("unknown", "http://u:1")] "unknown" elsewhere ∧
      ((ofServices [("unknown", "http://u:1")] default 0).1.resolve elsewhere).map (·.service) =
        some "unknown" := by
  refine ⟨?_, by decide, by decide, ?_, ?_⟩
  · decide +kernel
  · decide +kernel
  · decide +kernel

end Registry

end Gatehouse
