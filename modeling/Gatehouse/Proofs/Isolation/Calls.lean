import Gatehouse.Gateway.Dispatch
import Gatehouse.Proofs.Isolation.Breakers

/-!
# Calls apart from those to one service

A call to a service, from its beginning to its end, shows at the breaker of that service only. A call
to another one goes the same way in two dispatchers that differ in that breaker.

* `Dispatcher.Near` : the same apart from the breaker of one service;
* `Dispatcher.near_start`, `Dispatcher.near_finish` : a call to the service itself;
* `Dispatcher.Near.start`, `Dispatcher.Near.finish` : a call to another one, on both sides.
-/

namespace Gatehouse

open Gatehouse.Http

namespace Event

theorem measurements_applyField (headers : Headers) (name : List Char) (value : String) :
    measurements (Identity.applyField headers name value).2 = [] := by
  unfold Identity.applyField
  simp only
  split <;> rfl

theorem measurements_apply (i : Identity) (headers : Headers) :
    measurements (i.apply headers).2 = [] := by
  have h : ∀ (fields : List (List Char × String)) (x : Headers × List Event),
      measurements x.2 = [] →
      measurements (fields.foldl
        (fun (x : Headers × List Event) (f : List Char × String) =>
          ((Identity.applyField x.1 f.1 f.2).1, x.2 ++ (Identity.applyField x.1 f.1 f.2).2)) x).2 =
        [] := by
    intro fields
    induction fields with
    | nil => exact fun x hx => hx
    | cons f fields ih =>
      intro x hx
      refine ih _ ?_
      rw [measurements_append, hx, measurements_applyField, List.append_nil]
  exact h i.fields (headers, []) rfl

theorem measurements_outbound {rules : ForwardingRules} {target : Url} {r : Request}
    {request : Outbound} {events : List Event}
    (h : outbound rules target r = .ok (request, events)) : measurements events = [] := by
  have hev : events = (outboundHeaders rules r).2 := by
    unfold outbound at h
    cases hu : targetUri target (stripPath rules.stripPrefix r.uri.path) r.uri.query with
    | error e =>
      rw [hu] at h
      cases h
    | ok uri =>
      rw [hu] at h
      cases h
      rfl
  rw [hev]
  unfold outboundHeaders
  cases r.identity with
  | some i => exact measurements_apply i _
  | none => rfl

end Event

namespace Dispatcher

/-- The same rules and timeout, and the same breakers but for that of `service`. -/
structure Near (service : String) (d₁ d₂ : Dispatcher) : Prop where
  registry : d₁.registry.Near service d₂.registry
  rules : d₁.rules = d₂.rules
  backendTimeout : d₁.backendTimeout = d₂.backendTimeout

namespace Near

variable {service : String} {d₁ d₂ d₃ : Dispatcher}

theorem refl (service : String) (d : Dispatcher) : Near service d d := ⟨.refl service _, rfl, rfl⟩

theorem symm (h : Near service d₁ d₂) : Near service d₂ d₁ :=
  ⟨h.registry.symm, h.rules.symm, h.backendTimeout.symm⟩

theorem trans (h : Near service d₁ d₂) (h' : Near service d₂ d₃) : Near service d₁ d₃ :=
  ⟨h.registry.trans h'.registry, h.rules.trans h'.rules, h.backendTimeout.trans h'.backendTimeout⟩

end Near

/-! ## How a call ends -/

section Finish
variable (d : Dispatcher) (now : Moment) (call : Forward)
  (result : Except ForwardingFailure Response)

theorem near_finish : Near call.service (d.finish now call result).2.1 d := by
  refine ⟨?_, rfl, rfl⟩
  unfold finish
  split_ifs
  · exact d.registry.near_update call.service _ fun b => Breaker.service_record b now _
  · exact .refl call.service d.registry

theorem measurements_conclude (service : String) :
    Event.measurements (conclude service result).2.2 = [] := by
  unfold conclude
  split <;> rfl

theorem labelled_finish : Event.Labelled call.service (d.finish now call result).2.2 := by
  have htold := Event.labelled_of_measurements_eq_nil
    (measurements_conclude result call.service) call.service
  unfold finish
  split_ifs
  · exact (d.registry.labelled_update call.service fun b => Breaker.labelled_record b now _).append
      htold
  · exact htold

variable {service : String} {d₁ d₂ : Dispatcher}

theorem Near.finish (h : Near service d₁ d₂) (hn : call.service ≠ service) :
    Near service (d₁.finish now call result).2.1 (d₂.finish now call result).2.1 ∧
      (d₁.finish now call result).2.2 = (d₂.finish now call result).2.2 := by
  unfold Dispatcher.finish
  split_ifs
  · exact ⟨⟨h.registry.update call.service fun b => Breaker.service_record b now _, h.rules,
      h.backendTimeout⟩, congrArg (· ++ _) (h.registry.update_snd hn _)⟩
  · exact ⟨h, rfl⟩

end Finish

/-! ## How a call begins -/

section Begin
variable (d : Dispatcher) (now : Moment) (service : String) (guarded : Bool) (target : Url)
  (r : Request)

def Start.service? : Start → Option String
  | answered _ => none
  | sent call _ => some call.service

theorem near_send :
    Near service (d.send now service guarded target r).2.1 d ∧
      Event.Labelled service (d.send now service guarded target r).2.2 ∧
      ∀ name, (d.send now service guarded target r).1.service? = some name → name = service := by
  unfold send
  cases ho : outbound d.rules target r with
  | error e => exact ⟨near_finish d now ⟨service, guarded, _⟩ _, labelled_finish d now _ _, nofun⟩
  | ok sent =>
    obtain ⟨request, events⟩ := sent
    have hev := Event.labelled_of_measurements_eq_nil (Event.measurements_outbound ho) service
    simp only
    split_ifs
    · exact ⟨near_finish d now ⟨service, guarded, _⟩ _, hev.append (labelled_finish d now _ _), nofun⟩
    · exact ⟨.refl service d, hev, fun name hname => (Option.some.inj hname).symm⟩

theorem Near.send {apart : String} {d₁ d₂ : Dispatcher} (h : Near apart d₁ d₂)
    (hn : service ≠ apart) :
    (d₁.send now service guarded target r).1 = (d₂.send now service guarded target r).1 ∧
      Near apart (d₁.send now service guarded target r).2.1
        (d₂.send now service guarded target r).2.1 ∧
      (d₁.send now service guarded target r).2.2 = (d₂.send now service guarded target r).2.2 := by
  unfold Dispatcher.send
  rw [h.rules, h.backendTimeout]
  have hfinish := fun result =>
    h.finish now ⟨service, guarded, deadline now d₂.backendTimeout⟩ result hn
  cases outbound d₂.rules target r with
  | error e => exact ⟨rfl, hfinish _⟩
  | ok sent =>
    simp only
    split_ifs
    · exact ⟨rfl, (hfinish _).1, congrArg (sent.2 ++ ·) (hfinish _).2⟩
    · exact ⟨rfl, h, rfl⟩

variable {target}

/-- A call whose target belongs to a service shows at its breaker only. -/
theorem near_start {service : String} (hs : d.registry.serviceName target = service)
    (hb : (d.registry.get? service).isSome = true) :
    Near service (d.start now target r).2.1 d ∧
      Event.Labelled service (d.start now target r).2.2 ∧
      ∀ name, (d.start now target r).1.service? = some name → name = service := by
  obtain ⟨b, hb⟩ := Option.isSome_iff_exists.mp hb
  have hres : d.registry.resolve target = some b := by
    unfold Registry.resolve
    rw [hs, hb]
  have hservice : b.service = service := Registry.service_of_get? hb
  have hasked : (b.begin now).2.1.service = service := (Breaker.service_begin b now).trans hservice
  have hlabel := Breaker.labelled_begin b now
  rw [hservice] at hlabel
  have hnear : Near service { d with registry := d.registry.replace (b.begin now).2.1 } d := by
    refine ⟨?_, rfl, rfl⟩
    have hr := d.registry.near_replace (b.begin now).2.1
    rwa [hasked] at hr
  unfold start
  rw [hres]
  simp only
  split_ifs
  · rw [hasked]
    obtain ⟨hsend, hl, hcall⟩ :=
      near_send { d with registry := d.registry.replace (b.begin now).2.1 } now service true target r
    exact ⟨hsend.trans hnear, hlabel.append hl, hcall⟩
  · exact ⟨hnear, hlabel.append (Event.labelled_of_measurements_eq_nil rfl service), nofun⟩

theorem Near.start {apart : String} {d₁ d₂ : Dispatcher} (h : Near apart d₁ d₂)
    (hn : d₂.registry.serviceName target ≠ apart)
    (hb : (d₂.registry.get? (d₂.registry.serviceName target)).isSome = true) :
    (d₁.start now target r).1 = (d₂.start now target r).1 ∧
      Near apart (d₁.start now target r).2.1 (d₂.start now target r).2.1 ∧
      (d₁.start now target r).2.2 = (d₂.start now target r).2.2 := by
  obtain ⟨b, hb⟩ := Option.isSome_iff_exists.mp hb
  have hres₂ : d₂.registry.resolve target = some b := hb
  have hres₁ : d₁.registry.resolve target = some b := (h.registry.resolve hn).trans hres₂
  have hasked : (b.begin now).2.1.service ≠ apart := by
    rw [Breaker.service_begin, Registry.service_of_get? hb]
    exact hn
  have hnear : Near apart { d₁ with registry := d₁.registry.replace (b.begin now).2.1 }
      { d₂ with registry := d₂.registry.replace (b.begin now).2.1 } :=
    ⟨h.registry.replace _, h.rules, h.backendTimeout⟩
  unfold Dispatcher.start
  rw [hres₁, hres₂]
  simp only
  split_ifs
  · obtain ⟨hs, hd, he⟩ := hnear.send now (b.begin now).2.1.service true target r hasked
    exact ⟨hs, hd, congrArg ((b.begin now).2.2 ++ ·) he⟩
  · exact ⟨rfl, hnear, rfl⟩

end Begin

/-! ## What is handed back -/

theorem conclude_ne_rateLimited (service : String) (result : Except ForwardingFailure Response) :
    (conclude service result).1 ≠ .rateLimited := by
  have hstatus : ∀ s : Status, Outcome.ofStatus s ≠ .rateLimited := by
    intro s
    unfold Outcome.ofStatus
    split <;> exact nofun
  unfold conclude
  split
  · exact hstatus _
  · exact hstatus _
  · exact nofun
  · exact nofun

theorem send_ne_rateLimited (d : Dispatcher) (now : Moment) (service : String) (guarded : Bool)
    (target : Url) (r : Request) {v : Verdict}
    (h : (d.send now service guarded target r).1 = .answered v) :
    v.answer.outcome ≠ some .rateLimited := by
  have hv : ∃ result, v = (d.finish now ⟨service, guarded, deadline now d.backendTimeout⟩ result).1 := by
    unfold send at h
    split at h
    · rename_i e _
      exact ⟨.error (.invalidTarget e), (Start.answered.inj h).symm⟩
    · dsimp only at h
      split_ifs at h
      exact ⟨.error (.timeout d.backendTimeout), (Start.answered.inj h).symm⟩
  obtain ⟨result, rfl⟩ := hv
  exact fun he => conclude_ne_rateLimited service result (Option.some.inj he)

theorem start_ne_rateLimited (d : Dispatcher) (now : Moment) (target : Url) (r : Request)
    {v : Verdict} (h : (d.start now target r).1 = .answered v) :
    v.answer.outcome ≠ some .rateLimited := by
  unfold start at h
  split at h
  · exact send_ne_rateLimited _ _ _ _ _ _ h
  · simp only at h
    split_ifs at h
    · exact send_ne_rateLimited _ _ _ _ _ _ h
    · rw [← Start.answered.inj h]
      exact nofun

end Dispatcher

end Gatehouse
