import Gatehouse.Proofs.Gateway.OwnBreaker
import Gatehouse.Proofs.Isolation.Calls
import Gatehouse.Proofs.Isolation.Seen
import Gatehouse.Proofs.Unwinding
import Mathlib.Data.List.Find

/-!
# Requests apart from those to one service

What a gateway does for a request that is routed to a service shows at the breaker of that service,
at its calls, and in what is seen of it. Everything else it does in the same way whatever the breaker
and the calls of that service are like.

* `Call.Owned` : it is known which service a call goes to;
* `Gateway.Near` : the same apart from the breaker and the calls of one service;
* `near_conclude`, `near_respond`, `near_expire` : what is done for a call to the service itself;
* `Near.conclude`, `Near.respond`, `Near.expire` : what is done for a call to another, on both sides.
-/

namespace Gatehouse

open Gatehouse.Http Gatehouse.Routing

/-- It is known from the subject of its request which service a call goes to: that of the route. -/
structure Call.Owned (subjects : List (String × Subject)) (c : Call) : Prop where
  inbound : ∃ i, c.inbound = some i ∧ i.service = c.forward.service
  subject : subjects.lookup c.id = some (.service c.forward.service)

theorem Call.Owned.service_eq {subjects : List (String × Subject)} {c : Call}
    (h : c.Owned subjects) {id service : String} (hc : c.id = id)
    (hid : subjects.lookup id = some (.service service)) : c.forward.service = service := by
  have hs := h.subject
  rw [hc, hid, Option.some.injEq, Subject.service.injEq] at hs
  exact hs.symm

namespace Gateway

variable {α : Type}

/-- The same apart from the breaker and the calls of `service`. -/
structure Near (service : String) (g₁ g₂ : Gateway α) : Prop where
  config : g₁.config = g₂.config
  table : g₁.table = g₂.table
  dispatcher : g₁.dispatcher.Near service g₂.dispatcher
  limiter : g₁.limiter = g₂.limiter
  calls : (g₁.calls.filter fun c => c.forward.service ≠ service) =
    g₂.calls.filter fun c => c.forward.service ≠ service

namespace Near

variable {service : String} {g₁ g₂ g₃ : Gateway α}

theorem refl (service : String) (g : Gateway α) : Near service g g :=
  ⟨rfl, rfl, .refl service _, rfl, rfl⟩

theorem symm (h : Near service g₁ g₂) : Near service g₂ g₁ :=
  ⟨h.config.symm, h.table.symm, h.dispatcher.symm, h.limiter.symm, h.calls.symm⟩

theorem trans (h : Near service g₁ g₂) (h' : Near service g₂ g₃) : Near service g₁ g₃ :=
  ⟨h.config.trans h'.config, h.table.trans h'.table, h.dispatcher.trans h'.dispatcher,
    h.limiter.trans h'.limiter, h.calls.trans h'.calls⟩

theorem setLimiter (h : Near service g₁ g₂) {l₁ l₂ : Limiter α} (hl : l₁ = l₂) :
    Near service { g₁ with limiter := l₁ } { g₂ with limiter := l₂ } :=
  ⟨h.config, h.table, h.dispatcher, hl, h.calls⟩

end Near

/-! ## Calls under way -/

section Calls
variable {service : String} {subjects : List (String × Subject)} {g g₁ g₂ : Gateway α}

theorem near_removeCall (hg : ∀ c ∈ g.calls, c.Owned subjects) {id : String}
    (hid : subjects.lookup id = some (.service service)) : Near service (g.removeCall id) g := by
  refine ⟨rfl, rfl, .refl service _, rfl, ?_⟩
  unfold removeCall
  rw [List.filter_filter]
  refine List.filter_congr fun c hc => ?_
  by_cases he : c.id = id
  · simp [(hg c hc).service_eq he hid]
  · simp [he]

theorem Near.removeCall (h : Near service g₁ g₂) (id : String) :
    Near service (g₁.removeCall id) (g₂.removeCall id) := by
  refine ⟨h.config, h.table, h.dispatcher, h.limiter, ?_⟩
  unfold Gateway.removeCall
  rw [List.filter_comm, h.calls, List.filter_comm]

theorem Near.call?_eq (h : Near service g₁ g₂) (h₁ : ∀ c ∈ g₁.calls, c.Owned subjects)
    (h₂ : ∀ c ∈ g₂.calls, c.Owned subjects) {id name : String}
    (hid : subjects.lookup id = some (.service name)) (hn : name ≠ service) :
    g₁.call? id = g₂.call? id := by
  have apart : ∀ calls : List Call, (∀ c ∈ calls, c.Owned subjects) →
      (calls.find? fun c => c.id = id) =
        (calls.filter fun c => c.forward.service ≠ service).find? fun c => c.id = id := by
    intro calls hc
    rw [List.find?_filter]
    refine List.find?_congr fun c hmem => ?_
    by_cases he : c.id = id
    · simp [(hc c hmem).service_eq he hid, hn, he]
    · simp [he]
  unfold call?
  rw [apart g₁.calls h₁, apart g₂.calls h₂, h.calls]

end Calls

/-! ## The end of a call -/

section Conclude
variable {service : String} {subjects : List (String × Subject)} {g g₁ g₂ : Gateway α} (now : Moment)
  {call : Call} (result : Except ForwardingFailure Response)

/-- What is measured of an answer on its way out is about the service of the call. -/
theorem labelled_leave (hc : call.Owned subjects) (v : Verdict) :
    Event.Labelled call.forward.service (leave call now v).2 := by
  obtain ⟨i, hi, hs⟩ := hc.inbound
  unfold leave
  rw [hi]
  intro m hm
  obtain rfl := List.mem_singleton.mp hm
  exact congrArg some hs

theorem near_conclude (hg : ∀ c ∈ g.calls, c.Owned subjects) (hc : call.Owned subjects) :
    Near call.forward.service (g.conclude now call result).2.1 g ∧
      Event.Labelled call.forward.service (g.conclude now call result).2.2 := by
  have hr := near_removeCall hg hc.subject
  refine ⟨⟨hr.config, hr.table, ?_, hr.limiter, hr.calls⟩, ?_⟩
  · exact Dispatcher.near_finish g.dispatcher now call.forward result
  · exact (Dispatcher.labelled_finish g.dispatcher now call.forward result).append
      (labelled_leave now hc _)

theorem Near.conclude (h : Near service g₁ g₂) (hn : call.forward.service ≠ service) :
    (g₁.conclude now call result).1 = (g₂.conclude now call result).1 ∧
      Near service (g₁.conclude now call result).2.1 (g₂.conclude now call result).2.1 ∧
      (g₁.conclude now call result).2.2 = (g₂.conclude now call result).2.2 := by
  obtain ⟨hd, he⟩ := h.dispatcher.finish now call.forward result hn
  have hr := h.removeCall call.id
  exact ⟨rfl, ⟨hr.config, hr.table, hd, hr.limiter, hr.calls⟩, congrArg (· ++ _) he⟩

end Conclude

section Ends
variable {service : String} {subjects : List (String × Subject)} {g g₁ g₂ : Gateway α} (now : Moment)

theorem near_respond (hg : ∀ c ∈ g.calls, c.Owned subjects) {id : String}
    (hid : subjects.lookup id = some (.service service)) (backend : Backend) :
    Near service (g.respond now id backend).2.1 g ∧
      Event.Labelled service (g.respond now id backend).2.2 := by
  unfold respond
  cases hc : g.call? id with
  | none => exact ⟨.refl service g, Event.labelled_of_measurements_eq_nil rfl service⟩
  | some call =>
    have hmem : call ∈ g.calls := List.mem_of_find?_eq_some hc
    have hcid : call.id = id := by simpa using List.find?_some hc
    have hs : call.forward.service = service := (hg call hmem).service_eq hcid hid
    have h := near_conclude now (backend.result g.dispatcher.backendTimeout) hg (hg call hmem)
    rw [hs] at h
    exact h

theorem Near.respond (h : Near service g₁ g₂) (h₁ : ∀ c ∈ g₁.calls, c.Owned subjects)
    (h₂ : ∀ c ∈ g₂.calls, c.Owned subjects) {id name : String}
    (hid : subjects.lookup id = some (.service name)) (hn : name ≠ service) (backend : Backend) :
    (g₁.respond now id backend).1 = (g₂.respond now id backend).1 ∧
      Near service (g₁.respond now id backend).2.1 (g₂.respond now id backend).2.1 ∧
      (g₁.respond now id backend).2.2 = (g₂.respond now id backend).2.2 := by
  unfold Gateway.respond
  rw [h.call?_eq h₁ h₂ hid hn, h.dispatcher.backendTimeout]
  cases hc : g₂.call? id with
  | none => exact ⟨rfl, h, rfl⟩
  | some call =>
    have hcid : call.id = id := by simpa using List.find?_some hc
    have hs : call.forward.service = name :=
      (h₂ call (List.mem_of_find?_eq_some hc)).service_eq hcid hid
    obtain ⟨ha, hg, he⟩ := h.conclude now (backend.result g₂.dispatcher.backendTimeout) (hs ▸ hn)
    exact ⟨congrArg some ha, hg, he⟩

theorem near_expire (hg : ∀ c ∈ g.calls, c.Owned subjects) {call : Call}
    (hc : call.Owned subjects) :
    Near call.forward.service (g.expire now call).2.1 g ∧
      Event.Labelled call.forward.service (g.expire now call).2.2 := by
  unfold expire
  split
  · split_ifs
    · exact ⟨near_removeCall hg hc.subject, Event.labelled_of_measurements_eq_nil rfl _⟩
    · exact near_conclude now _ hg hc
  · exact near_conclude now _ hg hc

theorem Near.expire (h : Near service g₁ g₂) {call : Call} (hn : call.forward.service ≠ service) :
    (g₁.expire now call).1 = (g₂.expire now call).1 ∧
      Near service (g₁.expire now call).2.1 (g₂.expire now call).2.1 ∧
      (g₁.expire now call).2.2 = (g₂.expire now call).2.2 := by
  unfold Gateway.expire
  rw [h.dispatcher.backendTimeout]
  split
  · split_ifs
    · exact ⟨rfl, h.removeCall call.id, rfl⟩
    · exact h.conclude now _ hn
  · exact h.conclude now _ hn

end Ends

end Gateway

end Gatehouse
