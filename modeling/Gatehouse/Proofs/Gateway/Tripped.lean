import Gatehouse.Proofs.Gateway.AdminKey

/-!
# Circuits that stay open

A circuit is closed by the success of a call, or by hand. A request that comes in is no success of a
call yet, so it closes no circuit but the one that it asks to have reset.

* `Registry.Tripped` : the circuit of a service is not closed;
* `Gateway.resetOf?` : the service whose reset a request asks for;
* `Gateway.tripped_arrive` : a request closes no circuit but the one that it asks to have reset;
* `Gateway.Resets`, `Gateway.resets_of_shown` : a reset of one service and of no other.
-/

namespace Gatehouse

open Gatehouse.Http Gatehouse.Text

/-! ## Breakers -/

namespace Breaker

variable {b : Breaker} (now : Moment)

/-- To ask closes no circuit, -/
theorem circuit_begin_ne (h : b.circuit ≠ .closed) : (b.begin now).2.1.circuit ≠ .closed := by
  rw [(b.begin_eq now).2]
  unfold tryAcquire
  split
  · split
    · exact nofun
    · exact h
  · exact h

/-- and neither does a failure. -/
theorem circuit_recordFailure_ne (h : b.circuit ≠ .closed) :
    (b.recordFailure now).1.circuit ≠ .closed := by
  unfold recordFailure
  dsimp only
  split
  · exact nofun
  · exact h

end Breaker

/-- There is a breaker of a service, and its circuit is not closed. -/
def Registry.Tripped (r : Registry) (service : String) : Prop :=
  ∃ b, r.get? service = some b ∧ b.circuit ≠ .closed

namespace Registry.Tripped

variable {r : Registry} {service : String}

theorem replace (h : r.Tripped service) {b : Breaker}
    (hb : b.service = service → b.circuit ≠ .closed) : (r.replace b).Tripped service := by
  obtain ⟨old, hold, hopen⟩ := h
  unfold Tripped
  rw [get?_replace]
  split_ifs with hname
  · exact ⟨b, by rw [hold, Option.map_some], hb hname.symm⟩
  · exact ⟨old, hold, hopen⟩

theorem update (h : r.Tripped service) (name : String) {operation : Breaker → Breaker × List Event}
    (hservice : ∀ b, (operation b).1.service = b.service)
    (hcircuit : ∀ b, b.circuit ≠ .closed → (operation b).1.circuit ≠ .closed) :
    (r.update name operation).1.Tripped service := by
  obtain ⟨old, hold, hopen⟩ := h
  unfold Tripped
  rw [get?_update r name operation hservice]
  split_ifs
  · exact ⟨(operation old).1, by rw [hold, Option.map_some], hcircuit old hopen⟩
  · exact ⟨old, hold, hopen⟩

end Registry.Tripped

/-! ## Calls -/

namespace Dispatcher

variable {d : Dispatcher} {service : String} (now : Moment) (target : Url) (r : Request)

/-- A call that ends without an answer closes no circuit. -/
theorem tripped_finish (h : d.registry.Tripped service) (call : Forward) (e : ForwardingFailure) :
    (d.finish now call (.error e)).2.1.registry.Tripped service := by
  unfold finish
  dsimp only
  split_ifs
  · exact h.update call.service (fun b => b.service_record now _)
      fun b hb => Breaker.circuit_recordFailure_ne now hb
  · exact h

theorem tripped_send (h : d.registry.Tripped service) (name : String) (guarded : Bool) :
    (d.send now name guarded target r).2.1.registry.Tripped service := by
  unfold send
  cases outbound d.rules target r with
  | error e => exact tripped_finish now h _ _
  | ok sent =>
    dsimp only
    split_ifs
    · exact tripped_finish now h _ _
    · exact h

theorem tripped_start (h : d.registry.Tripped service) :
    (d.start now target r).2.1.registry.Tripped service := by
  unfold start
  cases hb : d.registry.resolve target with
  | none => exact tripped_send now target r h _ _
  | some b =>
    have hasked : (d.registry.replace (b.begin now).2.1).Tripped service := by
      refine h.replace fun hservice => Breaker.circuit_begin_ne now ?_
      rw [Breaker.service_begin] at hservice
      obtain ⟨old, hold, hopen⟩ := h
      unfold Registry.resolve at hb
      rw [← Registry.service_of_get? hb, hservice, hold] at hb
      exact Option.some.inj hb ▸ hopen
    dsimp only
    split_ifs
    · exact tripped_send now target r (d := { d with registry := _ }) hasked _ true
    · exact hasked

end Dispatcher

/-! ## Requests -/

namespace Gateway

variable {α : Type} {g : Gateway α} {service : String} (now : Moment) (id : String)

theorem tripped_route (h : g.registry.Tripped service) (timeout : Moment) (r : Request) :
    (g.route now id timeout r).2.1.registry.Tripped service := by
  have hrouted := g.routed now id timeout r
  generalize g.route now id timeout r = x at hrouted ⊢
  cases hrouted with
  | unrouted hroute => exact h
  | @answered route v d events hroute hstart =>
    have htripped := g.dispatcher.tripped_start now route.target r h
    rw [hstart] at htripped
    exact htripped
  | @sent route forward request d events hroute hstart =>
    have htripped := g.dispatcher.tripped_start now route.target r h
    rw [hstart] at htripped
    exact htripped

variable [TokenArithmetic α]

theorem tripped_enter (h : g.registry.Tripped service) (timeout : Moment) (resource : Resource)
    (r : Request) : (g.enter now id timeout resource r).2.1.registry.Tripped service := by
  have hentered := g.entered now id timeout r resource
  generalize g.enter now id timeout resource r = x at hentered ⊢
  cases hentered with
  | limited l outcome => exact h
  | healthy l => exact h
  | notAllowed l => exact h
  | routed l hbackend => exact tripped_route (g := { g with limiter := l }) now id h timeout r

end Gateway

/-! ## Resets -/

theorem Admin.tripped_reset {r : Registry} {service : String} (h : r.Tripped service)
    {segment : List Char} (hne : textOf? (Url.percentDecode segment) ≠ some service)
    (now : Moment) : (reset r segment now).2.1.Tripped service := by
  cases hname : textOf? (Url.percentDecode segment) with
  | none =>
    rw [reset_of_unreadable now hname]
    exact h
  | some named =>
    cases hb : r.get? named with
    | none =>
      rw [reset_of_unknown now hname hb]
      exact h
    | some b =>
      rw [reset_of_known now hname hb]
      refine h.replace fun hservice => absurd ?_ hne
      rw [hname, ← hservice, Breaker.service_reset, Registry.service_of_get? hb]

namespace Gateway

variable {α : Type}

/-- The service whose reset a request asks for: the one that the segment in its path denotes. -/
def resetOf? (g : Gateway α) (r : Request) : Option String :=
  match g.resource r with
  | .reset segment => textOf? (Url.percentDecode segment)
  | _ => none

theorem resetOf?_eq_some_iff {g : Gateway α} {r : Request} {service : String} :
    g.resetOf? r = some service ↔ ∃ segment, g.resource r = .reset segment ∧
      textOf? (Url.percentDecode segment) = some service := by
  unfold resetOf?
  cases g.resource r with
  | reset segment => simp
  | _ => simp

section Arrive
variable [TokenArithmetic α] {g : Gateway α} {now : Moment} {r : Request} {service : String}

/-- **A request closes no circuit but the one that it asks to have reset**, and that one only if it
shows the key. -/
theorem tripped_arrive (h : g.registry.Tripped service)
    (hne : ¬ (g.KeyShown r ∧ g.resetOf? r = some service)) (id : String) (fresh : Bytes) :
    (g.arrive now id fresh r).2.1.registry.Tripped service := by
  by_cases htime : g.HasTime now
  · cases hadmin : (g.resource r).isAdmin with
    | false =>
      rw [arrive_of_not_admin id fresh htime hadmin, touched_snd]
      exact tripped_enter now id h _ _ _
    | true =>
      by_cases hkey : g.KeyShown r
      · rw [arrive_of_shown id fresh htime hadmin hkey]
        unfold handle
        split_ifs
        · cases hresource : g.resource r with
          | reset segment =>
            refine Admin.tripped_reset h (fun hname => hne ⟨hkey, ?_⟩) now
            exact resetOf?_eq_some_iff.mpr ⟨segment, hresource, hname⟩
          | _ => exact h
        · exact h
      · obtain ⟨events, -, heq⟩ := arrive_of_not_shown id fresh htime hadmin hkey
        rw [heq]
        exact h
  · rw [arrive_of_no_time g now id fresh r htime]
    exact h

/-- A request resets the breaker of a service and no other, and changes nothing else: it is answered
with success, and what comes of the gateway has this breaker closed and without failures. -/
def Resets (g : Gateway α) (now : Moment) (r : Request) (service : String) : Prop :=
  ∀ id fresh, ∃ b closed : Breaker, g.registry.get? service = some b ∧
    closed = { b with circuit := .closed, failures := 0, lastChange := now } ∧
    (g.arrive now id fresh r).2.1 = g.withRegistry (g.registry.replace closed) ∧
    (∀ other, (g.arrive now id fresh r).2.1.registry.get? other =
      if other = service then some closed else g.registry.get? other) ∧
    ∃ a, (g.arrive now id fresh r).1 = .answered a ∧ a.response.status = .ok

theorem Resets.exists_mem (h : g.Resets now r service) (id : String) (fresh : Bytes) :
    ∃ b ∈ (g.arrive now id fresh r).2.1.registry.breakers,
      b.service = service ∧ b.lastChange = now := by
  obtain ⟨b, closed, hb, rfl, -, hother, -⟩ := h id fresh
  have hafter := hother service
  rw [if_pos rfl] at hafter
  exact ⟨_, List.mem_of_find?_eq_some hafter, Registry.service_of_get? hafter, rfl⟩

/-- A request with the key that asks for the reset of a service gets it. -/
theorem resets_of_shown (htime : g.HasTime now) (hpost : r.method = .post) (hkey : g.KeyShown r)
    (hreset : g.resetOf? r = some service) (hservice : (g.registry.get? service).isSome = true) :
    g.Resets now r service := by
  intro id fresh
  obtain ⟨segment, hsegment, hname⟩ := resetOf?_eq_some_iff.mp hreset
  obtain ⟨b, hb⟩ := Option.isSome_iff_exists.mp hservice
  have hhandle := g.handle_reset now segment
  rw [Admin.reset_of_known now hname hb] at hhandle
  have harrive := arrive_of_shown id fresh htime (by rw [hsegment]; rfl) hkey
  rw [hsegment, hpost, hhandle] at harrive
  rw [harrive]
  refine ⟨b, (b.reset now).1, hb, rfl, rfl, fun other => ?_, _, rfl, g.finish_status fresh r _⟩
  refine (g.registry.get?_replace (b.reset now).1 other).trans ?_
  rw [Breaker.service_reset, Registry.service_of_get? hb]
  split_ifs with hother
  · rw [hother, hb, Option.map_some]
  · rfl

end Arrive

end Gateway

end Gatehouse
