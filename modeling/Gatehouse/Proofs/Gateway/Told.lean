import Gatehouse.Proofs.Gateway.Expiry

/-!
# What callers are told

The answers among all that is seen of a gateway, each with the name of its request, step by step.

* `World.told` : the answers so far;
* `told_request`, `told_respond`, `told_advance`, `told_cancel`, `told_sweep` : one step, and
  `gateway_request`, `gateway_respond`, `gateway_advance` : the gateway after it.
-/

namespace Gatehouse

def Gateway.Arrival.answer? : Arrival → Option Answer
  | answered a => some a
  | sent _ => none

theorem Gateway.Arrival.mem_answer? {arrival : Arrival} {a : Answer} :
    a ∈ arrival.answer?.toList ↔ arrival = .answered a := by
  cases arrival with
  | answered b => simp [answer?, eq_comm]
  | sent request => simp [answer?]

namespace Seen

def answer? : Seen → Option (String × Answer)
  | answered id _ a => some (id, a)
  | _ => none

theorem answer?_ofArrival (id : String) (subject : Subject) (arrival : Gateway.Arrival) :
    [ofArrival id subject arrival].filterMap answer? =
      arrival.answer?.toList.map fun a => (id, a) := by
  cases arrival with
  | answered a => rfl
  | sent request => rfl

theorem answer?_ofAnswers (subjects : List (String × Subject)) (answers : List (String × Answer)) :
    (ofAnswers subjects answers).filterMap answer? = answers := by
  unfold ofAnswers
  rw [List.filterMap_map]
  exact List.filterMap_some

theorem answer?_ofEvents (events : List Event) : (ofEvents events).filterMap answer? = [] := by
  unfold ofEvents
  rw [List.filterMap_map]
  exact List.filterMap_eq_nil_iff.mpr fun _ _ => rfl

theorem eq_breaker_of_mem_ofChange {before after : Registry} {s : Seen}
    (hs : s ∈ ofChange before after) : ∃ b, s = .breaker b := by
  obtain ⟨e, -, hs⟩ := List.mem_flatMap.mp hs
  unfold ofBreaker at hs
  split_ifs at hs
  · cases hs
  · cases hb : after.get? e.service with
    | none => simp [hb] at hs
    | some b => exact ⟨b, by simpa [hb] using hs⟩

theorem answer?_ofChange (before after : Registry) : (ofChange before after).filterMap answer? = [] := by
  refine List.filterMap_eq_nil_iff.mpr fun s hs => ?_
  obtain ⟨b, rfl⟩ := eq_breaker_of_mem_ofChange hs
  rfl

end Seen

namespace World

variable {α : Type}

/-- The answers that have been given, each with the name of its request. -/
def told (w : World α) : List (String × Answer) := w.seen.filterMap Seen.answer?

theorem told_next (w : World α) (s : Server α) (told : List Seen) (events : List Event) :
    (w.next s told events).told = w.told ++ told.filterMap Seen.answer? := by
  unfold World.told next
  dsimp only
  rw [List.filterMap_append, List.filterMap_append, List.filterMap_append, Seen.answer?_ofEvents,
    Seen.answer?_ofChange, List.append_nil, List.append_nil]

@[simp] theorem gateway_nextGateway (w : World α) (g : Gateway α) (told : List Seen)
    (events : List Event) : (w.nextGateway g told events).gateway = g := rfl

@[simp] theorem subjects_nextGateway (w : World α) (g : Gateway α) (told : List Seen)
    (events : List Event) : (w.nextGateway g told events).subjects = w.subjects := rfl

@[simp] theorem now_nextGateway (w : World α) (g : Gateway α) (told : List Seen)
    (events : List Event) : (w.nextGateway g told events).now = w.now := rfl

variable [TokenArithmetic α]

section Request
variable {w : World α} {id : String} (hid : w.subjects.lookup id = none) (fresh : Text.Bytes)
  (r : Http.Request)
include hid

theorem told_request :
    (w.step (.request id fresh r)).told =
      w.told ++ (w.gateway.arrive w.now id fresh r).1.answer?.toList.map fun a => (id, a) := by
  rw [step_request hid]
  refine (told_next _ _ _ _).trans ?_
  rw [Seen.answer?_ofArrival]
  rfl

theorem gateway_request :
    (w.step (.request id fresh r)).gateway = (w.gateway.arrive w.now id fresh r).2.1 := by
  rw [step_request hid, gateway_nextGateway]

theorem subjects_request :
    (w.step (.request id fresh r)).subjects =
      (id, w.gateway.subject (r.named fresh)) :: w.subjects := by
  rw [step_request hid, subjects_nextGateway]

theorem now_request : (w.step (.request id fresh r)).now = w.now := by
  rw [step_request hid, now_nextGateway]

end Request

section Respond
variable {w : World α} {service id : String} (hid : w.subjects.lookup id = some (.service service))
  (backend : Backend)
include hid

theorem told_respond :
    (w.step (.respond service id backend)).told =
      w.told ++ (w.gateway.respond w.now id backend).1.toList.map fun a => (id, a) := by
  rw [step_respond hid]
  refine (told_next _ _ _ _).trans ?_
  rw [Seen.answer?_ofAnswers]

theorem gateway_respond :
    (w.step (.respond service id backend)).gateway = (w.gateway.respond w.now id backend).2.1 := by
  rw [step_respond hid, gateway_nextGateway]

theorem subjects_respond : (w.step (.respond service id backend)).subjects = w.subjects := by
  rw [step_respond hid, subjects_nextGateway]

theorem now_respond : (w.step (.respond service id backend)).now = w.now := by
  rw [step_respond hid, now_nextGateway]

end Respond

theorem told_advance (w : World α) (span : Span) :
    (w.step (.advance span)).told = w.told ++ (w.gateway.wake (w.now + span)).1 := by
  rw [step_advance]
  refine (told_next _ _ _ _).trans ?_
  rw [Seen.answer?_ofAnswers]
  rfl

theorem gateway_advance (w : World α) (span : Span) :
    (w.step (.advance span)).gateway =
      { (w.gateway.wake (w.now + span)).2.1 with limiter := w.server.swept (w.now + span) } := by
  rw [step_advance]
  exact w.server.gateway_wake (w.now + span)

theorem subjects_advance (w : World α) (span : Span) :
    (w.step (.advance span)).subjects = w.subjects := rfl

theorem now_advance (w : World α) (span : Span) : (w.step (.advance span)).now = w.now + span := rfl

theorem gateway_cancel (w : World α) (id : String) :
    (w.step (.cancel id)).gateway = w.gateway.removeCall id := rfl

theorem told_cancel (w : World α) (id : String) : (w.step (.cancel id)).told = w.told :=
  (told_next _ _ _ _).trans (List.append_nil _)

theorem told_sweep (w : World α) : (w.step .sweep).told = w.told :=
  (told_next _ _ _ _).trans (List.append_nil _)

end World

end Gatehouse
