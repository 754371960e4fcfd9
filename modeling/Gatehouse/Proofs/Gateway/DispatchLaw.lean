import Gatehouse.Gateway.Dispatch
import Gatehouse.Proofs.Breaker.Registry

/-!
# What one dispatch does

A dispatch begins when a request has found its target and ends when its caller gets an answer. Here
it is looked at as a whole, for every behaviour of the backend, and with anything happening to the
breakers while the call is under way.

* `Dispatcher.dispatch` : a dispatch from its beginning to its end;
* `Dispatcher.Counted` : a result is recorded by one breaker and by no other;
* `Dispatcher.Refused`, `Dispatcher.Admitted` : the two things that a dispatch may do;
* `Dispatcher.dispatchLaw` : it does one of them, and the breaker of the target decides which.
-/

namespace Gatehouse

open Gatehouse.Http

theorem Outcome.ofStatus_of_lt {s : Status} (h : s.code < 500) :
    Outcome.ofStatus s = .backendSuccess s := by
  unfold Outcome.ofStatus Status.isServerError
  rw [if_neg]
  exact fun hs => Nat.not_le.mpr h (of_decide_eq_true hs)

theorem Outcome.ofStatus_of_le {s : Status} (h : 500 ≤ s.code) :
    Outcome.ofStatus s = .backendError s := by
  unfold Outcome.ofStatus Status.isServerError
  rw [if_pos]
  exact decide_eq_true h

/-- An answer that is relayed counts as a success exactly when it is labelled as one. -/
theorem Backend.result_of_lt {r : Response} (h : r.status.code < 500) (limit : Span) :
    (Backend.answers r).result limit = .ok r :=
  if_neg (Nat.not_le.mpr h)

theorem Backend.result_of_le {r : Response} (h : 500 ≤ r.status.code) (limit : Span) :
    (Backend.answers r).result limit = .error (.serverError r) :=
  if_pos h

namespace Dispatcher

/-! ## A whole dispatch -/

/-- A dispatch that has ended: the requests that went to the backend, what was handed back, the
moment at which the result was known, and the breakers right before and after that moment. -/
structure Passage where
  attempts : List Outbound
  verdict : Verdict
  moment : Moment
  before : Registry
  after : Registry

/-- The breakers once the one that guards a target, if any, has been asked. -/
def asked (d : Dispatcher) (now : Moment) (target : Url) : Registry :=
  match d.registry.resolve target with
  | none => d.registry
  | some b => d.registry.replace (b.tryAcquire now).2.1

/-- The end of a dispatch that has begun. A call under way ends at `later`, after the other calls
have changed the breakers as `meanwhile` says, with what `backend` does. -/
def passage (now later : Moment) (meanwhile : Registry → Registry) (backend : Backend)
    (asked : Registry) : Start → Dispatcher → Passage
  | .answered verdict, d => ⟨[], verdict, now, asked, d.registry⟩
  | .sent call request, d =>
    let d := { d with registry := meanwhile d.registry }
    let (verdict, ended, _) := d.finish later call (backend.result d.backendTimeout)
    ⟨[request], verdict, later, d.registry, ended.registry⟩

def dispatch (d : Dispatcher) (now later : Moment) (meanwhile : Registry → Registry) (target : Url)
    (r : Request) (backend : Backend) : Passage :=
  let (start, d', _) := d.start now target r
  passage now later meanwhile backend (d.asked now target) start d'

/-- The service whose breaker guards a target. -/
def guard? (d : Dispatcher) (target : Url) : Option String :=
  (d.registry.resolve target).map (·.service)

/-! ## The law -/

/-- One result is recorded by the breaker of one service and by no other, or by none at all. -/
def Counted (service : Option String) (succeeded : Bool) (now : Moment) (before after : Registry) :
    Prop :=
  ∀ name, after.get? name =
    if service = some name then (before.get? name).map fun b => (b.record succeeded now).1
    else before.get? name

/-- The breaker `b` refuses: the backend is left alone, the caller is told which service it is, and
no breaker changes. -/
structure Refused (d : Dispatcher) (b : Breaker) (p : Passage) : Prop where
  attempts_nil : p.attempts = []
  status_code : p.verdict.answer.response.status.code = 503
  response_eq : p.verdict.answer.response = Reply.breakerOpen b.service
  outcome_eq : p.verdict.outcome = .breakerOpen b.service
  unchanged : ∀ name, p.after.get? name = d.registry.get? name

/-- A call with the rules `rules` for a service, guarded or not, that is not refused. -/
structure Admitted (rules : ForwardingRules) (service : String) (guard : Option String)
    (target : Url) (r : Request) (backend : Backend) (noTime : Prop) (p : Passage) : Prop where
  /-- There is no second attempt. -/
  attempts_le : p.attempts.length ≤ 1
  /-- What goes out is the request as the rules change it. -/
  attempt_eq : ∀ request ∈ p.attempts, ∃ events, outbound rules target r = .ok (request, events)
  /-- Nothing goes out when the request cannot be written, or when there is no time at all. -/
  attempts_nil_iff : p.attempts = [] ↔ (∃ e, outbound rules target r = .error e) ∨ noTime
  /-- An answer that is not the backend's fault is relayed and counts as a success. -/
  success : ∀ response, p.attempts ≠ [] → backend = .answers response → response.status.code < 500 →
    p.verdict.answer.response = response ∧ p.verdict.outcome = .backendSuccess response.status ∧
      Counted guard true p.moment p.before p.after
  /-- An answer that is the backend's fault is relayed as well but counts as a failure. -/
  serverError : ∀ response, p.attempts ≠ [] → backend = .answers response →
    500 ≤ response.status.code →
    p.verdict.answer.response = response ∧ p.verdict.outcome = .backendError response.status ∧
      Counted guard false p.moment p.before p.after
  /-- Without an answer the gateway gives one of its own, and that counts as a failure. -/
  noAnswer : (p.attempts = [] ∨ ∀ response, backend ≠ .answers response) →
    p.verdict.answer.response.status.code = 502 ∧
      (∃ message, p.verdict.answer.response = Reply.badGateway service message) ∧
      p.verdict.outcome = .transportFailure service ∧ Counted guard false p.moment p.before p.after

/-- What one dispatch does. -/
structure DispatchLaw (d : Dispatcher) (now later : Moment) (meanwhile : Registry → Registry)
    (target : Url) (r : Request) (backend : Backend) (p : Passage) : Prop where
  /-- What is handed back is what is stored with the response. -/
  stored : p.verdict.answer.outcome = some p.verdict.outcome
  refused : ∀ b, d.registry.resolve target = some b → b.refuses now = true → Refused d b p
  admitted : (∀ b, d.registry.resolve target = some b → b.refuses now = false) →
    Admitted d.rules (d.registry.protectionName target) (d.guard? target) target r backend
      (isDue (deadline now d.backendTimeout) now = true) p
  /-- Before the count only the breaker of the target has been asked; the rest is up to others. -/
  before_eq : p.before = if p.attempts = [] then d.asked now target else
    meanwhile (d.asked now target)
  asked_only : ∀ name, d.guard? target ≠ some name →
    (d.asked now target).get? name = d.registry.get? name

/-! ## How a call ends -/

theorem counted_finish (d : Dispatcher) (now : Moment) (call : Forward)
    (result : Except ForwardingFailure Response) :
    Counted (if call.guarded = true then some call.service else none) (succeeded result) now
      d.registry (d.finish now call result).2.1.registry := by
  intro name
  unfold finish
  by_cases hg : call.guarded = true
  · rw [if_pos hg, if_pos hg]
    refine (d.registry.get?_update call.service _
      (fun b => Breaker.service_record b now (succeeded result)) name).trans ?_
    by_cases hn : name = call.service
    · rw [if_pos hn, if_pos (congrArg some hn.symm)]
    · rw [if_neg hn, if_neg fun h => hn (Option.some.inj h).symm]
  · rw [if_neg hg, if_neg hg, if_neg nofun]

theorem finish_of_noAnswer (d : Dispatcher) (now : Moment) (call : Forward)
    (failure : ForwardingFailure) (h : ∀ response, failure ≠ .serverError response) :
    (d.finish now call (.error failure)).1.answer.response.status.code = 502 ∧
      (∃ message, (d.finish now call (.error failure)).1.answer.response =
        Reply.badGateway call.service message) ∧
      (d.finish now call (.error failure)).1.outcome = .transportFailure call.service := by
  cases failure with
  | invalidTarget e => exact ⟨rfl, ⟨_, rfl⟩, rfl⟩
  | transport => exact ⟨rfl, ⟨_, rfl⟩, rfl⟩
  | timeout limit => exact ⟨rfl, ⟨_, rfl⟩, rfl⟩
  | serverError response => exact absurd rfl (h response)

theorem admitted_atOnce (d : Dispatcher) (now : Moment) (call : Forward) (target : Url) (r : Request)
    (backend : Backend) {noTime : Prop} (failure : ForwardingFailure)
    (hn : (∃ e, outbound d.rules target r = .error e) ∨ noTime)
    (h : ∀ response, failure ≠ .serverError response) :
    Admitted d.rules call.service (if call.guarded = true then some call.service else none) target r
      backend noTime
      ⟨[], (d.finish now call (.error failure)).1, now, d.registry,
        (d.finish now call (.error failure)).2.1.registry⟩ where
  attempts_le := Nat.zero_le 1
  attempt_eq request hr := nomatch hr
  attempts_nil_iff := iff_of_true rfl hn
  success response ha := absurd rfl ha
  serverError response ha := absurd rfl ha
  noAnswer _ := by
    obtain ⟨hs, hm, ho⟩ := finish_of_noAnswer d now call failure h
    exact ⟨hs, hm, ho, counted_finish d now call (.error failure)⟩

theorem admitted_sent (d : Dispatcher) (later : Moment) (call : Forward) (target : Url) (r : Request)
    (backend : Backend) {noTime : Prop} {request : Outbound} {events : List Event}
    (ho : outbound d.rules target r = .ok (request, events)) (hn : ¬ noTime) :
    Admitted d.rules call.service (if call.guarded = true then some call.service else none) target r
      backend noTime
      ⟨[request], (d.finish later call (backend.result d.backendTimeout)).1, later, d.registry,
        (d.finish later call (backend.result d.backendTimeout)).2.1.registry⟩ where
  attempts_le := Nat.le_refl 1
  attempt_eq sent hs := by
    rw [List.mem_singleton] at hs
    exact ⟨events, hs ▸ ho⟩
  attempts_nil_iff := by
    refine iff_of_false nofun ?_
    rintro (⟨e, he⟩ | hd)
    · rw [ho] at he
      cases he
    · exact hn hd
  success response _ hb hlt := by
    subst hb
    have hc := counted_finish d later call ((Backend.answers response).result d.backendTimeout)
    rw [Backend.result_of_lt hlt] at hc ⊢
    exact ⟨rfl, Outcome.ofStatus_of_lt hlt, hc⟩
  serverError response _ hb hle := by
    subst hb
    have hc := counted_finish d later call ((Backend.answers response).result d.backendTimeout)
    rw [Backend.result_of_le hle] at hc ⊢
    exact ⟨rfl, Outcome.ofStatus_of_le hle, hc⟩
  noAnswer hno := by
    have hno : ∀ response, backend ≠ .answers response := hno.resolve_left nofun
    have hc := counted_finish d later call (backend.result d.backendTimeout)
    cases backend with
    | answers response => exact absurd rfl (hno response)
    | breaksOff =>
      obtain ⟨hs, hm, ho⟩ := finish_of_noAnswer d later call .transport nofun
      exact ⟨hs, hm, ho, hc⟩
    | keepsSilent =>
      obtain ⟨hs, hm, ho⟩ :=
        finish_of_noAnswer d later call (.timeout d.backendTimeout) nofun
      exact ⟨hs, hm, ho, hc⟩

/-! ## How a call begins -/

section Begin
variable (d : Dispatcher) (now : Moment) {target : Url} (r : Request)

theorem get?_asked_of_ne {name : String} (h : d.guard? target ≠ some name) :
    (d.asked now target).get? name = d.registry.get? name := by
  unfold asked
  unfold guard? at h
  cases hb : d.registry.resolve target with
  | none => rfl
  | some b =>
    rw [hb] at h
    simp only
    rw [Registry.get?_replace, Breaker.service_tryAcquire, if_neg]
    exact fun hn => h (congrArg some hn.symm)

theorem start_of_refuses {b : Breaker} (hb : d.registry.resolve target = some b)
    (hr : b.refuses now = true) :
    (d.start now target r).1 = .answered (refusal b.service) ∧
      (d.start now target r).2.1.registry = d.registry.replace b := by
  obtain ⟨hg, hn⟩ := Breaker.begin_eq b now
  rw [Breaker.tryAcquire_of_refuses hr] at hg hn
  unfold start
  simp only [hb, hg, hn]
  exact ⟨rfl, rfl⟩

/-- A call that no breaker refuses goes to its target. -/
theorem start_of_not_refuses
    (h : ∀ b, d.registry.resolve target = some b → b.refuses now = false) :
    ∃ sent, sent = { d with registry := d.asked now target }.send now
        (d.registry.protectionName target) (d.guard? target).isSome target r ∧
      (d.start now target r).1 = sent.1 ∧ (d.start now target r).2.1 = sent.2.1 := by
  refine ⟨_, rfl, ?_⟩
  unfold start asked Registry.protectionName guard?
  cases hb : d.registry.resolve target with
  | none => exact ⟨rfl, rfl⟩
  | some b =>
    obtain ⟨hg, hn⟩ := Breaker.begin_eq b now
    have hgrant : (b.tryAcquire now).1 = true := by
      have hr := h b hb
      unfold Breaker.refuses at hr
      simpa using hr
    rw [hgrant] at hg
    have hs : (b.tryAcquire now).2.1.service = b.service := Breaker.service_tryAcquire b now
    simp only [hg, hn, if_true, hs]
    exact ⟨rfl, rfl⟩

end Begin

/-! ## The whole -/

/-- A request that goes to its target is answered at once or goes out; what is handed back is what
is stored with the response. -/
theorem admitted_send (d : Dispatcher) (now later : Moment) (meanwhile : Registry → Registry)
    (service : String) (guarded : Bool) (target : Url) (r : Request) (backend : Backend) {p : Passage}
    (hp : p = passage now later meanwhile backend d.registry
      (d.send now service guarded target r).1 (d.send now service guarded target r).2.1) :
    Admitted d.rules service (if guarded = true then some service else none) target r backend
        (isDue (deadline now d.backendTimeout) now = true) p ∧
      p.verdict.answer.outcome = some p.verdict.outcome ∧
      p.before = if p.attempts = [] then d.registry else meanwhile d.registry := by
  let call : Forward := ⟨service, guarded, deadline now d.backendTimeout⟩
  unfold send at hp
  cases ho : outbound d.rules target r with
  | error e =>
    rw [ho] at hp
    subst hp
    exact ⟨admitted_atOnce d now call target r backend (.invalidTarget e) (.inl ⟨e, ho⟩) nofun,
      rfl, rfl⟩
  | ok sent =>
    obtain ⟨request, events⟩ := sent
    by_cases ht : isDue (deadline now d.backendTimeout) now = true
    · simp only [ho, if_pos ht] at hp
      subst hp
      exact ⟨admitted_atOnce d now call target r backend (.timeout d.backendTimeout) (.inr ht) nofun,
        rfl, rfl⟩
    · simp only [ho, if_neg ht] at hp
      subst hp
      exact ⟨admitted_sent { d with registry := meanwhile d.registry } later call target r backend
        ho ht, rfl, rfl⟩

/-- **What one dispatch does.** For every state of the breakers, target, request and behaviour of the
backend, and whatever happens to the breakers while the call is under way: a breaker that refuses
leaves everything as it is, and otherwise there is at most one attempt, whose result is relayed or
replaced by a 502, labelled, and counted once, by the breaker of the target only. -/
theorem dispatchLaw (d : Dispatcher) (now later : Moment) (meanwhile : Registry → Registry)
    (target : Url) (r : Request) (backend : Backend) :
    DispatchLaw d now later meanwhile target r backend
      (d.dispatch now later meanwhile target r backend) := by
  have hasked : ∀ name, d.guard? target ≠ some name → _ := fun name => d.get?_asked_of_ne now
  unfold dispatch
  by_cases hr : ∃ b, d.registry.resolve target = some b ∧ b.refuses now = true
  · obtain ⟨b, hb, hr⟩ := hr
    obtain ⟨hs, hd⟩ := d.start_of_refuses now r hb hr
    simp only [hs]
    refine ⟨rfl, fun b' hb' _ => ?_, fun h => ?_, rfl, hasked⟩
    · obtain rfl : b = b' := Option.some.inj (hb.symm.trans hb')
      refine ⟨rfl, rfl, rfl, rfl, fun name => ?_⟩
      have hself : d.registry.get? b.service = some b := by
        rw [Registry.resolve_service hb]
        exact hb
      exact (congrArg (Registry.get? · name) hd).trans (d.registry.get?_replace_self hself name)
    · rw [h b hb] at hr
      cases hr
  · have hn : ∀ b, d.registry.resolve target = some b → b.refuses now = false := fun b hb =>
      Bool.eq_false_iff.mpr fun h => hr ⟨b, hb, h⟩
    obtain ⟨sent, rfl, h1, h2⟩ := d.start_of_not_refuses now r hn
    simp only [h1, h2]
    obtain ⟨hadm, hst, hbe⟩ := admitted_send { d with registry := d.asked now target } now later
      meanwhile (d.registry.protectionName target) (d.guard? target).isSome target r backend rfl
    refine ⟨hst, fun b hb hb' => absurd ⟨b, hb, hb'⟩ hr, fun _ => ?_, hbe, hasked⟩
    have hg : (if (d.guard? target).isSome = true then some (d.registry.protectionName target)
        else none) = d.guard? target := by
      unfold guard? Registry.protectionName
      cases d.registry.resolve target <;> rfl
    rw [hg] at hadm
    exact hadm

end Dispatcher

end Gatehouse
