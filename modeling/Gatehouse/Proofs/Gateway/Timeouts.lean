import Gatehouse.Proofs.Config.Valid
import Gatehouse.Proofs.Gateway.Fate

/-!
# Two timers

A request that has been passed on has two timers: its backend has to answer before the first one runs
out, and the request has to be answered before the second one does. In a valid configuration there is
at least a second between them. A backend that is too slow is then always found out, unless the clock
jumps over both timers at once or the caller goes away.

* `isDue_iff_of_whole` : when timers run out;
* `JumpsOver`, `AnswersInTime` : what decides between the two timers;
* `jumpsOver_of_cutOff`, `cancel_of_abandoned`, `failure_of_ended` : what has happened to a call that
  ended as it did;
* `TimeoutLaw`, `timeoutLaw` : what becomes of every request that is passed on.
-/

namespace Gatehouse

open Gatehouse.Http Gatehouse.Text

/-! ## Timers -/

theorem isDue_iff_of_whole {deadline : Moment} (h : 1000000 ∣ deadline) (now : Moment) :
    isDue deadline now = true ↔ deadline ≤ now := by
  obtain ⟨n, rfl⟩ := h
  have htick : 1000000 * n ≤ tick now ↔ 1000000 * n ≤ now := by
    change (1000000 * n : Nat) ≤ now / 1000000 * 1000000 ↔ (1000000 * n : Nat) ≤ now
    omega
  exact decide_eq_true_iff.trans htick

theorem dvd_deadline {now : Moment} (h : 1000000 ∣ now) (n : Nat) :
    1000000 ∣ deadline now (Span.seconds n) := by
  have hseconds (m : Nat) : 1000000 ∣ now + Span.seconds m :=
    Nat.dvd_add h (Dvd.dvd.mul_left (by decide : 1000000 ∣ nanosPerSecond) m)
  unfold deadline
  split_ifs
  · exact hseconds n
  · exact hseconds _

theorem tick_add_le {span : Span} (hspan : span ≤ Span.seconds 1) (now : Moment) :
    tick (now + span) ≤ tick now + Span.seconds 1 := by
  have hnat (t s : Nat) (hs : s ≤ 1000000000) :
      (t + s) / 1000000 * 1000000 ≤ t / 1000000 * 1000000 + 1000000000 := by omega
  exact hnat now span hspan

/-! ## What has happened to a call -/

/-- A single jump of the clock goes from before the deadline of a call to the one of its request, or
past it. -/
def JumpsOver (now : Moment) (k : Call) (i : Inbound) (steps : List Step) : Prop :=
  ∃ before span after, steps = before ++ .advance span :: after ∧
    isDue k.forward.deadline (clockAfter now before) = false ∧
    isDue i.deadline (clockAfter now before + span) = true

/-- The backend answers before the deadline of the call. -/
def AnswersInTime (now : Moment) (k : Call) (i : Inbound) (steps : List Step) : Prop :=
  ∃ before response after, steps = before ++ .respond i.service k.id (.answers response) :: after ∧
    isDue k.forward.deadline (clockAfter now before) = false

section Fates
variable {limit : Span} {now : Moment} {k : Call}

/-- A call that goes on being under way has time left. -/
theorem notDue_of_meets {x : Step} (hnow : isDue k.forward.deadline now = false)
    (h : (meets limit now k x).isUnderWay = true) :
    isDue k.forward.deadline (x.clock now) = false := by
  cases x with
  | advance span =>
    by_contra hdue
    rw [meets_advance] at h
    split_ifs at h with hcut hlate
    · cases h
    · cases h
    · exact hlate (Bool.eq_true_of_not_eq_false hdue)
  | request id fresh r => exact hnow
  | respond service id backend => exact hnow
  | cancel id => exact hnow
  | sweep => exact hnow

theorem notDue_of_underWay {steps : List Step} (hnow : isDue k.forward.deadline now = false)
    (h : (fate limit k now steps).isUnderWay = true) :
    isDue k.forward.deadline (clockAfter now steps) = false := by
  induction steps generalizing now with
  | nil => exact hnow
  | cons x steps ih =>
    rw [fate_cons] at h
    by_cases hx : (meets limit now k x).isUnderWay = true
    · rw [if_pos hx] at h
      exact ih (notDue_of_meets hnow hx) h
    · rw [if_neg hx] at h
      exact absurd h hx

variable {i : Inbound} {steps : List Step} (hi : k.inbound = some i)
  (hnow : isDue k.forward.deadline now = false)
include hnow

include hi in
/-- A request is cut off only when the clock jumps over both deadlines. -/
theorem jumpsOver_of_cutOff (h : fate limit k now steps = .cutOff) : JumpsOver now k i steps := by
  obtain ⟨before, x, after, rfl, hbefore, hx⟩ := exists_of_fate h rfl
  cases hx with
  | @cutOff span hcut =>
    refine ⟨before, span, after, rfl, notDue_of_underWay hnow hbefore, ?_⟩
    rwa [Gateway.cutsOff_eq hi] at hcut

omit hnow in
theorem cancel_of_abandoned (h : fate limit k now steps = .abandoned) : .cancel k.id ∈ steps := by
  obtain ⟨before, x, after, rfl, -, hx⟩ := exists_of_fate h rfl
  cases hx with
  | cancelled => exact List.mem_append_right _ List.mem_cons_self

include hi in
/-- A call ends with a failure, which its caller is told, unless the backend has answered in time. -/
theorem failure_of_ended {moment : Moment} {result : Except ForwardingFailure Response}
    (h : fate limit k now steps = .ended moment result) (hlate : ¬ AnswersInTime now k i steps) :
    Dispatcher.succeeded result = false ∧
      (Gateway.farewell k moment result).response.status = .badGateway := by
  rw [Gateway.farewell_status]
  obtain ⟨before, x, after, rfl, hbefore, hx⟩ := exists_of_fate h rfl
  cases hx with
  | timedOut hcut hdue => exact ⟨rfl, rfl⟩
  | @responded service backend hservice =>
    cases backend with
    | answers response =>
      rw [hi, Option.any_some, decide_eq_true_iff] at hservice
      subst hservice
      exact absurd ⟨before, response, after, rfl, notDue_of_underWay hnow hbefore⟩ hlate
    | breaksOff => exact ⟨rfl, rfl⟩
    | keepsSilent => exact ⟨rfl, rfl⟩

omit hnow in
include hi in
/-- A call whose caller goes away before there is an answer has no other end. -/
theorem fate_cancel {before : List Step} (hnone : (fate limit k now before).answers k = [])
    (after : List Step) :
    fate limit k now (before ++ .cancel k.id :: after) = .abandoned := by
  rw [fate_append]
  cases hf : fate limit k now before with
  | underWay =>
    change fate limit k (clockAfter now before) (.cancel k.id :: after) = .abandoned
    rw [fate_cons, meets_cancel, if_pos rfl]
    rfl
  | ended moment result =>
    rw [hf] at hnone
    cases hnone
  | cutOff =>
    rw [hf] at hnone
    simp [Fate.answers, hi] at hnone
  | abandoned => rfl

omit hnow in
include hi in
/-- A call whose caller is there and has not been told anything is under way. -/
theorem fate_eq_underWay {before : List Step} (hnone : (fate limit k now before).answers k = [])
    (hcancel : .cancel k.id ∉ before) : fate limit k now before = .underWay := by
  cases hf : fate limit k now before with
  | underWay => rfl
  | ended moment result =>
    rw [hf] at hnone
    cases hnone
  | cutOff =>
    rw [hf] at hnone
    simp [Fate.answers, hi] at hnone
  | abandoned => exact absurd (cancel_of_abandoned hf) hcancel

omit hnow in
include hi in
/-- A call that is still under way when the deadline of its request comes is cut off. -/
theorem fate_advance {before : List Step} (hnone : (fate limit k now before).answers k = [])
    (hcancel : .cancel k.id ∉ before) {span : Span}
    (hdue : isDue i.deadline (clockAfter now before + span) = true) (after : List Step) :
    fate limit k now (before ++ .advance span :: after) = .cutOff := by
  have hcut := (Gateway.cutsOff_eq hi (clockAfter now before + span)).trans hdue
  rw [fate_append, fate_eq_underWay hi hnone hcancel]
  change fate limit k (clockAfter now before) (.advance span :: after) = .cutOff
  rw [fate_cons, meets_advance, if_pos hcut]
  rfl

omit hnow in
include hi in
/-- A call that is still under way when its backend does something ends with what that is. -/
theorem fate_respond {before : List Step} (hnone : (fate limit k now before).answers k = [])
    (hcancel : .cancel k.id ∉ before) (backend : Backend) (after : List Step) :
    fate limit k now (before ++ .respond i.service k.id backend :: after) =
      .ended (clockAfter now before) (backend.result limit) := by
  have hown : k.id = k.id ∧ (k.inbound.any fun j => j.service = i.service) = true :=
    ⟨rfl, by simp [hi]⟩
  have hmeets := (meets_respond limit (clockAfter now before) k i.service k.id backend).trans
    (if_pos hown)
  rw [fate_append, fate_eq_underWay hi hnone hcancel]
  change fate limit k (clockAfter now before) (.respond i.service k.id backend :: after) = _
  rw [fate_cons, hmeets]
  rfl

end Fates

/-! ## Between the timers -/

/-- Where there is a second between the deadlines, the clock jumps over both only if it jumps by
more than that. -/
theorem not_jumpsOver {now : Moment} {k : Call} {i : Inbound} {steps : List Step}
    (hapart : k.forward.deadline + Span.seconds 1 ≤ i.deadline)
    (hsteps : ∀ span, .advance span ∈ steps → span ≤ Span.seconds 1) : ¬ JumpsOver now k i steps := by
  rintro ⟨before, span, after, rfl, hbefore, hafter⟩
  have hspan : span ≤ Span.seconds 1 := hsteps span (List.mem_append_right _ List.mem_cons_self)
  have hearly : tick (clockAfter now before) < k.forward.deadline :=
    Nat.lt_of_not_le (of_decide_eq_false hbefore)
  have hlate : i.deadline ≤ tick (clockAfter now before + span) := of_decide_eq_true hafter
  have hsecond := tick_add_le hspan (clockAfter now before)
  have hless : tick (clockAfter now before) + Span.seconds 1 <
      k.forward.deadline + Span.seconds 1 := Nat.add_lt_add_right hearly _
  exact Nat.lt_irrefl _ (Nat.lt_of_le_of_lt (Nat.le_trans (Nat.le_trans hapart hlate) hsecond) hless)

/-- There is at least a second between the deadlines that a valid configuration gives. -/
theorem deadline_apart [Idna] {c : Config} (hc : c.isValid = true) {now : Moment}
    (hclock : now + Span.seconds c.timeouts.requestSecs.toNat < lastMoment) :
    deadline now (Span.seconds c.timeouts.backendSecs.toNat) + Span.seconds 1 ≤
      deadline now (Span.seconds c.timeouts.requestSecs.toNat) := by
  have hless : Span.seconds c.timeouts.backendSecs.toNat + Span.seconds 1 ≤
      Span.seconds c.timeouts.requestSecs.toNat := by
    unfold Span.seconds
    rw [← Nat.add_mul]
    exact Nat.mul_le_mul_right _ (Config.backendSecs_lt_requestSecs hc)
  have hle : now + Span.seconds c.timeouts.backendSecs.toNat + Span.seconds 1 ≤
      now + Span.seconds c.timeouts.requestSecs.toNat := by
    rw [Nat.add_assoc]
    exact Nat.add_le_add_left hless now
  have hbackend : now + Span.seconds c.timeouts.backendSecs.toNat < lastMoment :=
    Nat.lt_of_le_of_lt (Nat.le_trans (Nat.le_add_right _ _) hle) hclock
  unfold deadline
  rw [if_pos hbackend, if_pos hclock]
  exact hle

/-! ## Every request that is passed on -/

namespace World

variable {α : Type} [TokenArithmetic α]

omit [TokenArithmetic α] in
theorem call?_of_unknown {c : Config} {w : World α} (h : Orderly c w) {id : String}
    (hid : w.subjects.lookup id = none) : w.gateway.call? id = none := by
  unfold Gateway.call?
  rw [List.find?_eq_none]
  intro k hk hkid
  have hknown := h.isSome_lookup hk
  rw [of_decide_eq_true hkid, hid] at hknown
  cases hknown

omit [TokenArithmetic α] in
theorem answersTo_of_unknown {c : Config} {w : World α} (h : Orderly c w) {id : String}
    (hid : w.subjects.lookup id = none) : w.answersTo id = [] := by
  unfold answersTo
  rw [List.map_eq_nil_iff, List.filter_eq_nil_iff]
  intro e he heid
  have hknown := h.answered e he
  rw [of_decide_eq_true heid, hid] at hknown
  cases hknown

theorem exists_call_of_sent {c : Config} {w : World α} (h : Orderly c w) {id : String}
    (hid : w.subjects.lookup id = none) {fresh : Bytes} {r : Request} {request : Outbound}
    (hsent : (w.gateway.arrive w.now id fresh r).1 = .sent request) :
    ∃ forward i, (w.step (.request id fresh r)).gateway.call? id = some ⟨id, forward, some i⟩ ∧
      w.gateway.dispatcher.SetsOff w.now forward (w.step (.request id fresh r)).registry ∧
      i.deadline = w.gateway.timeout w.now := by
  have hold : (w.gateway.calls.find? fun k => k.id = id) = none := call?_of_unknown h hid
  unfold registry
  rw [gateway_request hid]
  rcases w.gateway.coming_arrive w.now id r fresh with ⟨-, -, a, ha⟩ | ⟨-, hcoming⟩
  · rw [hsent] at ha
    cases ha
  · generalize w.gateway.arrive w.now id fresh r = x at hcoming hsent ⊢
    cases hcoming with
    | answered hcalls => cases hsent
    | @sent _ g events forward i hcalls hforward hdeadline hsubject =>
      refine ⟨forward, i, ?_, hforward, hdeadline⟩
      unfold Gateway.call?
      rw [hcalls, List.find?_append, hold]
      simp

theorem answersTo_of_sent {c : Config} {w : World α} (h : Orderly c w) {id : String}
    (hid : w.subjects.lookup id = none) {fresh : Bytes} {r : Request} {request : Outbound}
    (hsent : (w.gateway.arrive w.now id fresh r).1 = .sent request) :
    (w.step (.request id fresh r)).answersTo id = [] := by
  rw [answersTo_of_told (told_request hid fresh r) id, hsent, answersTo_of_unknown h hid]
  rfl

section UnderWay
variable {c : Config} {w : World α} (h : Orderly c w) {id : String} {k : Call} {i : Inbound}
  (hk : w.gateway.call? id = some k) (hi : k.inbound = some i) (hnone : w.answersTo id = [])
include h hk

include hnone in
/-- What is recorded and told of a call that is under way is what becomes of it. -/
theorem fate_of_call? (steps : List Step) :
    ((w.endings steps).filter fun e => e.call.id = id) =
        (fate (Span.seconds c.timeouts.backendSecs.toNat) k w.now steps).endings k ∧
      (steps.foldl step w).answersTo id =
        (fate (Span.seconds c.timeouts.backendSecs.toNat) k w.now steps).answers k := by
  obtain ⟨rfl, hkmem⟩ := Gateway.of_call? hk
  have hfares := fares_run h (h.isSome_lookup hkmem) steps
  have hends := hfares.endings
  have hanswers := hfares.answers
  rw [hk, Option.toList_some, List.flatMap_singleton] at hends hanswers
  rw [hnone, List.nil_append] at hanswers
  exact ⟨hends, hanswers⟩

include hi

omit [TokenArithmetic α] in
theorem notDue_of_call? : isDue k.forward.deadline w.now = false := by
  have hwaiting := h.waiting k (Gateway.of_call? hk).2
  rw [Gateway.isDue_firstDeadline hi] at hwaiting
  exact (Bool.or_eq_false_iff.mp hwaiting).2

include hnone

/-- Without a jump over both deadlines, and with the caller there, the request is not cut off. -/
theorem cutOffAnswer_not_mem {steps : List Step} (hjump : ¬ JumpsOver w.now k i steps)
    (hcancel : .cancel id ∉ steps) :
    Gateway.cutOffAnswer i ∉ (steps.foldl step w).answersTo id := by
  have hkid := (Gateway.of_call? hk).1
  rw [(fate_of_call? h hk hnone steps).2]
  intro hmem
  cases hf : fate (Span.seconds c.timeouts.backendSecs.toNat) k w.now steps with
  | underWay =>
    rw [hf] at hmem
    cases hmem
  | ended moment result =>
    rw [hf] at hmem
    have houtcome := congrArg Answer.outcome (List.mem_singleton.mp hmem)
    rw [Gateway.farewell_outcome] at houtcome
    cases houtcome
  | cutOff => exact hjump (jumpsOver_of_cutOff hi (notDue_of_call? h hk hi) hf)
  | abandoned => exact hcancel (hkid ▸ cancel_of_abandoned hf)

/-- Then there is one result once the deadline of the call has come. -/
theorem exists_ending {steps : List Step} (hjump : ¬ JumpsOver w.now k i steps)
    (hcancel : .cancel id ∉ steps)
    (hdue : isDue k.forward.deadline (steps.foldl step w).now = true) :
    ∃ e : Ending, e.call = k ∧ ((w.endings steps).filter fun e => e.call.id = id) = [e] ∧
      (steps.foldl step w).answersTo id = [Gateway.farewell k e.moment e.result] ∧
      (¬ AnswersInTime w.now k i steps → Dispatcher.succeeded e.result = false ∧
        (Gateway.farewell k e.moment e.result).response.status = .badGateway) := by
  have hkid := (Gateway.of_call? hk).1
  have hwaiting := notDue_of_call? h hk hi
  rw [now_foldl] at hdue
  obtain ⟨hends, hanswers⟩ := fate_of_call? h hk hnone steps
  cases hf : fate (Span.seconds c.timeouts.backendSecs.toNat) k w.now steps with
  | underWay =>
    have hnot := notDue_of_underWay hwaiting (congrArg Fate.isUnderWay hf)
    rw [hdue] at hnot
    cases hnot
  | ended moment result =>
    rw [hf] at hends hanswers
    exact ⟨⟨k, moment, result⟩, rfl, hends, hanswers, failure_of_ended hi hwaiting hf⟩
  | cutOff => exact absurd (jumpsOver_of_cutOff hi hwaiting hf) hjump
  | abandoned => exact absurd (hkid ▸ cancel_of_abandoned hf) hcancel

theorem nothing_of_cancel {before : List Step} (hbefore : (before.foldl step w).answersTo id = [])
    (after : List Step) :
    ((w.endings (before ++ .cancel id :: after)).filter fun e => e.call.id = id) = [] ∧
      ((before ++ .cancel id :: after).foldl step w).answersTo id = [] := by
  obtain ⟨rfl, -⟩ := Gateway.of_call? hk
  rw [(fate_of_call? h hk hnone before).2] at hbefore
  obtain ⟨hends, hanswers⟩ := fate_of_call? h hk hnone (before ++ .cancel k.id :: after)
  rw [fate_cancel hi hbefore after] at hends hanswers
  exact ⟨hends, hanswers⟩

theorem cutOff_of_advance {before : List Step} (hbefore : (before.foldl step w).answersTo id = [])
    (hcancel : .cancel id ∉ before) {span : Span}
    (hdue : isDue i.deadline ((before.foldl step w).now + span) = true) (after : List Step) :
    ((w.endings (before ++ .advance span :: after)).filter fun e => e.call.id = id) = [] ∧
      ((before ++ .advance span :: after).foldl step w).answersTo id = [Gateway.cutOffAnswer i] := by
  obtain ⟨rfl, -⟩ := Gateway.of_call? hk
  rw [(fate_of_call? h hk hnone before).2] at hbefore
  rw [now_foldl] at hdue
  obtain ⟨hends, hanswers⟩ := fate_of_call? h hk hnone (before ++ .advance span :: after)
  rw [fate_advance hi hbefore hcancel hdue after] at hends hanswers
  refine ⟨hends, hanswers.trans ?_⟩
  simp [Fate.answers, hi]

end UnderWay

/-- What becomes of a request `id` that is passed on as the call `k` in the step from `w` to `w'`. -/
structure TimeoutLaw [Idna] (c : Config) (w w' : World α) (id : String) (k : Call) (i : Inbound) :
    Prop where
  underWay : w'.gateway.call? id = some k ∧ k.id = id ∧ k.inbound = some i ∧ w'.answersTo id = []
  /-- The breaker of the service, if it has one, has been asked and has let the call through. It stays
  until the end. -/
  admitted : k.forward.guarded = true →
    (∃ b, w.registry.get? k.forward.service = some b ∧ b.refuses w.now = false ∧
      w'.registry = w.registry.replace (b.tryAcquire w.now).2.1) ∧
    ∀ steps : List Step,
      ((steps.foldl step w').registry.get? k.forward.service).isSome = true
  /-- Between requests the breakers record the results of the calls that end, and nothing else. -/
  recorded : ∀ (steps : List Step) (x : Step), (∀ id fresh r, x ≠ .request id fresh r) →
    ((steps.foldl step w').step x).registry =
      ((steps.foldl step w').ends x).foldl Ending.record (steps.foldl step w').registry
  deadlines : k.forward.deadline = deadline w.now (Span.seconds c.timeouts.backendSecs.toNat) ∧
    i.deadline = deadline w.now (Span.seconds c.timeouts.requestSecs.toNat)
  /-- Timers run out on whole milliseconds: just at the deadlines if the request has come in on one. -/
  punctual : 1000000 ∣ w.now → ∀ now, (isDue k.forward.deadline now = true ↔ k.forward.deadline ≤ now) ∧
    (isDue i.deadline now = true ↔ i.deadline ≤ now)
  /-- In a valid configuration the clock does not jump over both deadlines unless it jumps by more than
  a second. -/
  apart : c.isValid = true → w.now + Span.seconds c.timeouts.requestSecs.toNat < lastMoment →
    ∀ steps : List Step, (∀ span, .advance span ∈ steps → span ≤ Span.seconds 1) →
      ¬ JumpsOver w'.now k i steps
  /-- If it does not, and the caller stays, then the request is never cut off. -/
  kept : ∀ steps : List Step, ¬ JumpsOver w'.now k i steps → .cancel id ∉ steps →
    Gateway.cutOffAnswer i ∉ (steps.foldl step w').answersTo id
  /-- Then there is one result by the deadline of the call. It is recorded and told, and it is a
  failure unless the backend has answered in time. -/
  settled : ∀ steps : List Step, ¬ JumpsOver w'.now k i steps → .cancel id ∉ steps →
    isDue k.forward.deadline (steps.foldl step w').now = true →
    ∃ e : Ending, e.call = k ∧ ((w'.endings steps).filter fun e => e.call.id = id) = [e] ∧
      (steps.foldl step w').answersTo id = [Gateway.farewell k e.moment e.result] ∧
      (¬ AnswersInTime w'.now k i steps → Dispatcher.succeeded e.result = false ∧
        (Gateway.farewell k e.moment e.result).response.status = .badGateway)
  /-- If the caller goes away before there is an answer, nothing is recorded. -/
  abandoned : ∀ before after : List Step, (before.foldl step w').answersTo id = [] →
    ((w'.endings (before ++ .cancel id :: after)).filter fun e => e.call.id = id) = [] ∧
      ((before ++ .cancel id :: after).foldl step w').answersTo id = []
  /-- If the deadline of the request comes before there is an answer, nothing is recorded either. -/
  cutOff : ∀ (before : List Step) (span : Span) (after : List Step),
    (before.foldl step w').answersTo id = [] → .cancel id ∉ before →
    isDue i.deadline ((before.foldl step w').now + span) = true →
    (((w'.endings (before ++ .advance span :: after)).filter fun e => e.call.id = id) = [] ∧
      ((before ++ .advance span :: after).foldl step w').answersTo id = [Gateway.cutOffAnswer i]) ∧
    (Gateway.cutOffAnswer i).response.status = .requestTimeout

/-- **A backend that is too slow is found out**, whatever else goes on. -/
theorem timeoutLaw [Idna] (c : Config) (start : Moment) (earlier : List Step) (id : String)
    (fresh : Bytes) (r : Request) (request : Outbound)
    (hid : (run (α := α) c start earlier).subjects.lookup id = none)
    (hsent : ((run (α := α) c start earlier).gateway.arrive (run (α := α) c start earlier).now id fresh
      r).1 = .sent request) :
    ∃ k i, TimeoutLaw c (run (α := α) c start earlier)
      ((run c start earlier).step (.request id fresh r)) id k i := by
  have horderly := orderly_run (α := α) c start earlier
  generalize run (α := α) c start earlier = w at hid hsent horderly ⊢
  obtain ⟨forward, i, hcall, hforward, hdeadline⟩ := exists_call_of_sent horderly hid hsent
  have hnone := answersTo_of_sent horderly hid hsent
  have hafter := horderly.step (.request id fresh r)
  have hbackend : forward.deadline = deadline w.now (Span.seconds c.timeouts.backendSecs.toNat) := by
    rw [hforward.deadline_eq, horderly.backendTimeout_eq]
  have hrequest : i.deadline = deadline w.now (Span.seconds c.timeouts.requestSecs.toNat) := by
    rw [hdeadline, ← horderly.config_eq]
    rfl
  exact ⟨⟨id, forward, some i⟩, i, {
    underWay := ⟨hcall, rfl, rfl, hnone⟩
    admitted hguarded := by
      obtain ⟨b, hb, hrefuses, hasked⟩ := hforward.admitted hguarded
      refine ⟨⟨b, hb, hrefuses, hasked⟩, fun steps => ?_⟩
      have hservices := (settings_foldl (w.step (.request id fresh r)) steps).services.trans
        (w.settings_step (.request id fresh r)).services
      exact (hservices.isSome _).trans (Option.isSome_iff_exists.mpr ⟨b, hb⟩)
    recorded steps x hx := registry_step _ hx
    deadlines := ⟨hbackend, hrequest⟩
    punctual hwhole now := by
      refine ⟨isDue_iff_of_whole ?_ now, isDue_iff_of_whole ?_ now⟩
      · exact hbackend ▸ dvd_deadline hwhole _
      · exact hrequest ▸ dvd_deadline hwhole _
    apart hvalid hclock steps hsteps := by
      refine not_jumpsOver ?_ hsteps
      rw [hbackend, hrequest]
      exact deadline_apart hvalid hclock
    kept steps := cutOffAnswer_not_mem hafter hcall rfl hnone
    settled steps := exists_ending hafter hcall rfl hnone
    abandoned before after hbefore := nothing_of_cancel hafter hcall rfl hnone hbefore after
    cutOff before span after hbefore hcancel hdue :=
      ⟨cutOff_of_advance hafter hcall rfl hnone hbefore hcancel hdue after,
        Gateway.cutOffAnswer_status i⟩ }⟩

/-! A service whose backend has thirty seconds to answer, and a request that has sixty. -/

def slowBackend : Config :=
  { (default : Config) with
    services := [⟨"a", "http://a"⟩]
    routes := [⟨"a", "/a", "a", [], 0⟩] }

def slowVisit : Request := ⟨.get, ⟨none, none, "/a".toList, none⟩, [], [], none, none⟩

def slowOutbound : Outbound :=
  ⟨.get, ⟨some "http".toList, some "a".toList, "/a".toList, none⟩, [⟨requestIdHeader, []⟩], []⟩

/-- What the caller is told after a wait in one piece. -/
def toldAfter [Idna] (wait : Span) : List Status :=
  ((run (α := Rat) slowBackend 0 [.request "1" [] slowVisit, .advance wait]).answersTo "1").map
    (·.response.status)

theorem timeoutLaw_slowBackend :
    slowBackend.isValid = true ∧ (run (α := Rat) slowBackend 0 []).subjects.lookup "1" = none ∧
      ((run (α := Rat) slowBackend 0 []).gateway.arrive (run (α := Rat) slowBackend 0 []).now "1" []
        slowVisit).1 = .sent slowOutbound ∧
      (∃ k i, TimeoutLaw slowBackend (run (α := Rat) slowBackend 0 [])
        ((run slowBackend 0 []).step (.request "1" [] slowVisit)) "1" k i) ∧
      toldAfter (Span.seconds 30) = [.badGateway] ∧ toldAfter (Span.seconds 60) = [.requestTimeout] := by
  have hsent : ((run (α := Rat) slowBackend 0 []).gateway.arrive
      (run (α := Rat) slowBackend 0 []).now "1" [] slowVisit).1 = .sent slowOutbound := by
    unfold run begin Gateway.ofConfig
    rw [Routing.Table.ofConfig_of_pairwise (by decide +kernel)]
    decide +kernel
  refine ⟨by decide +kernel, rfl, hsent,
    timeoutLaw slowBackend 0 [] "1" [] slowVisit slowOutbound rfl hsent, ?_⟩
  unfold toldAfter run begin Gateway.ofConfig
  rw [Routing.Table.ofConfig_of_pairwise (by decide +kernel)]
  decide +kernel

end World

end Gatehouse
