import Gatehouse.Proofs.Isolation.FailureIsolation

/-!
# How calls under way end

A call ends with a result, which its breaker records and its caller is told, or it ends without one:
its caller goes away, or the whole request has taken too long. When the clock has moved, this is said
here for all calls that have run out of time, at once.

* `Ending`, `Ending.record` : a call that ends with a result, and what its breaker makes of it;
* `farewell`, `cutOffAnswer` : what the caller is told;
* `conclude_eq`, `respond_eq`, `expire_eq` : one call;
* `expiryAnswer`, `dueEndings`, `wake_answers`, `wake_gateway` : all calls that have run out of time;
* `Server.gateway_wake` : a server, whose sweeper the clock wakes as well.
-/

namespace Gatehouse

open Gatehouse.Http Gatehouse.Text

theorem outgoing_status (method : Method) (requestId : Bytes) (refused : Option (List Method))
    (r : Response) : (outgoing method requestId refused r).status = r.status := by
  have hmissing (name : List Char) (value : Bytes) (r : Response) :
      (r.addMissing name value).status = r.status := by
    unfold Response.addMissing
    split
    · rfl
    · rfl
  unfold outgoing
  dsimp only
  split_ifs
  · exact hmissing _ _ _
  · cases refused with
    | none => exact hmissing _ _ _
    | some ms => exact (hmissing _ _ _).trans (hmissing _ _ _)
  · cases refused with
    | none => exact hmissing _ _ _
    | some ms => exact (hmissing _ _ _).trans (hmissing _ _ _)

structure Ending where
  call : Call
  moment : Moment
  result : Except ForwardingFailure Response

def Ending.record (r : Registry) (e : Ending) : Registry :=
  if e.call.forward.guarded then
    (r.update e.call.forward.service fun b => b.record (Dispatcher.succeeded e.result) e.moment).1
  else r

namespace Gateway

variable {α : Type}

/-! ## One call -/

/-- What the caller of a call is told when it ends with a result. -/
def farewell (c : Call) (now : Moment) (result : Except ForwardingFailure Response) : Answer :=
  (leave c now (.of (Dispatcher.conclude c.forward.service result).1
    (Dispatcher.conclude c.forward.service result).2.1)).1

/-- What the caller is told when the whole request has taken too long. -/
def cutOffAnswer (i : Inbound) : Answer :=
  ⟨outgoing i.method i.requestId none (Reply.bare .requestTimeout), none⟩

theorem farewell_outcome (c : Call) (now : Moment) (result : Except ForwardingFailure Response) :
    (farewell c now result).outcome = some (Dispatcher.conclude c.forward.service result).1 := by
  unfold farewell leave
  split
  · rfl
  · rfl

theorem farewell_status (c : Call) (now : Moment) (result : Except ForwardingFailure Response) :
    (farewell c now result).response.status =
      (Dispatcher.conclude c.forward.service result).2.1.status := by
  unfold farewell leave
  split
  · exact outgoing_status _ _ _ _
  · rfl

theorem cutOffAnswer_status (i : Inbound) : (cutOffAnswer i).response.status = .requestTimeout :=
  outgoing_status _ _ _ _

/-- The gateway once a call has ended with a result. -/
def settled (g : Gateway α) (e : Ending) : Gateway α :=
  (g.removeCall e.call.id).withRegistry (e.record g.registry)

theorem conclude_eq (g : Gateway α) (now : Moment) (c : Call)
    (result : Except ForwardingFailure Response) :
    (g.conclude now c result).2.1 = g.settled ⟨c, now, result⟩ := by
  unfold conclude Dispatcher.finish settled Ending.record
  by_cases hguarded : c.forward.guarded = true
  · simp only [hguarded, if_true]
    rfl
  · simp only [hguarded]
    rfl

theorem of_call? {g : Gateway α} {id : String} {c : Call} (h : g.call? id = some c) :
    c.id = id ∧ c ∈ g.calls :=
  ⟨of_decide_eq_true (List.find?_some (p := fun c : Call => decide (c.id = id)) h),
    List.mem_of_find?_eq_some h⟩

theorem respond_fst (g : Gateway α) (now : Moment) (id : String) (backend : Backend) :
    (g.respond now id backend).1 =
      (g.call? id).map fun c => farewell c now (backend.result g.dispatcher.backendTimeout) := by
  unfold respond
  cases g.call? id with
  | none => rfl
  | some c => rfl

theorem respond_eq (g : Gateway α) (now : Moment) (id : String) (backend : Backend) :
    (g.respond now id backend).2.1 =
      (g.call? id).elim g fun c =>
        g.settled ⟨c, now, backend.result g.dispatcher.backendTimeout⟩ := by
  unfold respond
  cases g.call? id with
  | none => rfl
  | some c => exact g.conclude_eq now c _

/-- Whether the whole request behind a call has taken too long. -/
def cutsOff (now : Moment) (c : Call) : Bool := c.inbound.any fun i => isDue i.deadline now

/-- What the caller of a call that has run out of time is told. -/
def expiryAnswer (limit : Span) (now : Moment) (c : Call) : Answer :=
  match c.inbound with
  | some i => if isDue i.deadline now then cutOffAnswer i else farewell c now (.error (.timeout limit))
  | none => farewell c now (.error (.timeout limit))

theorem expire_fst (g : Gateway α) (now : Moment) (c : Call) :
    (g.expire now c).1 = expiryAnswer g.dispatcher.backendTimeout now c := by
  unfold expire expiryAnswer
  cases c.inbound with
  | none => rfl
  | some i =>
    dsimp only
    split
    · rfl
    · rfl

theorem expire_eq (g : Gateway α) (now : Moment) (c : Call) :
    (g.expire now c).2.1 =
      if cutsOff now c then g.removeCall c.id
      else g.settled ⟨c, now, .error (.timeout g.dispatcher.backendTimeout)⟩ := by
  unfold expire cutsOff
  cases c.inbound with
  | none => exact g.conclude_eq now c _
  | some i =>
    dsimp only [Option.any_some]
    split
    · rfl
    · exact g.conclude_eq now c _

/-! ## All calls that have run out of time -/

/-- The results of the calls that have run out of time, but for those whose request has. -/
def dueEndings (g : Gateway α) (now : Moment) : List Ending :=
  ((g.dueCalls now).filter fun c => !cutsOff now c).map fun c =>
    ⟨c, now, .error (.timeout g.dispatcher.backendTimeout)⟩

/-- The gateway without some calls, and with the breakers after some results. -/
def after (g : Gateway α) (gone : List Call) (results : List Ending) : Gateway α :=
  { g with
    calls := g.calls.filter fun c => c.id ∉ gone.map (·.id)
    dispatcher := { g.dispatcher with registry := results.foldl Ending.record g.registry } }

theorem after_nil (g : Gateway α) : g.after [] [] = g := by
  have hcalls : (g.calls.filter fun c => c.id ∉ ([] : List Call).map (·.id)) = g.calls := by simp
  unfold after
  rw [hcalls]
  rfl

/-- One more call goes. -/
theorem after_removeCall (g : Gateway α) (c : Call) (gone : List Call) (results : List Ending) :
    (g.removeCall c.id).after gone results = g.after (c :: gone) results := by
  have hcalls : ((g.calls.filter fun d => d.id ≠ c.id).filter fun d => d.id ∉ gone.map (·.id)) =
      g.calls.filter fun d => d.id ∉ (c :: gone).map (·.id) := by
    rw [List.filter_filter]
    refine List.filter_congr fun d _ => ?_
    by_cases hd : d.id = c.id
    · simp [hd]
    · simp [hd]
  unfold after removeCall
  dsimp only
  rw [hcalls]
  rfl

theorem after_settled (g : Gateway α) (e : Ending) (gone : List Call) (results : List Ending) :
    (g.settled e).after gone results = g.after (e.call :: gone) (e :: results) := by
  rw [← after_removeCall]
  rfl

theorem foldl_expireNext (now : Moment) (calls : List Call)
    (x : List (String × Answer) × Gateway α × List Event) :
    (calls.foldl (expireNext now) x).1 = x.1 ++ calls.map (fun c =>
        (c.id, expiryAnswer x.2.1.dispatcher.backendTimeout now c)) ∧
      (calls.foldl (expireNext now) x).2.1 = x.2.1.after calls
        ((calls.filter fun c => !cutsOff now c).map fun c =>
          ⟨c, now, .error (.timeout x.2.1.dispatcher.backendTimeout)⟩) := by
  induction calls generalizing x with
  | nil => exact ⟨(List.append_nil _).symm, (after_nil _).symm⟩
  | cons c calls ih =>
    obtain ⟨told, g, events⟩ := x
    obtain ⟨hanswers, hgateway⟩ := ih (expireNext now (told, g, events) c)
    have hnext : (expireNext now (told, g, events) c).2.1 = _ := g.expire_eq now c
    have htimeout : (expireNext now (told, g, events) c).2.1.dispatcher.backendTimeout =
        g.dispatcher.backendTimeout := by
      rw [hnext]
      split
      · rfl
      · rfl
    rw [htimeout] at hanswers hgateway
    rw [List.foldl_cons, hanswers, hgateway, hnext]
    refine ⟨?_, ?_⟩
    · simp [expireNext, expire_fst]
    · by_cases hcut : cutsOff now c = true
      · rw [if_pos hcut, after_removeCall, List.filter_cons_of_neg (by simp [hcut])]
      · rw [if_neg hcut, List.filter_cons_of_pos (by simp [hcut])]
        exact g.after_settled ⟨c, now, _⟩ calls _

theorem wake_answers (g : Gateway α) (now : Moment) :
    (g.wake now).1 =
      (g.dueCalls now).map fun c => (c.id, expiryAnswer g.dispatcher.backendTimeout now c) := by
  rw [wake_eq, (foldl_expireNext now _ _).1]
  rfl

theorem wake_gateway (g : Gateway α) (now : Moment) :
    (g.wake now).2.1 = g.after (g.dueCalls now) (g.dueEndings now) := by
  rw [wake_eq, (foldl_expireNext now _ _).2]
  rfl

theorem mem_dueCalls (g : Gateway α) (now : Moment) (c : Call) :
    c ∈ g.dueCalls now ↔ c ∈ g.calls ∧ isDue (Call.firstDeadline c) now = true := by
  unfold dueCalls
  rw [List.mem_mergeSort, List.mem_filter]

end Gateway

/-! ## A server -/

namespace Server

variable {α : Type}

/-- The limiter once the sweeper has looked at the clock. -/
def swept (s : Server α) (now : Moment) : Limiter α :=
  s.sweeper.elim s.gateway.limiter fun sweeper => (sweeper.wake s.gateway.limiter now).2.1

theorem gateway_sweep (s : Server α) (now : Moment) :
    (s.sweep now).1.gateway = { s.gateway with limiter := s.swept now } := by
  unfold sweep swept
  cases s.sweeper with
  | none => rfl
  | some sweeper => rfl

theorem gateway_rest (s : Server α) : s.rest.1.gateway = s.gateway := by
  unfold rest
  split
  · rfl
  · rfl

/-- The clock wakes the calls under way and the sweeper, who do not get in each other's way. -/
theorem gateway_wake (s : Server α) (now : Moment) :
    (s.wake now).2.1.gateway = { (s.gateway.wake now).2.1 with limiter := s.swept now } := by
  unfold wake
  dsimp only
  rw [gateway_rest, gateway_sweep, Gateway.wake_gateway]
  rfl

end Server

end Gatehouse
