import Gatehouse.Proofs.Gateway.Underway

/-!
# What becomes of a call

A call that is under way ends with a result, is cut off when its whole request has taken too long, or
is given up by its caller, whichever comes first. Which one that is can be read off the steps of a run;
then it is recorded once what its result is, if it has one, and its caller is told once.

* `World.ends`, `World.endings` : the calls that end with a result, in a step and in a run;
* `registry_step` : between requests the breakers record these results, and nothing else;
* `World.answersTo` : what the caller of a request has been told;
* `Fate`, `meets`, `fate` : what becomes of a call in a step, and in a run;
* `Happens` : the ways in which something becomes of a call;
* `World.Fares` : what is recorded for a call, and told its caller, is what becomes of it;
* `fares_step`, `fares_run` : so it is for every step and for every run.
-/

namespace Gatehouse

open Gatehouse.Http Gatehouse.Text

/-! ## Results in a run -/

namespace World

variable {α : Type}

/-- The calls that end with a result in a step. -/
def ends (w : World α) : Step → List Ending
  | .respond service id backend =>
    if w.subjects.lookup id = some (.service service) then
      (w.gateway.call? id).toList.map fun k =>
        ⟨k, w.now, backend.result w.gateway.dispatcher.backendTimeout⟩
    else []
  | .advance span => w.gateway.dueEndings (w.now + span)
  | _ => []

def answersTo (w : World α) (id : String) : List Answer :=
  (w.told.filter fun e => e.1 = id).map Prod.snd

theorem ends_respond {w : World α} {service id : String}
    (hid : w.subjects.lookup id = some (.service service)) (backend : Backend) :
    w.ends (.respond service id backend) = (w.gateway.call? id).toList.map fun k =>
      ⟨k, w.now, backend.result w.gateway.dispatcher.backendTimeout⟩ := if_pos hid

theorem ends_respond_apart {w : World α} {service id : String}
    (hid : w.subjects.lookup id ≠ some (.service service)) (backend : Backend) :
    w.ends (.respond service id backend) = [] := if_neg hid

variable [TokenArithmetic α]

def endings (w : World α) : List Step → List Ending
  | [] => []
  | x :: steps => w.ends x ++ (w.step x).endings steps

/-- Between requests the breakers record the results of the calls that end, in their order, and nothing
else happens to them. -/
theorem registry_step (w : World α) {x : Step} (hx : ∀ id fresh r, x ≠ .request id fresh r) :
    (w.step x).registry = (w.ends x).foldl Ending.record w.registry := by
  cases x with
  | request id fresh r => exact absurd rfl (hx id fresh r)
  | respond service id backend =>
    by_cases hid : w.subjects.lookup id = some (.service service)
    · unfold registry
      rw [ends_respond hid, gateway_respond hid, Gateway.respond_eq]
      cases w.gateway.call? id with
      | none => rfl
      | some k => rfl
    · rw [ends_respond_apart hid, step_respond_apart hid]
      rfl
  | cancel id => rfl
  | advance span =>
    unfold registry
    rw [gateway_advance, Gateway.wake_gateway]
    rfl
  | sweep => rfl

end World

/-! ## One call -/

inductive Fate where
  | underWay
  /-- It ends with a result. -/
  | ended (moment : Moment) (result : Except ForwardingFailure Response)
  /-- The whole request has taken too long. -/
  | cutOff
  /-- Its caller goes away. -/
  | abandoned

namespace Fate

def isUnderWay : Fate → Bool
  | underWay => true
  | _ => false

def endings (k : Call) : Fate → List Ending
  | ended now result => [⟨k, now, result⟩]
  | _ => []

def answers (k : Call) : Fate → List Answer
  | ended now result => [Gateway.farewell k now result]
  | cutOff => k.inbound.toList.map Gateway.cutOffAnswer
  | _ => []

theorem eq_underWay {f : Fate} (h : f.isUnderWay = true) : f = underWay := by
  cases f with
  | underWay => rfl
  | ended now result => cases h
  | cutOff => cases h
  | abandoned => cases h

end Fate

def Step.clock (now : Moment) : Step → Moment
  | .advance span => now + span
  | _ => now

def clockAfter (now : Moment) (steps : List Step) : Moment := steps.foldl Step.clock now

/-- What a step at `now` does to a call that is under way, `limit` being the time that backends have. -/
def meets (limit : Span) (now : Moment) (k : Call) : Step → Fate
  | .respond service id backend =>
    if id = k.id ∧ k.inbound.any (fun i => i.service = service) then
      .ended now (backend.result limit)
    else .underWay
  | .cancel id => if id = k.id then .abandoned else .underWay
  | .advance span =>
    if Gateway.cutsOff (now + span) k then .cutOff
    else if isDue k.forward.deadline (now + span) then .ended (now + span) (.error (.timeout limit))
    else .underWay
  | _ => .underWay

theorem meets_respond (limit : Span) (now : Moment) (k : Call) (service id : String)
    (backend : Backend) :
    meets limit now k (.respond service id backend) =
      if id = k.id ∧ k.inbound.any (fun i => i.service = service) then
        .ended now (backend.result limit)
      else .underWay := rfl

theorem meets_cancel (limit : Span) (now : Moment) (k : Call) (id : String) :
    meets limit now k (.cancel id) = if id = k.id then .abandoned else .underWay := rfl

theorem meets_advance (limit : Span) (now : Moment) (k : Call) (span : Span) :
    meets limit now k (.advance span) =
      if Gateway.cutsOff (now + span) k then .cutOff
      else if isDue k.forward.deadline (now + span) then
        .ended (now + span) (.error (.timeout limit))
      else .underWay := rfl

/-- Something becomes of a call that is under way at `now`. -/
inductive Happens (limit : Span) (now : Moment) (k : Call) : Step → Fate → Prop
  /-- The backend does something. -/
  | responded {service : String} (backend : Backend)
    (hservice : k.inbound.any (fun i => i.service = service) = true) :
    Happens limit now k (.respond service k.id backend) (.ended now (backend.result limit))
  | cancelled : Happens limit now k (.cancel k.id) .abandoned
  /-- The clock moves on to the deadline of the whole request. -/
  | cutOff {span : Span} (hcut : Gateway.cutsOff (now + span) k = true) :
    Happens limit now k (.advance span) .cutOff
  /-- The clock moves on to the deadline of the call only. -/
  | timedOut {span : Span} (hcut : Gateway.cutsOff (now + span) k = false)
    (hdue : isDue k.forward.deadline (now + span) = true) :
    Happens limit now k (.advance span) (.ended (now + span) (.error (.timeout limit)))

theorem happens_of_meets {limit : Span} {now : Moment} {k : Call} {x : Step} {f : Fate}
    (h : meets limit now k x = f) (hf : f.isUnderWay = false) : Happens limit now k x f := by
  subst h
  cases x with
  | request id fresh r => cases hf
  | respond service id backend =>
    rw [meets_respond] at hf ⊢
    by_cases hown : id = k.id ∧ k.inbound.any (fun i => i.service = service)
    · obtain ⟨rfl, hservice⟩ := hown
      rw [if_pos ⟨rfl, hservice⟩]
      exact .responded backend hservice
    · rw [if_neg hown] at hf
      cases hf
  | cancel id =>
    rw [meets_cancel] at hf ⊢
    by_cases hid : id = k.id
    · rw [if_pos hid, hid]
      exact .cancelled
    · rw [if_neg hid] at hf
      cases hf
  | advance span =>
    rw [meets_advance] at hf ⊢
    by_cases hcut : Gateway.cutsOff (now + span) k = true
    · rw [if_pos hcut]
      exact .cutOff hcut
    · rw [if_neg hcut] at hf ⊢
      by_cases hdue : isDue k.forward.deadline (now + span) = true
      · rw [if_pos hdue]
        exact .timedOut (Bool.eq_false_iff.mpr hcut) hdue
      · rw [if_neg hdue] at hf
        cases hf
  | sweep => cases hf

/-- What becomes of a call that is under way at `now` in some steps. -/
def fate (limit : Span) (k : Call) : Moment → List Step → Fate
  | _, [] => .underWay
  | now, x :: steps =>
    if (meets limit now k x).isUnderWay then fate limit k (x.clock now) steps
    else meets limit now k x

section Fates
variable {limit : Span} {now : Moment} {k : Call}

theorem fate_cons (x : Step) (steps : List Step) :
    fate limit k now (x :: steps) =
      if (meets limit now k x).isUnderWay then fate limit k (x.clock now) steps
      else meets limit now k x := rfl

theorem fate_append (before after : List Step) :
    fate limit k now (before ++ after) =
      if (fate limit k now before).isUnderWay then fate limit k (clockAfter now before) after
      else fate limit k now before := by
  induction before generalizing now with
  | nil => rfl
  | cons x before ih =>
    rw [List.cons_append, fate_cons, fate_cons, ih]
    by_cases hx : (meets limit now k x).isUnderWay = true
    · rw [if_pos hx, if_pos hx]
      rfl
    · rw [if_neg hx, if_neg hx, if_neg hx]

theorem exists_of_fate {steps : List Step} {f : Fate} (h : fate limit k now steps = f)
    (hf : f.isUnderWay = false) :
    ∃ before x after, steps = before ++ x :: after ∧
      (fate limit k now before).isUnderWay = true ∧ Happens limit (clockAfter now before) k x f := by
  induction steps generalizing now with
  | nil =>
    obtain rfl : Fate.underWay = f := h
    cases hf
  | cons x steps ih =>
    rw [fate_cons] at h
    by_cases hx : (meets limit now k x).isUnderWay = true
    · rw [if_pos hx] at h
      obtain ⟨before, y, after, rfl, hbefore, hy⟩ := ih h
      refine ⟨x :: before, y, after, rfl, ?_, hy⟩
      rw [fate_cons, if_pos hx]
      exact hbefore
    · rw [if_neg hx] at h
      exact ⟨[], x, steps, rfl, rfl, happens_of_meets h hf⟩

end Fates

/-! ## Calls by name -/

namespace Gateway

variable {α : Type} {g : Gateway α}

theorem filter_id {calls : List Call} (h : (calls.map (·.id)).Nodup) (id : String) :
    (calls.filter fun k => k.id = id) = (calls.find? fun k => k.id = id).toList := by
  induction calls with
  | nil => rfl
  | cons k calls ih =>
    rw [List.map_cons, List.nodup_cons] at h
    by_cases hk : k.id = id
    · have hrest : (calls.filter fun j => j.id = id) = [] := by
        rw [List.filter_eq_nil_iff]
        intro j hj hjid
        exact h.1 (List.mem_map.mpr ⟨j, hj, (of_decide_eq_true hjid).trans hk.symm⟩)
      rw [List.filter_cons_of_pos (by simpa using hk), hrest,
        List.find?_cons_of_pos (by simpa using hk)]
      rfl
    · rw [List.filter_cons_of_neg (by simpa using hk), ih h.2,
        List.find?_cons_of_neg (by simpa using hk)]

theorem find?_filter_id {calls : List Call} (h : (calls.map (·.id)).Nodup) (keep : Call → Bool)
    (id : String) :
    ((calls.filter keep).find? fun k => k.id = id) =
      (calls.find? fun k => k.id = id).filter keep := by
  have hsublist := h.sublist ((List.filter_sublist (p := keep) (l := calls)).map (·.id))
  have hfilter := filter_id hsublist id
  rw [List.filter_comm, filter_id h] at hfilter
  refine Option.ext fun k => ?_
  have hmem : k ∈ (calls.find? fun k => k.id = id).toList.filter keep ↔ _ := List.mem_filter
  rw [hfilter, Option.mem_toList, Option.mem_toList] at hmem
  rw [Option.filter_eq_some_iff]
  exact hmem

theorem call?_removeCall (h : (g.calls.map (·.id)).Nodup) (other id : String) :
    (g.removeCall other).call? id = (g.call? id).filter fun k => k.id ≠ other :=
  find?_filter_id h _ id

theorem call?_respond (h : (g.calls.map (·.id)).Nodup) (now : Moment) (other id : String)
    (backend : Backend) :
    (g.respond now other backend).2.1.call? id = (g.call? id).filter fun k => k.id ≠ other := by
  rw [respond_eq]
  cases hother : g.call? other with
  | some k =>
    obtain ⟨rfl, -⟩ := of_call? hother
    exact call?_removeCall h k.id id
  | none =>
    cases hk : g.call? id with
    | none => exact hk
    | some k =>
      have hne : k.id ≠ other := by
        rintro rfl
        obtain ⟨rfl, -⟩ := of_call? hk
        rw [hk] at hother
        cases hother
      exact hk.trans (Option.filter_some_pos (by simpa using hne)).symm

theorem filter_dueCalls (h : (g.calls.map (·.id)).Nodup) (now : Moment) (id : String) :
    ((g.dueCalls now).filter fun k => k.id = id) =
      (g.call? id).toList.filter fun k => isDue (Call.firstDeadline k) now := by
  have hperm := (List.mergeSort_perm (g.calls.filter fun k => isDue (Call.firstDeadline k) now)
    fun a b => Call.firstDeadline a ≤ Call.firstDeadline b).filter fun k => k.id = id
  rw [List.filter_comm, filter_id h] at hperm
  change ((g.dueCalls now).filter fun k => k.id = id).Perm _ at hperm
  unfold call?
  cases hfind : g.calls.find? fun k => k.id = id with
  | none =>
    rw [hfind] at hperm
    exact List.perm_nil.mp hperm
  | some k =>
    rw [hfind] at hperm
    by_cases hdue : isDue (Call.firstDeadline k) now = true
    · simp only [Option.toList_some, List.filter_cons, hdue, if_true, List.filter_nil] at hperm ⊢
      exact List.perm_singleton.mp hperm
    · simp only [Option.toList_some, List.filter_cons, hdue, List.filter_nil] at hperm ⊢
      exact List.perm_nil.mp hperm

theorem call?_wake (h : (g.calls.map (·.id)).Nodup) (now : Moment) (id : String) :
    (g.wake now).2.1.call? id =
      (g.call? id).filter fun k => !isDue (Call.firstDeadline k) now := by
  rw [wake_gateway]
  have hfilter := find?_filter_id h (fun k => k.id ∉ (g.dueCalls now).map (·.id)) id
  change (g.after (g.dueCalls now) (g.dueEndings now)).call? id = (g.call? id).filter _ at hfilter
  rw [hfilter]
  cases hk : g.call? id with
  | none => rfl
  | some k =>
  obtain ⟨hkid, hkmem⟩ := of_call? hk
  have hmem : k.id ∈ (g.dueCalls now).map (·.id) ↔ isDue (Call.firstDeadline k) now = true := by
    refine ⟨fun hin => ?_, fun hdue =>
      List.mem_map_of_mem ((g.mem_dueCalls now k).2 ⟨hkmem, hdue⟩)⟩
    obtain ⟨j, hj, hjid⟩ := List.mem_map.mp hin
    have hjk : j ∈ (g.dueCalls now).filter fun k => k.id = id :=
      List.mem_filter.mpr ⟨hj, by simpa using hjid.trans hkid⟩
    rw [filter_dueCalls h, hk] at hjk
    obtain ⟨hjk, hdue⟩ := List.mem_filter.mp hjk
    obtain rfl := List.mem_singleton.mp hjk
    exact hdue
  have hgone : decide (k.id ∉ (g.dueCalls now).map (·.id)) = !isDue (Call.firstDeadline k) now := by
    rw [decide_not, (Bool.decide_congr hmem).trans Bool.decide_eq_true]
  rw [Option.filter_some, Option.filter_some, hgone]

end Gateway

/-! ## One step -/

namespace World

variable {α : Type}

theorem answersTo_of_told {w w' : World α} {more : List (String × Answer)}
    (h : w'.told = w.told ++ more) (id : String) :
    w'.answersTo id = w.answersTo id ++ (more.filter fun e => e.1 = id).map Prod.snd := by
  unfold answersTo
  rw [h, List.filter_append, List.map_append]

theorem filter_answers_of_ne {id other : String} (h : other ≠ id) (answers : List Answer) :
    ((answers.map fun a => (other, a)).filter fun e => e.1 = id) = [] := by
  rw [List.filter_eq_nil_iff]
  intro e he
  obtain ⟨a, -, rfl⟩ := List.mem_map.mp he
  simpa using h

/-- On the way from `w` to `w'`, on which the calls in `ends` end with results, `f` says what becomes of
the call of a name, if there is one: so much is recorded and told, and the call goes on being under way
if that is what becomes of it. -/
structure Fares (id : String) (w : World α) (f : Call → Fate) (ends : List Ending) (w' : World α) :
    Prop where
  endings : (ends.filter fun e => e.call.id = id) =
    (w.gateway.call? id).toList.flatMap fun k => (f k).endings k
  answers : w'.answersTo id =
    w.answersTo id ++ (w.gateway.call? id).toList.flatMap fun k => (f k).answers k
  call?_eq : w'.gateway.call? id = (w.gateway.call? id).filter fun k => (f k).isUnderWay

namespace Fares

variable {id : String} {w w' w'' : World α} {f g : Call → Fate} {ends more : List Ending}

theorem of_none (hk : w.gateway.call? id = none)
    (hends : (ends.filter fun e => e.call.id = id) = []) (hanswers : w'.answersTo id = w.answersTo id)
    (hcall : w'.gateway.call? id = none) : Fares id w f ends w' := by
  refine ⟨?_, ?_, ?_⟩
  · rw [hends, hk]
    rfl
  · rw [hanswers, hk]
    exact (List.append_nil _).symm
  · rw [hcall, hk]
    rfl

theorem of_some {k : Call} {v : Fate} (hk : w.gateway.call? id = some k) (hf : f k = v)
    (hends : (ends.filter fun e => e.call.id = id) = v.endings k)
    (hanswers : w'.answersTo id = w.answersTo id ++ v.answers k)
    (hcall : w'.gateway.call? id = if v.isUnderWay then some k else none) :
    Fares id w f ends w' := by
  refine ⟨?_, ?_, ?_⟩
  · rw [hends, hk, Option.toList_some, List.flatMap_singleton, hf]
  · rw [hanswers, hk, Option.toList_some, List.flatMap_singleton, hf]
  · rw [hcall, hk, Option.filter_some, hf]

theorem of_idle (hf : ∀ k, w.gateway.call? id = some k → f k = .underWay)
    (hends : (ends.filter fun e => e.call.id = id) = []) (hanswers : w'.answersTo id = w.answersTo id)
    (hcall : w'.gateway.call? id = w.gateway.call? id) : Fares id w f ends w' := by
  cases hk : w.gateway.call? id with
  | none => exact of_none hk hends hanswers (hcall.trans hk)
  | some k =>
    exact of_some hk (hf k hk) hends (hanswers.trans (List.append_nil _).symm) (hcall.trans hk)

/-- One way after another: what becomes of the call on the second matters if it is under way. -/
theorem trans (h : Fares id w f ends w') (h' : Fares id w' g more w'') :
    Fares id w (fun k => if (f k).isUnderWay then g k else f k) (ends ++ more) w'' := by
  have hends : ((ends ++ more).filter fun e => e.call.id = id) = _ := List.filter_append _ _
  rw [h.endings, h'.endings] at hends
  have hanswers := h'.answers
  rw [h.answers] at hanswers
  have hcall := h'.call?_eq
  have hbetween := h.call?_eq
  cases hk : w.gateway.call? id with
  | none =>
    rw [hk] at hends hanswers hbetween
    rw [show w'.gateway.call? id = none from hbetween] at hends hanswers hcall
    exact of_none hk hends (hanswers.trans (by simp)) hcall
  | some k =>
    rw [hk, Option.filter_some] at hbetween
    rw [hk] at hends hanswers
    by_cases hunder : (f k).isUnderWay = true
    · rw [if_pos hunder] at hbetween
      rw [hbetween] at hends hanswers hcall
      refine of_some hk (if_pos hunder) (hends.trans ?_) (hanswers.trans ?_) hcall
      · simp [Fate.eq_underWay hunder, Fate.endings]
      · simp [Fate.eq_underWay hunder, Fate.answers]
    · rw [if_neg hunder] at hbetween
      rw [hbetween] at hends hanswers hcall
      refine of_some hk (if_neg hunder) (hends.trans ?_) (hanswers.trans ?_) (hcall.trans ?_)
      · simp
      · simp
      · rw [if_neg hunder]
        rfl

end Fares

variable [TokenArithmetic α]

section Step
variable {c : Config} {w : World α} (h : Orderly c w) {id : String}
  (hid : (w.subjects.lookup id).isSome = true)
include h hid

omit h in
theorem fares_request (limit : Span) (other : String) (fresh : Bytes) (r : Request) :
    Fares id w (meets limit w.now · (.request other fresh r)) (w.ends (.request other fresh r))
      (w.step (.request other fresh r)) := by
  cases hother : w.subjects.lookup other with
  | some subject =>
    have hstep := step_request_used (by rw [hother]; rfl) fresh r
    exact .of_idle (fun _ _ => rfl) rfl (by rw [hstep]) (by rw [hstep])
  | none =>
    have hne : other ≠ id := by
      rintro rfl
      rw [hother] at hid
      cases hid
    refine .of_idle (fun _ _ => rfl) rfl ?_ ?_
    · rw [answersTo_of_told (told_request hother fresh r) id, filter_answers_of_ne hne]
      exact List.append_nil _
    · obtain ⟨new, hcalls, hown⟩ := w.gateway.calls_arrive w.now other fresh r
      have hnew : (new.toList.find? fun k => k.id = id) = none := by
        rw [List.find?_eq_none]
        intro k hk
        simpa [(hown k (Option.mem_toList.mp hk)).id_eq] using hne
      unfold Gateway.call?
      rw [gateway_request hother, hcalls, List.find?_append, hnew, Option.or_none]

omit hid in
theorem fares_respond_self {service : String}
    (hsubject : w.subjects.lookup id = some (.service service)) (backend : Backend) :
    Fares id w
      (meets (Span.seconds c.timeouts.backendSecs.toNat) w.now · (.respond service id backend))
      (w.ends (.respond service id backend)) (w.step (.respond service id backend)) := by
  have hlimit := h.backendTimeout_eq
  have hends := ends_respond hsubject backend
  have hanswers := answersTo_of_told (told_respond hsubject backend) id
  have hcall := Gateway.call?_respond h.nodup w.now id id backend
  rw [← gateway_respond hsubject] at hcall
  rw [Gateway.respond_fst, hlimit] at hanswers
  rw [hlimit] at hends
  cases hk : w.gateway.call? id with
  | none =>
    rw [hk] at hends hanswers hcall
    exact .of_none hk (by rw [hends]; rfl) (hanswers.trans (List.append_nil _)) hcall
  | some k =>
    obtain ⟨hkid, hkmem⟩ := Gateway.of_call? hk
    obtain ⟨i, hi, hlookup⟩ := h.known k hkmem
    rw [hkid, hsubject, Option.some.injEq, Subject.service.injEq] at hlookup
    have hmeets := meets_respond (Span.seconds c.timeouts.backendSecs.toNat) w.now k service id backend
    rw [if_pos ⟨hkid.symm, by simp [hi, hlookup]⟩] at hmeets
    rw [hk] at hends hanswers hcall
    refine .of_some hk hmeets ?_ (hanswers.trans ?_) (hcall.trans ?_)
    · simp [hends, hkid, Fate.endings]
    · simp [Fate.answers]
    · simp [hkid, Fate.isUnderWay]

omit hid in
theorem fares_respond_other {service other : String} (hother : other ≠ id)
    (hsubject : w.subjects.lookup other = some (.service service)) (limit : Span)
    (backend : Backend) :
    Fares id w (meets limit w.now · (.respond service other backend))
      (w.ends (.respond service other backend)) (w.step (.respond service other backend)) := by
  refine .of_idle ?_ ?_ ?_ ?_
  · intro k hk
    rw [meets_respond, if_neg]
    rintro ⟨hkid, -⟩
    exact hother (hkid.trans (Gateway.of_call? hk).1)
  · rw [ends_respond hsubject, List.filter_eq_nil_iff]
    intro e he heid
    obtain ⟨k, hk, rfl⟩ := List.mem_map.mp he
    have hkid := (Gateway.of_call? (Option.mem_toList.mp hk)).1
    exact hother (hkid.symm.trans (of_decide_eq_true heid))
  · rw [answersTo_of_told (told_respond hsubject backend) id, filter_answers_of_ne hother]
    exact List.append_nil _
  · rw [gateway_respond hsubject, Gateway.call?_respond h.nodup]
    cases hk : w.gateway.call? id with
    | none => rfl
    | some k => simp [(Gateway.of_call? hk).1, Ne.symm hother]

omit hid in
theorem fares_respond (service other : String) (backend : Backend) :
    Fares id w
      (meets (Span.seconds c.timeouts.backendSecs.toNat) w.now · (.respond service other backend))
      (w.ends (.respond service other backend)) (w.step (.respond service other backend)) := by
  by_cases hsubject : w.subjects.lookup other = some (.service service)
  · by_cases hother : other = id
    · subst hother
      exact fares_respond_self h hsubject backend
    · exact fares_respond_other h hother hsubject _ backend
  · -- the request has not been routed to that service
    have hstep := step_respond_apart hsubject backend
    refine .of_idle ?_ ?_ (by rw [hstep]) (by rw [hstep])
    · intro k hk
      obtain ⟨hkid, hkmem⟩ := Gateway.of_call? hk
      obtain ⟨i, hi, hlookup⟩ := h.known k hkmem
      rw [meets_respond, if_neg]
      rintro ⟨rfl, hservice⟩
      rw [hi, Option.any_some] at hservice
      exact hsubject (of_decide_eq_true hservice ▸ hlookup)
    · rw [ends_respond_apart hsubject]
      rfl

omit hid in
theorem fares_cancel (limit : Span) (other : String) :
    Fares id w (meets limit w.now · (.cancel other)) (w.ends (.cancel other))
      (w.step (.cancel other)) := by
  have htold : (w.step (.cancel other)).answersTo id = w.answersTo id := by
    unfold answersTo
    rw [told_cancel]
  have hgateway := Gateway.call?_removeCall h.nodup other id
  by_cases hother : other = id
  · subst hother
    have hmeets : ∀ k, w.gateway.call? other = some k →
        meets limit w.now k (.cancel other) = .abandoned := by
      intro k hk
      rw [meets_cancel, if_pos (Gateway.of_call? hk).1.symm]
    rw [← gateway_cancel] at hgateway
    cases hk : w.gateway.call? other with
    | none =>
      rw [hk] at hgateway
      exact .of_none hk rfl htold hgateway
    | some k =>
      rw [hk] at hgateway
      refine .of_some hk (hmeets k hk) rfl (htold.trans (List.append_nil _).symm)
        (hgateway.trans ?_)
      simp [(Gateway.of_call? hk).1, Fate.isUnderWay]
  · refine .of_idle ?_ rfl htold ?_
    · intro k hk
      rw [meets_cancel, if_neg]
      rintro rfl
      exact hother (Gateway.of_call? hk).1
    · rw [gateway_cancel, hgateway]
      cases hk : w.gateway.call? id with
      | none => rfl
      | some k => simp [(Gateway.of_call? hk).1, Ne.symm hother]

omit [TokenArithmetic α] hid in
/-- The results of the calls of a name when the clock moves. -/
theorem filter_ends_advance (id : String) (span : Span) :
    ((w.ends (.advance span)).filter fun e => e.call.id = id) =
      (((w.gateway.call? id).toList.filter fun k =>
        isDue (Gateway.Call.firstDeadline k) (w.now + span)).filter fun k =>
          !Gateway.cutsOff (w.now + span) k).map fun k =>
        ⟨k, w.now + span, .error (.timeout (Span.seconds c.timeouts.backendSecs.toNat))⟩ := by
  rw [← Gateway.filter_dueCalls h.nodup, List.filter_comm, ← h.backendTimeout_eq]
  exact List.filter_map

omit hid in
theorem answersTo_advance (id : String) (span : Span) :
    (w.step (.advance span)).answersTo id = w.answersTo id ++
      ((w.gateway.call? id).toList.filter fun k =>
        isDue (Gateway.Call.firstDeadline k) (w.now + span)).map
          (Gateway.expiryAnswer (Span.seconds c.timeouts.backendSecs.toNat) (w.now + span)) := by
  rw [answersTo_of_told (told_advance w span) id, Gateway.wake_answers,
    ← Gateway.filter_dueCalls h.nodup, List.filter_map, List.map_map, ← h.backendTimeout_eq]
  rfl

omit hid in
theorem call?_advance (id : String) (span : Span) :
    (w.step (.advance span)).gateway.call? id =
      (w.gateway.call? id).filter fun k =>
        !isDue (Gateway.Call.firstDeadline k) (w.now + span) := by
  rw [gateway_advance]
  exact Gateway.call?_wake h.nodup _ id

omit hid in
theorem fares_advance (span : Span) :
    Fares id w (meets (Span.seconds c.timeouts.backendSecs.toNat) w.now · (.advance span))
      (w.ends (.advance span)) (w.step (.advance span)) := by
  have hends := filter_ends_advance h id span
  have hanswers := answersTo_advance h id span
  have hcall := call?_advance h id span
  cases hk : w.gateway.call? id with
  | none =>
    rw [hk] at hends hanswers hcall
    exact .of_none hk hends (hanswers.trans (List.append_nil _)) hcall
  | some k =>
    obtain ⟨i, hi, -⟩ := h.known k (Gateway.of_call? hk).2
    have hcut := Gateway.cutsOff_eq hi (w.now + span)
    have hdue := Gateway.isDue_firstDeadline hi (w.now + span)
    rw [hk] at hends hanswers hcall
    have hmeets := meets_advance (Span.seconds c.timeouts.backendSecs.toNat) w.now k span
    rw [hcut] at hmeets
    by_cases hlate : isDue i.deadline (w.now + span) = true
    · rw [if_pos hlate] at hmeets
      refine .of_some hk hmeets (hends.trans ?_) (hanswers.trans ?_) (hcall.trans ?_)
      · simp [hdue, hcut, hlate, Fate.endings]
      · simp [hdue, hlate, hi, Fate.answers, Gateway.expiryAnswer]
      · simp [hdue, hlate, Fate.isUnderWay]
    · rw [if_neg hlate] at hmeets
      by_cases hout : isDue k.forward.deadline (w.now + span) = true
      · rw [if_pos hout] at hmeets
        refine .of_some hk hmeets (hends.trans ?_) (hanswers.trans ?_) (hcall.trans ?_)
        · simp [hdue, hcut, hlate, hout, Fate.endings]
        · simp [hdue, hlate, hout, hi, Fate.answers, Gateway.expiryAnswer]
        · simp [hdue, hout, Fate.isUnderWay]
      · rw [if_neg hout] at hmeets
        refine .of_some hk hmeets (hends.trans ?_) (hanswers.trans ?_) (hcall.trans ?_)
        · simp [hdue, hlate, hout, Fate.endings]
        · simp [hdue, hlate, hout, Fate.answers]
        · simp [hdue, hlate, hout, Fate.isUnderWay]

omit h hid in
theorem fares_sweep (limit : Span) :
    Fares id w (meets limit w.now · .sweep) (w.ends .sweep) (w.step .sweep) :=
  .of_idle (fun _ _ => rfl) rfl (by unfold answersTo; rw [told_sweep]) rfl

theorem fares_step (x : Step) :
    Fares id w (meets (Span.seconds c.timeouts.backendSecs.toNat) w.now · x) (w.ends x) (w.step x) := by
  cases x with
  | request other fresh r => exact fares_request hid _ other fresh r
  | respond service other backend => exact fares_respond h service other backend
  | cancel other => exact fares_cancel h _ other
  | advance span => exact fares_advance h span
  | sweep => exact fares_sweep _

end Step

/-! ## A run -/

theorem now_step (w : World α) (x : Step) : (w.step x).now = x.clock w.now := by
  cases x with
  | request id fresh r =>
    cases hid : w.subjects.lookup id with
    | some subject =>
      rw [step_request_used (by rw [hid]; rfl)]
      rfl
    | none => exact now_request hid fresh r
  | respond service id backend =>
    by_cases hid : w.subjects.lookup id = some (.service service)
    · exact now_respond hid backend
    · rw [step_respond_apart hid]
      rfl
  | cancel id => rfl
  | advance span => rfl
  | sweep => rfl

theorem now_foldl (w : World α) (steps : List Step) :
    (steps.foldl step w).now = clockAfter w.now steps := by
  induction steps generalizing w with
  | nil => rfl
  | cons x steps ih =>
    rw [List.foldl_cons, ih, now_step]
    rfl

theorem known_step {w : World α} {id : String} (hid : (w.subjects.lookup id).isSome = true)
    (x : Step) : ((w.step x).subjects.lookup id).isSome = true := by
  cases x with
  | request other fresh r =>
    cases hother : w.subjects.lookup other with
    | some subject =>
      rw [step_request_used (by rw [hother]; rfl)]
      exact hid
    | none =>
      rw [subjects_request hother, List.lookup_cons]
      split
      · rfl
      · exact hid
  | respond service other backend =>
    by_cases hother : w.subjects.lookup other = some (.service service)
    · rw [subjects_respond hother]
      exact hid
    · rw [step_respond_apart hother]
      exact hid
  | cancel other => exact hid
  | advance span => exact hid
  | sweep => exact hid

theorem fares_run {c : Config} {w : World α} (h : Orderly c w) {id : String}
    (hid : (w.subjects.lookup id).isSome = true) (steps : List Step) :
    Fares id w (fun k => fate (Span.seconds c.timeouts.backendSecs.toNat) k w.now steps)
      (w.endings steps) (steps.foldl step w) := by
  induction steps generalizing w with
  | nil => exact .of_idle (fun _ _ => rfl) rfl rfl rfl
  | cons x steps ih =>
    have hrest := ih (h.step x) (known_step hid x)
    rw [now_step] at hrest
    exact (fares_step h hid x).trans hrest

end World

end Gatehouse
