import Gatehouse.Proofs.Gateway.Admission

/-!
# What is counted is what is told

The measurements of requests are made apart from the answers: by the breaker that refuses a call, by
the limiter, and where a routed request is answered. Here every operation of a gateway is seen to
make as many as it gives answers for them to count.

* `Measurement.mark?`, `Answer.mark?` : what a request is counted under, in measurements and answers;
* `Balanced` : some answers and some measurements agree;
* `Dispatcher.start_cases` : what a call that begins may measure;
* `Gateway.balances_arrive`, `Gateway.balanced_respond`, `Gateway.balanced_wake` : the operations.
-/

namespace Gatehouse

open Gatehouse.Http Gatehouse.Routing Gatehouse.Text

/-! ## Marks -/

namespace Outcome

def openLabel : String := "breaker_open"

theorem label_ne_openLabel {o : Outcome} (h : ∀ service, o ≠ .breakerOpen service) :
    o.label ≠ openLabel := by
  cases o with
  | breakerOpen service => exact absurd rfl (h service)
  | admitted => decide
  | rateLimited => decide
  | routeNotFound => decide
  | transportFailure service => exact (by decide : "transport_failure" ≠ openLabel)
  | backendError status => exact (by decide : "backend_error" ≠ openLabel)
  | backendSuccess status => exact (by decide : "backend_success" ≠ openLabel)

end Outcome

namespace Measurement

/-- A gauge says how something stands and counts nothing. -/
def isGauge : Measurement → Bool
  | circuit .. => true
  | clients _ => true
  | _ => false

/-- The status and the outcome that a request is counted under. -/
def mark? : Measurement → Option (Status × String)
  | request _ status _ outcome _ => some (status, outcome)
  | _ => none

/-- The service whose open circuit has refused a call, as its breaker counts it. -/
def refusedService? : Measurement → Option String
  | circuitRefusal service => some service
  | _ => none

/-- The service that an open circuit kept a request from, as the request is counted. -/
def openService? : Measurement → Option String
  | request _ _ service outcome _ => if outcome = Outcome.openLabel then some service else none
  | _ => none

theorem of_isGauge {m : Measurement} (h : m.isGauge = true) :
    m.mark? = none ∧ m ≠ .rateLimited ∧ m.refusedService? = none ∧ m.openService? = none := by
  cases m with
  | circuit service state => exact ⟨rfl, nofun, rfl, rfl⟩
  | clients count => exact ⟨rfl, nofun, rfl, rfl⟩
  | request method status service outcome duration => cases h
  | rateLimited => cases h
  | circuitRefusal service => cases h

end Measurement

/-- The status and the outcome of an answer, if its request is counted. Requests that the limiter
turns away have a counter of their own. -/
def Answer.mark? (a : Answer) : Option (Status × String) :=
  (a.outcome.filter (· ≠ .rateLimited)).map fun o => (a.response.status, o.label)

/-- The measurements count the answers: under the same marks in the same order, the answers of the
limiter apart; and they agree with each other on the calls that open circuits have refused. -/
structure Balanced (answers : List Answer) (ms : List Measurement) : Prop where
  marks : ms.filterMap Measurement.mark? = answers.filterMap Answer.mark?
  limited : ms.countP (· = .rateLimited) = answers.countP (·.outcome = some .rateLimited)
  refusals : ms.filterMap Measurement.refusedService? = ms.filterMap Measurement.openService?
  /-- A request that the gateway itself has run out of time for is not counted. -/
  timedOut : ∀ a ∈ answers, a.response.status = .requestTimeout →
    a.outcome = none ∨ a.outcome = some (.backendSuccess .requestTimeout)

namespace Balanced

variable {answers more : List Answer} {ms ns : List Measurement}

theorem append (h : Balanced answers ms) (h' : Balanced more ns) :
    Balanced (answers ++ more) (ms ++ ns) where
  marks := by rw [List.filterMap_append, List.filterMap_append, h.marks, h'.marks]
  limited := by rw [List.countP_append, List.countP_append, h.limited, h'.limited]
  refusals := by rw [List.filterMap_append, List.filterMap_append, h.refusals, h'.refusals]
  timedOut a ha := by
    rcases List.mem_append.mp ha with ha | ha
    · exact h.timedOut a ha
    · exact h'.timedOut a ha

theorem of_gauges (h : ∀ m ∈ ms, m.isGauge = true) : Balanced [] ms where
  marks := List.filterMap_eq_nil_iff.mpr fun m hm => (Measurement.of_isGauge (h m hm)).1
  limited := List.countP_eq_zero.mpr fun m hm => by
    simpa using (Measurement.of_isGauge (h m hm)).2.1
  refusals := by
    rw [List.filterMap_eq_nil_iff.mpr fun m hm => (Measurement.of_isGauge (h m hm)).2.2.1,
      List.filterMap_eq_nil_iff.mpr fun m hm => (Measurement.of_isGauge (h m hm)).2.2.2]
  timedOut _ ha := absurd ha List.not_mem_nil

theorem of_none {a : Answer} (ha : a.outcome = none) : Balanced [a] [] where
  marks := by simp [Answer.mark?, ha]
  limited := by simp [ha]
  refusals := rfl
  timedOut b hb _ := by
    rw [List.mem_singleton.mp hb]
    exact .inl ha

theorem of_request {a : Answer} {o : Outcome} (ha : a.outcome = some o) (hlimited : o ≠ .rateLimited)
    (hopen : ∀ service, o ≠ .breakerOpen service)
    (htimedOut : a.response.status = .requestTimeout → o = .backendSuccess .requestTimeout)
    (method : List Char) (service : String) (duration : Span) :
    Balanced [a] [.request method a.response.status service o.label duration] where
  marks := by simp [Measurement.mark?, Answer.mark?, ha, hlimited]
  limited := by simp [ha, hlimited]
  refusals := by
    simp [Measurement.refusedService?, Measurement.openService?, Outcome.label_ne_openLabel hopen]
  timedOut b hb hstatus := by
    rw [List.mem_singleton.mp hb] at hstatus ⊢
    exact .inr (ha.trans (congrArg some (htimedOut hstatus)))

theorem of_refusal {a : Answer} {service : String} (ha : a.outcome = some (.breakerOpen service))
    (hstatus : a.response.status ≠ .requestTimeout) (method : List Char) (duration : Span) :
    Balanced [a] [.circuitRefusal service,
      .request method a.response.status service (Outcome.breakerOpen service).label duration] where
  marks := by
    have hmark : a.mark? = some (a.response.status, (Outcome.breakerOpen service).label) := by
      simp [Answer.mark?, ha]
    rw [List.filterMap_cons_some hmark]
    rfl
  limited := by simp [ha]
  refusals := rfl
  timedOut b hb hb' := by
    rw [List.mem_singleton.mp hb] at hb'
    exact absurd hb' hstatus

theorem of_limited {a : Answer} (ha : a.outcome = some .rateLimited)
    (hstatus : a.response.status ≠ .requestTimeout) : Balanced [a] [.rateLimited] where
  marks := by simp [Measurement.mark?, Answer.mark?, ha]
  limited := by simp [ha]
  refusals := rfl
  timedOut b hb hb' := by
    rw [List.mem_singleton.mp hb] at hb'
    exact absurd hb' hstatus

theorem map {f : Answer → Answer} (h : Balanced answers ms)
    (houtcome : ∀ a, (f a).outcome = a.outcome)
    (hstatus : ∀ a, (f a).response.status = a.response.status) : Balanced (answers.map f) ms where
  marks := by
    have hmark : Answer.mark? ∘ f = Answer.mark? := by
      funext a
      unfold Function.comp Answer.mark?
      rw [houtcome, hstatus]
    rw [List.filterMap_map, hmark]
    exact h.marks
  limited := by
    rw [List.countP_map, h.limited]
    refine List.countP_congr fun a _ => ?_
    simp [houtcome]
  refusals := h.refusals
  timedOut b hb := by
    obtain ⟨a, ha, rfl⟩ := List.mem_map.mp hb
    rw [houtcome, hstatus]
    exact h.timedOut a ha

end Balanced

/-! ## Gauges -/

/-- Some events measure nothing but gauges. -/
def Event.Quiet (events : List Event) : Prop := ∀ m ∈ measurements events, m.isGauge = true

theorem Event.Quiet.append {events more : List Event} (h : Quiet events) (h' : Quiet more) :
    Quiet (events ++ more) := by
  intro m hm
  rw [measurements_append] at hm
  rcases List.mem_append.mp hm with hm | hm
  · exact h m hm
  · exact h' m hm

theorem Event.quiet_of_measurements_eq_nil {events : List Event} (h : measurements events = []) :
    Quiet events := by
  intro m hm
  rw [h] at hm
  cases hm

theorem Event.Quiet.balanced {events : List Event} (h : Quiet events) :
    Balanced [] (measurements events) := .of_gauges h

namespace Breaker

variable (b : Breaker) (now : Moment)

theorem quiet_tryAcquire : Event.Quiet (b.tryAcquire now).2.2 := by
  unfold tryAcquire Event.Quiet
  split
  · split
    · simp [gauge, Measurement.isGauge]
    · simp
  · simp

theorem quiet_record (succeeded : Bool) : Event.Quiet (b.record succeeded now).2 := by
  unfold record recordSuccess recordFailure Event.Quiet
  split
  · split
    · simp
    · simp [gauge, Measurement.isGauge]
    · simp
  · dsimp only
    split
    · simp [gauge, Measurement.isGauge]
    · simp

theorem quiet_reset : Event.Quiet (b.reset now).2 := by
  unfold reset Event.Quiet
  simp [gauge, Measurement.isGauge]

theorem measurements_begin : ∃ gauges, (∀ m ∈ gauges, Measurement.isGauge m = true) ∧
    Event.measurements (b.begin now).2.2 =
      gauges ++ if (b.begin now).1 then [] else [.circuitRefusal b.service] := by
  have hquiet := b.quiet_tryAcquire now
  have hservice := b.service_tryAcquire now
  refine ⟨Event.measurements (b.tryAcquire now).2.2, hquiet, ?_⟩
  unfold begin
  generalize b.tryAcquire now = x at hservice ⊢
  obtain ⟨_ | _, b', events⟩ := x
  · rw [← hservice]
    simp
  · simp

end Breaker

theorem Registry.quiet_update (r : Registry) (service : String)
    (operation : Breaker → Breaker × List Event) (h : ∀ b, Event.Quiet (operation b).2) :
    Event.Quiet (r.update service operation).2 := by
  unfold update
  split
  · exact h _
  · exact nofun

/-! ## Calls -/

namespace Dispatcher

theorem quiet_finish (d : Dispatcher) (now : Moment) (call : Forward)
    (result : Except ForwardingFailure Response) : Event.Quiet (d.finish now call result).2.2 := by
  have htold := Event.quiet_of_measurements_eq_nil (measurements_conclude result call.service)
  unfold finish
  split_ifs
  · exact (d.registry.quiet_update call.service _ fun b => b.quiet_record now _).append htold
  · exact htold

section Conclude
variable (service : String) (result : Except ForwardingFailure Response)

/-- What becomes of a call that was made. -/
theorem conclude_cases : ((conclude service result).1 = .transportFailure service ∧
      (conclude service result).2.1.status = .badGateway) ∨
    (conclude service result).1 = .ofStatus (conclude service result).2.1.status := by
  unfold conclude
  split
  · exact .inr rfl
  · exact .inr rfl
  · exact .inl ⟨rfl, rfl⟩
  · exact .inl ⟨rfl, rfl⟩

theorem conclude_ne_breakerOpen (name : String) : (conclude service result).1 ≠ .breakerOpen name := by
  rcases conclude_cases service result with ⟨h, -⟩ | h
  · rw [h]
    exact nofun
  · rw [h]
    unfold Outcome.ofStatus
    split <;> exact nofun

theorem conclude_of_requestTimeout (h : (conclude service result).2.1.status = .requestTimeout) :
    (conclude service result).1 = .backendSuccess .requestTimeout := by
  rcases conclude_cases service result with ⟨-, hstatus⟩ | hstatus
  · rw [hstatus] at h
    cases h
  · rw [hstatus, h]
    rfl

end Conclude

/-- A call that was sent measures gauges only, and one that ends at once ends as others do. -/
theorem send_cases (d : Dispatcher) (now : Moment) (service : String) (guarded : Bool)
    (target : Url) (r : Request) :
    Event.Quiet (d.send now service guarded target r).2.2 ∧
      ∀ v, (d.send now service guarded target r).1 = .answered v → ∃ result,
        v = .of (conclude service result).1 (conclude service result).2.1 := by
  unfold send
  cases ho : outbound d.rules target r with
  | error e =>
    refine ⟨d.quiet_finish now _ _, fun v hv => ?_⟩
    exact ⟨.error (.invalidTarget e), (Start.answered.inj hv).symm⟩
  | ok sent =>
    obtain ⟨request, events⟩ := sent
    have hquiet := Event.quiet_of_measurements_eq_nil (Event.measurements_outbound ho)
    dsimp only
    split_ifs
    · refine ⟨hquiet.append (d.quiet_finish now _ _), fun v hv => ?_⟩
      exact ⟨.error (.timeout d.backendTimeout), (Start.answered.inj hv).symm⟩
    · exact ⟨hquiet, nofun⟩

/-- A call that begins is refused, which its breaker counts, or nothing but gauges is measured. -/
theorem start_cases {d : Dispatcher} {target : Url} {b : Breaker}
    (hb : d.registry.resolve target = some b) (now : Moment) (r : Request) :
    ((d.start now target r).1 = .answered (refusal b.service) ∧
        ∃ gauges, (∀ m ∈ gauges, Measurement.isGauge m = true) ∧
          Event.measurements (d.start now target r).2.2 = gauges ++ [.circuitRefusal b.service]) ∨
      (Event.Quiet (d.start now target r).2.2 ∧
        ∀ v, (d.start now target r).1 = .answered v → ∃ result,
          v = .of (conclude b.service result).1 (conclude b.service result).2.1) := by
  obtain ⟨gauges, hgauges, hasked⟩ := b.measurements_begin now
  have hservice := b.service_begin now
  unfold start
  rw [hb]
  dsimp only
  generalize b.begin now = x at hasked hservice ⊢
  obtain ⟨granted, b', asked⟩ := x
  dsimp only at hasked hservice ⊢
  rw [← hservice] at hasked ⊢
  cases granted with
  | false =>
    refine .inl ⟨rfl, gauges, hgauges, ?_⟩
    simpa using hasked
  | true =>
    have hquiet : Event.Quiet asked := by
      intro m hm
      rw [hasked] at hm
      exact hgauges m (by simpa using hm)
    obtain ⟨hsend, hanswered⟩ := send_cases { d with registry := d.registry.replace b' } now
      b'.service true target r
    exact .inr ⟨hquiet.append hsend, hanswered⟩

end Dispatcher

namespace Gateway

variable {α : Type}

/-- The answers that come of something at once. -/
def Balances (x : Arrival × Gateway α × List Event) : Prop :=
  Balanced x.1.answer?.toList (Event.measurements x.2.2)

theorem measurements_completed (inbound : Inbound) (now : Moment) (v : Verdict) :
    Event.measurements (completed inbound now v) = [.request inbound.method.name
      v.answer.response.status inbound.service v.outcome.label (elapsed now inbound.started)] := rfl

/-- A call that was made is counted when it is answered, under what became of it. -/
theorem balanced_completed (inbound : Inbound) (now : Moment) (service : String)
    (result : Except ForwardingFailure Response) {v : Verdict}
    (hv : v = .of (Dispatcher.conclude service result).1 (Dispatcher.conclude service result).2.1) :
    Balanced [v.answer] (Event.measurements (completed inbound now v)) := by
  rw [measurements_completed, hv]
  exact Balanced.of_request rfl (Dispatcher.conclude_ne_rateLimited service result)
    (Dispatcher.conclude_ne_breakerOpen service result)
    (Dispatcher.conclude_of_requestTimeout service result) _ _ _

/-! ## Coming in -/

section Arrive
variable {g : Gateway α} (now : Moment) (id : String) (timeout : Moment) (r : Request)

theorem balances_route (own : OwnBreakers g.table g.registry) :
    Balances (g.route now id timeout r) := by
  unfold route Balances
  cases hf : g.table.find? r.method r.uri.path with
  | none =>
    exact Balanced.of_request (a := ⟨Reply.routeNotFound, some .routeNotFound⟩) rfl nofun nofun
      (fun h => absurd h (by decide)) _ _ _
  | some route =>
    obtain ⟨hname, hsome⟩ := own route (List.mem_of_find?_eq_some hf)
    obtain ⟨b, hb⟩ := Option.isSome_iff_exists.mp hsome
    have hresolve : g.registry.resolve route.target = some b := by
      unfold Registry.resolve
      rw [hname]
      exact hb
    have hservice : b.service = route.service := Registry.service_of_get? hb
    have hstart := Dispatcher.start_cases hresolve now r
    dsimp only
    generalize g.dispatcher.start now route.target r = x at hstart ⊢
    obtain ⟨start, d, events⟩ := x
    dsimp only at hstart
    rcases hstart with ⟨rfl, gauges, hgauges, hmeasured⟩ | ⟨hquiet, hanswered⟩
    · -- the breaker that counts the refusal is that of the route's service
      rw [hservice] at hmeasured ⊢
      let inbound : Inbound := ⟨r.method, r.name, route.service, now, timeout⟩
      have hrefusal := (Balanced.of_gauges hgauges).append (Balanced.of_refusal
        (a := (Dispatcher.refusal route.service).answer) rfl nofun r.method.name
        (elapsed now now))
      have hms : Event.measurements
          (events ++ completed inbound now (Dispatcher.refusal route.service)) =
          gauges ++ [.circuitRefusal route.service, .request r.method.name
            (Dispatcher.refusal route.service).answer.response.status route.service
            (Outcome.breakerOpen route.service).label (elapsed now now)] := by
        rw [Event.measurements_append, hmeasured, measurements_completed, List.append_assoc]
        rfl
      show Balanced [(Dispatcher.refusal route.service).answer] (Event.measurements
        (events ++ completed inbound now (Dispatcher.refusal route.service)))
      rw [hms]
      exact hrefusal
    · cases start with
      | sent forward request => exact hquiet.balanced
      | answered v =>
        obtain ⟨result, hv⟩ := hanswered v rfl
        have hbalanced := hquiet.balanced.append
          (balanced_completed ⟨r.method, r.name, route.service, now, timeout⟩ now b.service result hv)
        rw [← Event.measurements_append] at hbalanced
        exact hbalanced

theorem balances_serve (own : OwnBreakers g.table g.registry) (resource : Resource) :
    Balances (g.serve now id timeout resource r) := by
  unfold serve
  split
  · exact balances_route now id timeout r own
  · split_ifs
    · exact Balanced.of_none rfl
    · exact Balanced.of_none rfl

theorem Balances.touched {x : Arrival × Gateway α × List Event} (h : Balances x)
    (resource : Resource) (r : Request) : Balances (touched (lastTouch resource r) x) := by
  obtain ⟨a | request, g, events⟩ := x
  · exact Balanced.map h (lastTouch_outcome resource r) fun a => outgoing_status _ _ _ _
  · exact h

omit g in
theorem quiet_administer (g : Gateway α) (resource : Resource) :
    Event.Quiet (g.administer now resource r).2.2 := by
  have hnone : Event.Quiet [] := nofun
  unfold administer
  dsimp only
  split_ifs
  · exact hnone
  · exact Event.quiet_of_measurements_eq_nil rfl
  · exact hnone
  · cases resource with
    | status => exact hnone
    | breakers => exact hnone
    | health => exact hnone
    | backend => exact hnone
    | reset segment =>
      dsimp only
      unfold Admin.reset Registry.reset
      cases textOf? (Url.percentDecode segment) with
      | none => exact hnone
      | some service =>
        dsimp only
        cases g.registry.get? service with
        | none => exact hnone
        | some b => exact (b.quiet_reset now).append (Event.quiet_of_measurements_eq_nil rfl)

variable [TokenArithmetic α]

theorem balances_arrive (own : OwnBreakers g.table g.registry) (fresh : Bytes) :
    Balances (g.arrive now id fresh r) := by
  by_cases htime : g.HasTime now
  · cases hadmin : (g.resource r).isAdmin with
    | true =>
      rw [arrive_of_admin id fresh htime hadmin]
      have hquiet := g.quiet_administer now (r.named fresh) (g.resource r)
      exact (Balanced.of_none rfl).append hquiet.balanced
    | false =>
      have hserve : ∀ l : Limiter α, Balances
          ({ g with limiter := l }.serve now id (g.timeout now) (g.resource r) (r.named fresh)) :=
        fun l => balances_serve (g := { g with limiter := l }) now id _ _ own _
      cases hon : g.config.rateLimit.enabled with
      | false =>
        rw [arrive_of_off id fresh htime hadmin hon]
        exact (hserve g.limiter).touched _ _
      | true =>
        cases hattempt : (g.limiter.attempt r.client now).1 with
        | true =>
          rw [arrive_of_admitted id fresh htime ⟨hon, hadmin⟩ hattempt]
          exact (hserve _).touched _ _
        | false =>
          rw [arrive_of_refused id fresh htime ⟨hon, hadmin⟩ hattempt]
          refine Balanced.of_limited rfl ?_
          unfold turnedAway lastTouch
          rw [outgoing_status]
          decide
  · rw [arrive_of_no_time g now id fresh r htime]
    exact Balanced.of_none rfl

end Arrive

/-! ## Going out -/

section Leave
variable (g : Gateway α) (now : Moment) {c : Call}

theorem balanced_conclude (hc : c.inbound.isSome = true)
    (result : Except ForwardingFailure Response) :
    Balanced [(g.conclude now c result).1] (Event.measurements (g.conclude now c result).2.2) := by
  obtain ⟨i, hi⟩ := Option.isSome_iff_exists.mp hc
  have hquiet := g.dispatcher.quiet_finish now c.forward result
  let touch (a : Answer) : Answer :=
    { a with response := outgoing i.method i.requestId none a.response }
  have hcompleted := (balanced_completed i now c.forward.service result rfl).map (f := touch)
    (fun _ => rfl) fun a => outgoing_status _ _ _ _
  have hboth := hquiet.balanced.append hcompleted
  rw [← Event.measurements_append] at hboth
  unfold conclude leave
  rw [hi]
  exact hboth

theorem balanced_respond (h : ∀ c ∈ g.calls, c.inbound.isSome = true) (id : String)
    (backend : Backend) : Balanced (g.respond now id backend).1.toList
      (Event.measurements (g.respond now id backend).2.2) := by
  unfold respond
  cases hcall : g.call? id with
  | none => exact .of_gauges nofun
  | some c => exact g.balanced_conclude now (h c (of_call? hcall).2) _

/-- A call that runs out of time is counted when it is its backend that has taken too long. -/
theorem balanced_expire (hc : c.inbound.isSome = true) :
    Balanced [(g.expire now c).1] (Event.measurements (g.expire now c).2.2) := by
  have hconclude := g.balanced_conclude now hc
    (Backend.keepsSilent.result g.dispatcher.backendTimeout)
  obtain ⟨i, hi⟩ := Option.isSome_iff_exists.mp hc
  unfold expire
  rw [hi]
  dsimp only
  split_ifs
  · exact .of_none rfl
  · exact hconclude

theorem balanced_wake (h : ∀ c ∈ g.calls, c.inbound.isSome = true) :
    Balanced ((g.wake now).1.map Prod.snd) (Event.measurements (g.wake now).2.2) := by
  have hfold : ∀ (calls : List Call) (x : List (String × Answer) × Gateway α × List Event),
      (∀ c ∈ calls, c.inbound.isSome = true) →
      Balanced (x.1.map Prod.snd) (Event.measurements x.2.2) →
      Balanced ((calls.foldl (expireNext now) x).1.map Prod.snd)
        (Event.measurements (calls.foldl (expireNext now) x).2.2) := by
    intro calls
    induction calls with
    | nil => exact fun x _ hx => hx
    | cons c calls ih =>
      intro x hcalls hx
      refine ih _ (fun d hd => hcalls d (List.mem_cons_of_mem c hd)) ?_
      unfold expireNext
      rw [List.map_append, Event.measurements_append]
      exact hx.append (x.2.1.balanced_expire now (hcalls c List.mem_cons_self))
  rw [wake_eq]
  refine hfold _ _ (fun c hc => ?_) (.of_gauges nofun)
  exact h c ((g.mem_dueCalls now c).mp hc).1

end Leave

end Gateway

end Gatehouse
