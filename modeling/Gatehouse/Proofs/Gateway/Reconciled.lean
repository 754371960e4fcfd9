import Gatehouse.Proofs.Gateway.Balance
import Gatehouse.Proofs.Gateway.Fate
import Gatehouse.Proofs.Telemetry.Totals

/-!
# Metrics reconcile with what happened

The metrics of a gateway since it was built are summed up from what its operations measured. Along
any run they agree with the answers that were given, with what the limiter did, and with each other.

* `World.measurements`, `World.balanced_run` : what is measured in a run counts the answers;
* `World.refusals`, `World.limitedCount_foldl` : how often the limiter turns a request away;
* `World.answersTo_of_cancel` : a caller that goes away is told nothing;
* `World.metrics` : the metrics at the end of a run;
* `World.Reconciled`, `World.reconciled` : they agree with all of that.
-/

namespace Gatehouse

open Gatehouse.Http Gatehouse.Routing Gatehouse.Text

/-! ## What is measured in a run -/

namespace Seen

def measurement? : Seen → Option Measurement
  | measured m => some m
  | _ => none

theorem measurement?_ofArrival (id : String) (subject : Subject) (arrival : Gateway.Arrival) :
    [ofArrival id subject arrival].filterMap measurement? = [] := by
  cases arrival with
  | answered a => rfl
  | sent request => rfl

theorem measurement?_ofAnswers (subjects : List (String × Subject))
    (answers : List (String × Answer)) :
    (ofAnswers subjects answers).filterMap measurement? = [] := by
  unfold ofAnswers
  rw [List.filterMap_map]
  exact List.filterMap_eq_nil_iff.mpr fun _ _ => rfl

theorem measurement?_ofEvents (events : List Event) :
    (ofEvents events).filterMap measurement? = Event.measurements events := by
  unfold ofEvents
  rw [List.filterMap_map]
  exact List.filterMap_some

theorem measurement?_ofChange (before after : Registry) :
    (ofChange before after).filterMap measurement? = [] := by
  refine List.filterMap_eq_nil_iff.mpr fun s hs => ?_
  obtain ⟨b, rfl⟩ := eq_breaker_of_mem_ofChange hs
  rfl

end Seen

/-! ## The start -/

theorem Registry.quiet_ofServices [Idna] (services : List (String × String))
    (settings : Breaker.Settings)
    (now : Moment) : Event.Quiet (ofServices services settings now).2 := by
  have hadd (r : Registry) (service base : String) :
      Event.Quiet (r.add settings now service base).2 := by
    unfold add Event.Quiet
    dsimp only
    split_ifs <;> simp [Breaker.gauge, Measurement.isGauge]
  have h : ∀ x : Registry × List Event, Event.Quiet x.2 →
      Event.Quiet (services.foldl (fun (x : Registry × List Event) s =>
        ((x.1.add settings now s.1 s.2).1, x.2 ++ (x.1.add settings now s.1 s.2).2)) x).2 := by
    induction services with
    | nil => exact fun _ hx => hx
    | cons s services ih => exact fun x hx => ih _ (hx.append (hadd x.1 s.1 s.2))
  have hnone : Event.Quiet [] := Event.quiet_of_measurements_eq_nil rfl
  exact (h (⟨[], []⟩, []) hnone).append (Event.quiet_of_measurements_eq_nil rfl)

theorem Gateway.quiet_ofConfig [Idna] {α : Type} [TokenArithmetic α] (c : Config) (now : Moment) :
    Event.Quiet (ofConfig (α := α) c now).2 := by
  refine Event.Quiet.append ?_ (Registry.quiet_ofServices _ _ now)
  refine Event.quiet_of_measurements_eq_nil ?_
  show Event.measurements (Table.ofConfig c.routes c.services).2 = []
  unfold Table.ofConfig
  dsimp only
  rw [Event.measurements_append]
  refine List.append_eq_nil_iff.mpr ⟨?_, rfl⟩
  unfold Event.measurements
  rw [List.filterMap_filterMap, List.filterMap_eq_nil_iff]
  rintro (n | route) -
  · rfl
  · rfl

/-! ## Time -/

namespace Server

variable {α : Type}

theorem quiet_sweep (s : Server α) (now : Moment) : Event.Quiet (s.sweep now).2 := by
  unfold sweep
  cases s.sweeper with
  | none => exact nofun
  | some sweeper =>
    dsimp only
    unfold Sweeper.wake Limiter.sweep Event.Quiet
    dsimp only
    split_ifs <;> simp [Measurement.isGauge]

theorem quiet_rest (s : Server α) : Event.Quiet s.rest.2 := by
  refine Event.quiet_of_measurements_eq_nil ?_
  unfold rest
  split_ifs
  · dsimp only
    split_ifs <;> rfl
  · rfl

theorem balanced_wake (s : Server α) (now : Moment)
    (h : ∀ c ∈ s.gateway.calls, c.inbound.isSome = true) :
    Balanced ((s.wake now).1.map Prod.snd) (Event.measurements (s.wake now).2.2) := by
  have hwake := s.gateway.balanced_wake now h
  unfold wake
  dsimp only
  rw [Event.measurements_append, Event.measurements_append]
  have hquiet := (quiet_sweep { s with gateway := (s.gateway.wake now).2.1 } now).balanced
  have hrest := (quiet_rest ({ s with gateway := (s.gateway.wake now).2.1 }.sweep now).1).balanced
  simpa using (hwake.append hquiet).append hrest

end Server

namespace World

variable {α : Type}

def measurements (w : World α) : List Measurement := w.seen.filterMap Seen.measurement?

theorem measurements_next (w : World α) (s : Server α) (told : List Seen) (events : List Event) :
    (w.next s told events).measurements =
      w.measurements ++ (told.filterMap Seen.measurement? ++ Event.measurements events) := by
  unfold World.measurements next
  dsimp only
  rw [List.filterMap_append, List.filterMap_append, List.filterMap_append,
    Seen.measurement?_ofEvents, Seen.measurement?_ofChange, List.append_nil]

theorem measurements_nextGateway_nil (w : World α) (g : Gateway α) :
    (w.nextGateway g [] []).measurements = w.measurements :=
  (measurements_next w _ [] []).trans (List.append_nil _)

/-- All that has been told and measured so far agrees. -/
def Even (w : World α) : Prop := Balanced (w.told.map Prod.snd) w.measurements

theorem Even.next {w : World α} (h : w.Even) {s : Server α} {told : List Seen} {events : List Event}
    (htold : told.filterMap Seen.measurement? = [])
    (hnew : Balanced ((told.filterMap Seen.answer?).map Prod.snd) (Event.measurements events)) :
    (w.next s told events).Even := by
  unfold Even
  rw [told_next, measurements_next, htold, List.nil_append, List.map_append]
  exact h.append hnew

theorem Sound.isSome_inbound {w : World α} (h : w.Sound) :
    ∀ c ∈ w.gateway.calls, c.inbound.isSome = true := by
  intro c hc
  obtain ⟨i, hi, -⟩ := (h.gateway.owned c hc).inbound
  rw [hi]
  rfl

theorem map_snd_named (id : String) (answers : List Answer) :
    (answers.map fun a => (id, a)).map Prod.snd = answers := by
  rw [List.map_map]
  exact List.map_id answers

variable [TokenArithmetic α]

/-- Every step measures what it tells: each operation of the gateway balances, so that what it adds to
both sides agrees. -/
theorem Even.step {w : World α} (h : w.Even) (hsound : w.Sound) (x : Step) : (w.step x).Even := by
  cases x with
  | request id fresh r =>
    cases hid : w.subjects.lookup id with
    | some subject =>
      rw [step_request_used (by rw [hid]; rfl)]
      exact h
    | none =>
      have harrive := Gateway.balances_arrive w.now id r hsound.gateway.own fresh
      rw [step_request hid]
      refine Even.next (w := { w with subjects := _ :: w.subjects }) h
        (Seen.measurement?_ofArrival ..) ?_
      rw [Seen.answer?_ofArrival, map_snd_named]
      exact harrive
  | respond service id backend =>
    by_cases hid : w.subjects.lookup id = some (.service service)
    · have hrespond := w.gateway.balanced_respond w.now hsound.isSome_inbound id backend
      rw [step_respond hid]
      refine h.next (Seen.measurement?_ofAnswers ..) ?_
      rw [Seen.answer?_ofAnswers, map_snd_named]
      exact hrespond
    · rw [step_respond_apart hid]
      exact h
  | cancel id => exact h.next rfl (.of_gauges nofun)
  | advance span =>
    have hwake := w.server.balanced_wake (w.now + span) hsound.isSome_inbound
    rw [step_advance]
    refine Even.next (w := { w with now := w.now + span }) h (Seen.measurement?_ofAnswers ..) ?_
    rw [Seen.answer?_ofAnswers]
    exact hwake
  | sweep =>
    rw [step_sweep]
    refine h.next rfl (.of_gauges ?_)
    simp [Limiter.sweep, Measurement.isGauge]

theorem even_foldl {w : World α} (h : w.Even) (hsound : w.Sound) (steps : List Step) :
    (steps.foldl step w).Even := by
  induction steps generalizing w with
  | nil => exact h
  | cons x steps ih => exact ih (h.step hsound x) (sound_step w x hsound)

theorem balanced_run [Idna] {c : Config} (hd : c.DistinctOrigins) (start : Moment)
    (steps : List Step) : Balanced ((run (α := α) c start steps).told.map Prod.snd)
      (run (α := α) c start steps).measurements :=
  even_foldl (w := begin c start) (.of_gauges nofun) (sound_begin hd start) steps

end World

/-! ## Refusals of the limiter -/

namespace Gateway

variable {α : Type} [TokenArithmetic α]

/-- The limiter turns a request away. -/
structure Refuses (g : Gateway α) (now : Moment) (r : Request) : Prop where
  hasTime : g.HasTime now
  limited : g.Limited r
  refused : (g.limiter.attempt r.client now).1 = false

instance (g : Gateway α) (now : Moment) (r : Request) : Decidable (g.Refuses now r) :=
  decidable_of_iff (isDue (g.timeout now) now = false ∧ (g.config.rateLimit.enabled = true ∧
      (g.resource r).isAdmin = false) ∧ (g.limiter.attempt r.client now).1 = false)
    ⟨fun ⟨htime, ⟨hon, hadmin⟩, h⟩ => ⟨htime, ⟨hon, hadmin⟩, h⟩,
      fun ⟨htime, ⟨hon, hadmin⟩, h⟩ => ⟨htime, ⟨hon, hadmin⟩, h⟩⟩

theorem countP_limited_arrive (g : Gateway α) (now : Moment) (id : String) (fresh : Bytes)
    (r : Request) :
    (g.arrive now id fresh r).1.answer?.toList.countP (·.outcome = some .rateLimited) =
      if g.Refuses now r then 1 else 0 := by
  have hiff : (∃ a, (g.arrive now id fresh r).1 = .answered a ∧ IsLimited a) ↔ g.Refuses now r :=
    (isLimited_arrive_iff id fresh).trans
      ⟨fun h => ⟨h.1, h.2.1, h.2.2⟩, fun h => ⟨h.hasTime, h.limited, h.refused⟩⟩
  generalize (g.arrive now id fresh r).1 = arrival at hiff ⊢
  cases arrival with
  | sent request =>
    rw [if_neg fun h => by obtain ⟨a, ha, -⟩ := hiff.mpr h; cases ha]
    rfl
  | answered a =>
    rw [Arrival.answer?, Option.toList_some, List.countP_singleton]
    refine if_congr (decide_eq_true_iff.trans (Iff.trans ?_ hiff)) rfl rfl
    constructor
    · exact fun ha => ⟨a, rfl, ha⟩
    · rintro ⟨b, hb, h⟩
      obtain rfl := Arrival.answered.inj hb
      exact h

end Gateway

namespace World

variable {α : Type} [TokenArithmetic α]

/-- The limiter turns away the request that comes in, under a name that has not been used. -/
def Refuses (w : World α) : Step → Prop
  | .request id _ r => w.subjects.lookup id = none ∧ w.gateway.Refuses w.now r
  | _ => False

instance (w : World α) (x : Step) : Decidable (w.Refuses x) :=
  match x with
  | .request id _ r =>
    inferInstanceAs (Decidable (w.subjects.lookup id = none ∧ w.gateway.Refuses w.now r))
  | .respond .. | .cancel _ | .advance _ | .sweep => instDecidableFalse

def refusals (w : World α) : List Step → Nat
  | [] => 0
  | x :: steps => (if w.Refuses x then 1 else 0) + (w.step x).refusals steps

def limitedCount (w : World α) : Nat := w.told.countP (·.2.outcome = some .rateLimited)

omit [TokenArithmetic α] in
theorem limitedCount_of_told {w w' : World α} {more : List (String × Answer)}
    (h : w'.told = w.told ++ more) (hmore : ∀ e ∈ more, ¬ Gateway.IsLimited e.2) :
    w'.limitedCount = w.limitedCount := by
  have hnone : more.countP (·.2.outcome = some .rateLimited) = 0 := by
    rw [List.countP_eq_zero]
    intro e he hlimited
    have houtcome : e.2.outcome = some .rateLimited := of_decide_eq_true hlimited
    exact hmore e he houtcome
  unfold limitedCount
  rw [h, List.countP_append, hnone, Nat.add_zero]

theorem limitedCount_step (w : World α) (x : Step) :
    (w.step x).limitedCount = w.limitedCount + if w.Refuses x then 1 else 0 := by
  have hstill (h : ¬ w.Refuses x) (hcount : (w.step x).limitedCount = w.limitedCount) :
      (w.step x).limitedCount = w.limitedCount + if w.Refuses x then 1 else 0 := by
    rw [if_neg h, hcount, Nat.add_zero]
  cases x with
  | request id fresh r =>
    cases hid : w.subjects.lookup id with
    | some subject =>
      refine hstill (fun h => ?_) ?_
      · rw [h.1] at hid
        cases hid
      · rw [step_request_used (by rw [hid]; rfl)]
    | none =>
      have hcount := w.gateway.countP_limited_arrive w.now id fresh r
      have hrefuses : w.Refuses (.request id fresh r) ↔ w.gateway.Refuses w.now r :=
        and_iff_right hid
      unfold limitedCount
      rw [told_request hid, List.countP_append, List.countP_map, if_congr hrefuses rfl rfl]
      exact congrArg _ hcount
  | respond service id backend =>
    refine hstill not_false ?_
    by_cases hid : w.subjects.lookup id = some (.service service)
    · refine limitedCount_of_told (told_respond hid backend) fun e he => ?_
      obtain ⟨a, ha, rfl⟩ := List.mem_map.mp he
      exact w.gateway.not_isLimited_respond w.now id backend a ha
    · rw [step_respond_apart hid]
  | cancel id =>
    exact hstill not_false (congrArg (List.countP _) (told_cancel w id))
  | advance span =>
    refine hstill not_false ?_
    exact limitedCount_of_told (told_advance w span) (w.gateway.not_isLimited_wake (w.now + span))
  | sweep => exact hstill not_false (congrArg (List.countP _) (told_sweep w))

theorem limitedCount_foldl (w : World α) (steps : List Step) :
    (steps.foldl step w).limitedCount = w.limitedCount + w.refusals steps := by
  induction steps generalizing w with
  | nil => rfl
  | cons x steps ih =>
    rw [List.foldl_cons, ih, limitedCount_step, refusals, Nat.add_assoc]

/-! ## Callers that go away -/

theorem answersTo_of_cancel {c : Config} {w : World α} (h : Orderly c w) {id : String}
    (hid : (w.subjects.lookup id).isSome = true) (hnone : w.answersTo id = []) (after : List Step) :
    ((.cancel id :: after).foldl step w).answersTo id = [] := by
  rw [(fares_run h hid (.cancel id :: after)).answers, hnone]
  cases hk : w.gateway.call? id with
  | none => rfl
  | some k =>
    simp [fate_cons, meets_cancel, (Gateway.of_call? hk).1, Fate.isUnderWay, Fate.answers]

end World

/-! ## The sums -/

namespace Metrics

variable (ms : List Measurement)

theorem total_outcome (label : String) :
    total requestsTotal (carries "outcome" label) (ofMeasurements ms) =
      (ms.filterMap Measurement.mark?).countP (·.2 = label) := by
  rw [total_requests, List.countP_filterMap]
  refine List.countP_congr fun x _ => ?_
  cases x with
  | request method status service outcome duration =>
    simp [Measurement.requestLabels?, Measurement.mark?, carries_cons]
  | rateLimited => rfl
  | clients count => rfl
  | circuit service state => rfl
  | circuitRefusal service => rfl

theorem total_open (service : String) :
    total requestsTotal (fun labels => carries "service" service labels &&
        carries "outcome" Outcome.openLabel labels) (ofMeasurements ms) =
      (ms.filterMap Measurement.openService?).countP (· = service) := by
  rw [total_requests, List.countP_filterMap]
  refine List.countP_congr fun x _ => ?_
  cases x with
  | request method status name outcome duration =>
    by_cases hopen : outcome = Outcome.openLabel
    · simp [Measurement.requestLabels?, Measurement.openService?, carries_cons, hopen]
    · simp [Measurement.requestLabels?, Measurement.openService?, carries_cons, hopen]
  | rateLimited => rfl
  | clients count => rfl
  | circuit service state => rfl
  | circuitRefusal service => rfl

/-- Every request that is counted is timed. -/
theorem samples_eq_total (method service : String) :
    samples requestDuration (fun labels => carries "method" method labels &&
        carries "service" service labels) (ofMeasurements ms) =
      total requestsTotal (fun labels => carries "method" method labels &&
        carries "service" service labels) (ofMeasurements ms) := by
  rw [total_requests, samples_ofMeasurements]
  refine List.countP_congr fun x _ => ?_
  cases x with
  | request name status s outcome duration =>
    simp [Measurement.requestLabels?, Measurement.durationLabels?, carries_cons]
  | rateLimited => rfl
  | clients count => rfl
  | circuit service state => rfl
  | circuitRefusal service => rfl

theorem total_rateLimited :
    total rateLimitedTotal (fun _ => true) (ofMeasurements ms) = ms.countP (· = .rateLimited) := by
  rw [total_ofMeasurements _ (by decide)]
  refine List.countP_congr fun x _ => ?_
  cases x with
  | request method status service outcome duration =>
    have hname : requestsTotal ≠ rateLimitedTotal := by decide
    simp [Measurement.counter?, Measurement.requestLabels?, hname]
  | rateLimited => simp [Measurement.counter?]
  | clients count => simp [Measurement.counter?, Measurement.requestLabels?]
  | circuit service state => simp [Measurement.counter?, Measurement.requestLabels?]
  | circuitRefusal service =>
    have hname : circuitRefusals ≠ rateLimitedTotal := by decide
    simp [Measurement.counter?, hname]

theorem total_circuitRefusals (service : String) :
    total circuitRefusals (carries "service" service) (ofMeasurements ms) =
      (ms.filterMap Measurement.refusedService?).countP (· = service) := by
  rw [total_ofMeasurements _ (by decide), List.countP_filterMap]
  refine List.countP_congr fun x _ => ?_
  cases x with
  | request method status name outcome duration =>
    have hname : requestsTotal ≠ circuitRefusals := by decide
    simp [Measurement.counter?, Measurement.requestLabels?, Measurement.refusedService?, hname]
  | rateLimited =>
    have hname : rateLimitedTotal ≠ circuitRefusals := by decide
    simp [Measurement.counter?, Measurement.refusedService?, hname]
  | clients count => exact iff_of_false Bool.false_ne_true Bool.false_ne_true
  | circuit service state => exact iff_of_false Bool.false_ne_true Bool.false_ne_true
  | circuitRefusal name =>
    simp [Measurement.counter?, Measurement.refusedService?, carries_cons]

end Metrics

theorem Answer.countP_mark? {label : String} (h : label ≠ Outcome.rateLimited.label)
    (answers : List Answer) :
    (answers.filterMap Answer.mark?).countP (·.2 = label) =
      answers.countP fun a => a.outcome.any (·.label = label) := by
  rw [List.countP_filterMap]
  refine List.countP_congr fun a _ => ?_
  unfold Answer.mark?
  cases a.outcome with
  | none => rfl
  | some o =>
    by_cases ho : o = .rateLimited
    · simp [Option.filter_some, ho, h.symm]
    · simp [Option.filter_some, ho]

namespace World

variable (α : Type) [TokenArithmetic α] (c : Config) (start : Moment) (steps : List Step)

/-- What happens when a gateway is built and begins to run. -/
def startUp [Idna] : List Event :=
  (Gateway.ofConfig (α := α) c start).2 ++
    (Server.start (Gateway.ofConfig (α := α) c start).1 start).2

def recorded [Idna] : List Measurement :=
  Event.measurements (startUp α c start) ++ (run (α := α) c start steps).measurements

def metrics [Idna] : Metrics :=
  (run (α := α) c start steps).measurements.foldl Metrics.record (.ofEvents (startUp α c start))

theorem metrics_eq [Idna] : metrics α c start steps = .ofMeasurements (recorded α c start steps) :=
  List.foldl_append.symm

theorem quiet_startUp [Idna] : Event.Quiet (startUp α c start) := by
  refine (Gateway.quiet_ofConfig c start).append (Event.quiet_of_measurements_eq_nil ?_)
  unfold Server.start
  dsimp only
  split_ifs
  · rfl
  · rfl
  · rfl

/-- The metrics of a run agree with what has happened in it, and with each other. -/
structure Reconciled [Idna] : Prop where
  /-- For each outcome there are as many requests as answers. The requests that the limiter turns away
  have a counter of their own. -/
  outcomes : ∀ label, label ≠ Outcome.rateLimited.label →
    (metrics α c start steps).total Metrics.requestsTotal (Metrics.carries "outcome" label) =
      (run (α := α) c start steps).told.countP fun e => e.2.outcome.any (·.label = label)
  /-- They are the same ones, in the same order. -/
  marks : (recorded α c start steps).filterMap Measurement.mark? =
    (run (α := α) c start steps).told.filterMap fun e => e.2.mark?
  /-- Nothing is counted when a caller goes away. If it does so before it has an answer, it gets none,
  and so its request is not counted at all. -/
  cancelled : ∀ (id : String) (before after : List Step), steps = before ++ .cancel id :: after →
    recorded α c start (before ++ [.cancel id]) = recorded α c start before ∧
      (((run (α := α) c start before).subjects.lookup id).isSome = true →
        (run (α := α) c start before).answersTo id = [] →
        (run (α := α) c start steps).answersTo id = [])
  /-- A request that the gateway itself runs out of time for is not counted. A backend may give that
  answer as any other. -/
  timedOut : ∀ e ∈ (run (α := α) c start steps).told, e.2.response.status = .requestTimeout →
    e.2.mark? = none ∨ e.2.outcome = some (.backendSuccess .requestTimeout)
  limited : (metrics α c start steps).total Metrics.rateLimitedTotal (fun _ => true) =
    (begin (α := α) c start).refusals steps
  durations : ∀ method service,
    (metrics α c start steps).samples Metrics.requestDuration (fun labels =>
        Metrics.carries "method" method labels && Metrics.carries "service" service labels) =
      (metrics α c start steps).total Metrics.requestsTotal fun labels =>
        Metrics.carries "method" method labels && Metrics.carries "service" service labels
  refusals : ∀ service,
    (metrics α c start steps).total Metrics.circuitRefusals (Metrics.carries "service" service) =
      (metrics α c start steps).total Metrics.requestsTotal fun labels =>
        Metrics.carries "service" service labels && Metrics.carries "outcome" Outcome.openLabel labels

/-- **Metrics reconcile with what happened** in every run from a configuration without two services at
one place. -/
theorem reconciled [Idna] (hd : c.DistinctOrigins) : Reconciled α c start steps := by
  -- what is measured at the start counts nothing, what is measured after it counts the answers
  have hbalanced : Balanced ((run (α := α) c start steps).told.map Prod.snd)
      (recorded α c start steps) :=
    (quiet_startUp α c start).balanced.append (balanced_run hd start steps)
  exact {
    outcomes label hlabel := by
      rw [metrics_eq, Metrics.total_outcome, hbalanced.marks, Answer.countP_mark? hlabel, List.countP_map]
      rfl
    marks := by
      rw [hbalanced.marks, List.filterMap_map]
      rfl
    cancelled id before after hsteps := by
      refine ⟨?_, fun hid hnone => ?_⟩
      · have hrun : run (α := α) c start (before ++ [.cancel id]) =
            (run c start before).step (.cancel id) := List.foldl_append
        unfold recorded
        rw [hrun]
        exact congrArg _ (measurements_nextGateway_nil _ _)
      · have hrun : run (α := α) c start steps =
            (.cancel id :: after).foldl step (run c start before) := by
          rw [hsteps]
          exact List.foldl_append
        rw [hrun]
        exact answersTo_of_cancel (orderly_run c start before) hid hnone after
    timedOut e he hstatus := by
      rcases hbalanced.timedOut e.2 (List.mem_map_of_mem he) hstatus with h | h
      · refine .inl ?_
        unfold Answer.mark?
        rw [h]
        rfl
      · exact .inr h
    limited := by
      have hcount := limitedCount_foldl (begin (α := α) c start) steps
      have hnone : (begin (α := α) c start).limitedCount = 0 := rfl
      rw [hnone, Nat.zero_add] at hcount
      rw [metrics_eq, Metrics.total_rateLimited, hbalanced.limited, List.countP_map]
      exact hcount
    durations method service := by
      rw [metrics_eq, Metrics.samples_eq_total]
    refusals service := by
      rw [metrics_eq, Metrics.total_circuitRefusals, Metrics.total_open, hbalanced.refusals] }

/-! Two services whose circuits open at the first failure, and a client that may ask four times. -/

def fourVisits : Config :=
  { twoServices with rateLimit := ⟨true, 4, .ofRatio false 0 1, 600, 300⟩ }

/-- The first service breaks off and is asked again, a caller of the second one goes away, a path leads
nowhere, and then the client has asked too often. -/
def busyDay : List Step :=
  let visit (id path : String) : Step :=
    .request id [] ⟨.get, ⟨none, none, path.toList, none⟩, [], [], none, none⟩
  [visit "1" "/a", .respond "a" "1" .breaksOff, visit "2" "/a", visit "3" "/b", .cancel "3",
    visit "4" "/c", visit "5" "/b"]

theorem reconciled_busyDay :
    fourVisits.DistinctOrigins ∧ Reconciled Rat fourVisits 0 busyDay ∧
      (["transport_failure", Outcome.openLabel, "route_not_found"].map fun label =>
        (metrics Rat fourVisits 0 busyDay).total Metrics.requestsTotal
          (Metrics.carries "outcome" label)) = [1, 1, 1] ∧
      (metrics Rat fourVisits 0 busyDay).total Metrics.rateLimitedTotal (fun _ => true) = 1 := by
  have hd : fourVisits.DistinctOrigins := by decide +kernel
  refine ⟨hd, reconciled Rat fourVisits 0 busyDay hd, ?_⟩
  unfold metrics startUp run begin Gateway.ofConfig
  rw [Routing.Table.ofConfig_of_pairwise (by decide +kernel)]
  decide +kernel

end World

end Gatehouse
