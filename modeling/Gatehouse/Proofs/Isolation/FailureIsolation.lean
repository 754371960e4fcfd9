import Gatehouse.Proofs.Isolation.Sound
import Gatehouse.Proofs.StableSort

/-!
# Failures stay with their service

Two runs of a gateway that differ only in what the backend of one service does are the same for
everyone who has nothing to do with that service: for the other services, their callers and their
breakers, and for the limiter.

* `Gateway.Near.wake` : timers that run out on both sides;
* `World.Sound`, `World.Near` : the invariant of a run, and what two runs have in common;
* `World.sound_step`, `World.near_hidden`, `World.near_step` : every step keeps them;
* `World.failureIsolation` : so they hold after any two such runs.
-/

namespace Gatehouse

open Gatehouse.Http Gatehouse.Routing Gatehouse.Text

namespace Gateway

variable {α : Type}

/-! ## Timers -/

/-- The answers, the gateway and the events so far, when the clock has moved to `now` and one more
call has run out of time. -/
def expireNext (now : Moment) (x : List (String × Answer) × Gateway α × List Event) (call : Call) :
    List (String × Answer) × Gateway α × List Event :=
  (x.1 ++ [(call.id, (x.2.1.expire now call).1)], (x.2.1.expire now call).2.1,
    x.2.2 ++ (x.2.1.expire now call).2.2)

theorem wake_eq (g : Gateway α) (now : Moment) :
    g.wake now = (g.dueCalls now).foldl (expireNext now) ([], g, []) := rfl

/-- Apart from one service, the same has been told and done on both sides. -/
structure NearTold (service : String) (subjects : List (String × Subject))
    (x y : List (String × Answer) × Gateway α × List Event) : Prop where
  answers : Seen.Alike service (Seen.ofAnswers subjects x.1) (Seen.ofAnswers subjects y.1)
  gateway : Near service x.2.1 y.2.1
  events : Seen.Alike service (Seen.ofEvents x.2.2) (Seen.ofEvents y.2.2)

theorem unwinding_expireNext (service : String) (subjects : List (String × Subject)) (now : Moment) :
    Unwinding (expireNext (α := α) now) (fun c => decide (c.forward.service = service))
      (fun c => c.Owned subjects) (fun x => Sound subjects x.2.1) (NearTold service subjects) where
  equivalence := {
    refl x := ⟨rfl, .refl service _, rfl⟩
    symm h := ⟨h.answers.symm, h.gateway.symm, h.events.symm⟩
    trans h h' := ⟨h.answers.trans h'.answers, h.gateway.trans h'.gateway, h.events.trans h'.events⟩ }
  sound_step x call _ hx := hx.of_keeps_none (x.2.1.keeps_expire now call)
  near_hidden x call hc hs hx := by
    have hs : call.forward.service = service := of_decide_eq_true hs
    obtain ⟨hnear, hlabel⟩ := near_expire now hx.owned hc
    rw [hs] at hnear hlabel
    have ha := Seen.alike_ofAnswers_nil (hs ▸ hc.subject) (x.2.1.expire now call).1
    have he := Seen.alike_ofEvents_nil hlabel
    unfold expireNext
    refine ⟨?_, hnear, ?_⟩
    · rw [Seen.ofAnswers_append]
      exact Seen.alike_append_of_nil ha _
    · rw [Seen.ofEvents_append]
      exact Seen.alike_append_of_nil he _
  near_step x y call hc hn hx hy h := by
    have hn : call.forward.service ≠ service := of_decide_eq_false hn
    obtain ⟨ha, hnear, he⟩ := h.gateway.expire now hn
    unfold expireNext
    rw [ha, he]
    refine ⟨?_, hnear, ?_⟩
    · rw [Seen.ofAnswers_append, Seen.ofAnswers_append]
      exact h.answers.append (.of_eq rfl)
    · rw [Seen.ofEvents_append, Seen.ofEvents_append]
      exact h.events.append (.of_eq rfl)

theorem Near.dueCalls {service : String} {g₁ g₂ : Gateway α} (h : Near service g₁ g₂) (now : Moment) :
    ((g₁.dueCalls now).filter fun c => !decide (c.forward.service = service)) =
      (g₂.dueCalls now).filter fun c => !decide (c.forward.service = service) := by
  have trans : ∀ a b c : Call, decide (Call.firstDeadline a ≤ Call.firstDeadline b) = true →
      decide (Call.firstDeadline b ≤ Call.firstDeadline c) = true →
      decide (Call.firstDeadline a ≤ Call.firstDeadline c) = true := by
    intro a b c hab hbc
    exact decide_eq_true (Nat.le_trans (of_decide_eq_true hab) (of_decide_eq_true hbc))
  have total : ∀ a b : Call, (decide (Call.firstDeadline a ≤ Call.firstDeadline b) ||
      decide (Call.firstDeadline b ≤ Call.firstDeadline a)) = true := by
    intro a b
    rcases Nat.le_total (Call.firstDeadline a) (Call.firstDeadline b) with hab | hba
    · rw [decide_eq_true hab, Bool.true_or]
    · rw [decide_eq_true hba, Bool.or_true]
  have hcalls := h.calls
  unfold Gateway.dueCalls
  rw [filter_mergeSort trans total, filter_mergeSort trans total, List.filter_comm,
    List.filter_comm (l := g₂.calls)]
  simp only [ne_eq, decide_not] at hcalls
  rw [hcalls]

theorem Sound.owned_dueCalls {subjects : List (String × Subject)} {g : Gateway α}
    (h : Sound subjects g) (now : Moment) : ∀ c ∈ g.dueCalls now, c.Owned subjects := by
  intro c hc
  exact h.owned c (List.mem_of_mem_filter (List.mem_mergeSort.mp hc))

theorem Sound.wake {subjects : List (String × Subject)} {g : Gateway α} (h : Sound subjects g)
    (now : Moment) : Sound subjects (g.wake now).2.1 := by
  rw [wake_eq]
  exact (unwinding_expireNext "" subjects now).sound_foldl _ (h.owned_dueCalls now) h

theorem Near.wake {service : String} {subjects : List (String × Subject)} {g₁ g₂ : Gateway α}
    (h : Near service g₁ g₂) (h₁ : Sound subjects g₁) (h₂ : Sound subjects g₂) (now : Moment) :
    NearTold service subjects (g₁.wake now) (g₂.wake now) := by
  rw [wake_eq, wake_eq]
  exact (unwinding_expireNext service subjects now).foldl_near (h₁.owned_dueCalls now)
    (h₂.owned_dueCalls now) (h.dueCalls now) h₁ h₂ ⟨rfl, h, rfl⟩

end Gateway

/-! ## A server that is not told to stop -/

/-- The run goes on: there has been no signal to stop. -/
structure Runner.Running (r : Runner) : Prop where
  phase : r.phase = .serving
  notReleased : r.released r.since = false

namespace Server

variable {α : Type}

theorem rest_of_running {s : Server α} (h : s.runner.Running) : s.rest = (s, []) := by
  have hlook : s.runner.step .look = s.runner := by
    refine if_neg ?_
    rintro ⟨-, hr⟩
    rw [h.notReleased] at hr
    cases hr
  have hjoin : s.runner.step .join = s.runner := by
    refine if_neg ?_
    rintro ⟨hp, -⟩
    rw [h.phase] at hp
    cases hp
  have hstopped : ¬ s.runner.phase = .stopped := by
    rw [h.phase]
    exact nofun
  unfold rest
  rw [hlook, hjoin]
  dsimp only
  rw [if_neg hstopped]
  split
  · rfl
  · rfl

theorem keeps_sweep (s : Server α) (now : Moment) :
    (s.sweep now).1.runner = s.runner ∧
      Gateway.Keeps (fun _ => False) s.gateway (s.sweep now).1.gateway := by
  unfold sweep
  split
  · exact ⟨rfl, s.gateway.keeps_limiter _⟩
  · exact ⟨rfl, s.gateway.keeps_self⟩

theorem near_sweep {service : String} (s₁ s₂ : Server α) (hs : s₁.sweeper = s₂.sweeper)
    (hg : s₁.gateway.Near service s₂.gateway) (now : Moment) :
    (s₁.sweep now).1.sweeper = (s₂.sweep now).1.sweeper ∧
      (s₁.sweep now).1.gateway.Near service (s₂.sweep now).1.gateway ∧
      (s₁.sweep now).2 = (s₂.sweep now).2 := by
  have hlimiter := hg.limiter
  unfold sweep
  rw [hs]
  cases s₂.sweeper with
  | none => exact ⟨hs, hg, rfl⟩
  | some sweeper =>
    dsimp only
    rw [hlimiter]
    exact ⟨rfl, hg.setLimiter rfl, rfl⟩

theorem wake_of_running {s : Server α} (h : s.runner.Running) (now : Moment) :
    s.wake now = ((s.gateway.wake now).1,
      ({ s with gateway := (s.gateway.wake now).2.1 }.sweep now).1,
      (s.gateway.wake now).2.2 ++ ({ s with gateway := (s.gateway.wake now).2.1 }.sweep now).2) := by
  have hrunner := (keeps_sweep { s with gateway := (s.gateway.wake now).2.1 } now).1
  unfold wake
  dsimp only
  rw [rest_of_running (by rw [hrunner]; exact h), List.append_nil]

end Server

namespace World

variable {α : Type}

/-! ## What a run keeps -/

/-- What every run keeps: it goes on, every route has its own breaker, and it is known where the
calls under way go. -/
structure Sound (w : World α) : Prop where
  gateway : w.gateway.Sound w.subjects
  running : w.server.runner.Running

/-- What two runs have in common for everyone who has nothing to do with `service`: the time, the
routes, the limiter and its sweeper, the other breakers, the calls to the other services, and all
that is seen of the rest. -/
structure Near (service : String) (w₁ w₂ : World α) : Prop where
  now : w₁.now = w₂.now
  subjects : w₁.subjects = w₂.subjects
  sweeper : w₁.server.sweeper = w₂.server.sweeper
  runner : w₁.server.runner = w₂.server.runner
  gateway : w₁.gateway.Near service w₂.gateway
  seen : Seen.Alike service w₁.seen w₂.seen

theorem equivalence_near (service : String) : Equivalence (Near (α := α) service) where
  refl _ := ⟨rfl, rfl, rfl, rfl, .refl service _, rfl⟩
  symm h := ⟨h.now.symm, h.subjects.symm, h.sweeper.symm, h.runner.symm, h.gateway.symm, h.seen.symm⟩
  trans h h' := ⟨h.now.trans h'.now, h.subjects.trans h'.subjects, h.sweeper.trans h'.sweeper,
    h.runner.trans h'.runner, h.gateway.trans h'.gateway, h.seen.trans h'.seen⟩

theorem sound_next {w : World α} {s : Server α} (hg : s.gateway.Sound w.subjects)
    (hr : s.runner.Running) (told : List Seen) (events : List Event) :
    Sound (w.next s told events) := ⟨hg, hr⟩

theorem sound_nextGateway {w : World α} {g : Gateway α} (hg : g.Sound w.subjects)
    (hr : w.server.runner.Running) (told : List Seen) (events : List Event) :
    Sound (w.nextGateway g told events) := ⟨hg, hr⟩

section Next
variable {service : String} {w₁ w₂ : World α} {g₁ g₂ : Gateway α} {told told₁ told₂ : List Seen}
  {events events₁ events₂ : List Event}

theorem Near.next (h : Near service w₁ w₂) {s₁ s₂ : Server α} (hs : s₁.sweeper = s₂.sweeper)
    (hr : s₁.runner = s₂.runner) (hg : s₁.gateway.Near service s₂.gateway)
    (ht : Seen.Alike service told₁ told₂)
    (he : Seen.Alike service (Seen.ofEvents events₁) (Seen.ofEvents events₂)) :
    Near service (w₁.next s₁ told₁ events₁) (w₂.next s₂ told₂ events₂) :=
  ⟨h.now, h.subjects, hs, hr, hg, h.seen.append ((ht.append he).append
    (Seen.alike_ofChange h.gateway.dispatcher.registry hg.dispatcher.registry))⟩

theorem Near.nextGateway (h : Near service w₁ w₂) (hg : g₁.Near service g₂)
    (ht : Seen.Alike service told₁ told₂)
    (he : Seen.Alike service (Seen.ofEvents events₁) (Seen.ofEvents events₂)) :
    Near service (w₁.nextGateway g₁ told₁ events₁) (w₂.nextGateway g₂ told₂ events₂) :=
  h.next h.sweeper h.runner hg ht he

/-- Something happens that has to do with the service only. -/
theorem near_nextGateway {w : World α} {g : Gateway α} (hg : g.Near service w.gateway) (ht : Seen.Alike service told [])
    (he : Event.Labelled service events) : Near service (w.nextGateway g told events) w := by
  refine ⟨rfl, rfl, rfl, rfl, hg, ?_⟩
  refine Seen.alike_append_of_nil ?_ w.seen
  exact (ht.append (Seen.alike_ofEvents_nil he)).append (Seen.alike_ofChange_nil hg.dispatcher.registry)

end Next

/-! ## One step -/

variable [TokenArithmetic α]

theorem step_request_used {w : World α} {id : String} (hid : (w.subjects.lookup id).isSome = true)
    (fresh : Bytes) (r : Request) : w.step (.request id fresh r) = w := by
  rw [step, if_pos hid]

theorem step_request {w : World α} {id : String} (hid : w.subjects.lookup id = none) (fresh : Bytes)
    (r : Request) :
    w.step (.request id fresh r) =
      { w with subjects := (id, w.gateway.subject (r.named fresh)) :: w.subjects }.nextGateway
        (w.gateway.arrive w.now id fresh r).2.1
        [.ofArrival id (w.gateway.subject (r.named fresh)) (w.gateway.arrive w.now id fresh r).1]
        (w.gateway.arrive w.now id fresh r).2.2 := by
  have hnew : ¬ (w.subjects.lookup id).isSome = true := by
    rw [hid]
    exact nofun
  rw [step]
  generalize w.gateway.arrive w.now id fresh r = x
  obtain ⟨arrival, g, events⟩ := x
  exact if_neg hnew

theorem step_respond {w : World α} {service id : String}
    (hid : w.subjects.lookup id = some (.service service)) (backend : Backend) :
    w.step (.respond service id backend) =
      w.nextGateway (w.gateway.respond w.now id backend).2.1
        (Seen.ofAnswers w.subjects
          ((w.gateway.respond w.now id backend).1.toList.map fun a => (id, a)))
        (w.gateway.respond w.now id backend).2.2 := by
  rw [step]
  generalize w.gateway.respond w.now id backend = x
  obtain ⟨answer, g, events⟩ := x
  exact if_pos hid

/-- There is no request of that name, or it was not routed to the service. -/
theorem step_respond_apart {w : World α} {service id : String}
    (hid : w.subjects.lookup id ≠ some (.service service)) (backend : Backend) :
    w.step (.respond service id backend) = w := by
  rw [step, if_neg hid]

theorem step_advance (w : World α) (span : Span) :
    w.step (.advance span) =
      { w with now := w.now + span }.next (w.server.wake (w.now + span)).2.1
        (Seen.ofAnswers w.subjects (w.server.wake (w.now + span)).1)
        (w.server.wake (w.now + span)).2.2 := by
  rw [step]

theorem step_sweep (w : World α) :
    w.step .sweep =
      w.nextGateway { w.gateway with limiter := (w.gateway.limiter.sweep w.now).2.1 } []
        (w.gateway.limiter.sweep w.now).2.2 := rfl

theorem sound_step (w : World α) (x : Step) (h : Sound w) : Sound (w.step x) := by
  cases x with
  | request id fresh r =>
    cases hid : w.subjects.lookup id with
    | some subject =>
      rw [step_request_used (by rw [hid]; rfl)]
      exact h
    | none =>
      have hg := h.gateway.of_keeps (w.gateway.keeps_arrive w.now id r h.gateway.own fresh)
        (fun c hc => hc.cons hid _) fun c hc => hc.owned w.subjects
      rw [step_request hid]
      exact sound_nextGateway (w := { w with subjects := _ :: w.subjects }) hg h.running _ _
  | respond service id backend =>
    by_cases hid : w.subjects.lookup id = some (.service service)
    · have hg := h.gateway.of_keeps_none (w.gateway.keeps_respond w.now id backend)
      rw [step_respond hid]
      exact sound_nextGateway hg h.running _ _
    · rw [step_respond_apart hid]
      exact h
  | cancel id =>
    exact sound_nextGateway (h.gateway.of_keeps_none (w.gateway.keeps_removeCall id)) h.running _ _
  | advance span =>
    have hwake := h.gateway.wake (w.now + span)
    obtain ⟨hrunner, hsweep⟩ := Server.keeps_sweep
      { w.server with gateway := (w.gateway.wake (w.now + span)).2.1 } (w.now + span)
    rw [step_advance, Server.wake_of_running h.running]
    refine sound_next (w := { w with now := w.now + span }) (hwake.of_keeps_none hsweep) ?_ _ _
    rw [hrunner]
    exact h.running
  | sweep =>
    have hg : Gateway.Sound w.subjects
        { w.gateway with limiter := (w.gateway.limiter.sweep w.now).2.1 } :=
      ⟨h.gateway.own, h.gateway.owned⟩
    rw [step_sweep]
    exact sound_nextGateway hg h.running _ _

/-- What the backend of the service does is not seen by the others. -/
theorem near_hidden (service : String) (w : World α) (x : Step)
    (hx : x.isBackendOf service = true) (h : Sound w) : Near service (w.step x) w := by
  cases x with
  | respond s id backend =>
    obtain rfl : s = service := of_decide_eq_true hx
    by_cases hid : w.subjects.lookup id = some (.service s)
    · obtain ⟨hnear, hlabel⟩ := Gateway.near_respond w.now h.gateway.owned hid backend
      rw [step_respond hid]
      refine near_nextGateway hnear ?_ hlabel
      cases (w.gateway.respond w.now id backend).1 with
      | none => exact .of_eq rfl
      | some a => exact Seen.alike_ofAnswers_nil hid a
    · rw [step_respond_apart hid]
      exact (equivalence_near s).refl w
  | request id fresh r => cases hx
  | cancel id => cases hx
  | advance span => cases hx
  | sweep => cases hx

theorem Near.request {service : String} {w₁ w₂ : World α} (h : Near service w₁ w₂) (h₂ : Sound w₂)
    (id : String) (fresh : Bytes) (r : Request) :
    Near service (w₁.step (.request id fresh r)) (w₂.step (.request id fresh r)) := by
  cases hid : w₂.subjects.lookup id with
  | some subject =>
    rw [step_request_used (by rw [h.subjects, hid]; rfl), step_request_used (by rw [hid]; rfl)]
    exact h
  | none =>
    have hsubject : w₁.gateway.subject (r.named fresh) = w₂.gateway.subject (r.named fresh) := by
      unfold Gateway.subject Gateway.resource
      rw [h.gateway.config, h.gateway.table]
    have hagree : Gateway.Agree service (w₂.gateway.subject (r.named fresh))
        (w₁.gateway.arrive w₁.now id fresh r) (w₂.gateway.arrive w₂.now id fresh r) := by
      rw [h.now]
      exact h.gateway.arrive h₂.gateway.own w₂.now id fresh r
    have hnamed : Near service
        { w₁ with subjects := (id, w₂.gateway.subject (r.named fresh)) :: w₁.subjects }
        { w₂ with subjects := (id, w₂.gateway.subject (r.named fresh)) :: w₂.subjects } :=
      ⟨h.now, congrArg (List.cons _) h.subjects, h.sweeper, h.runner, h.gateway, h.seen⟩
    obtain ⟨ha, he⟩ := hagree.alike id
    rw [step_request (h.subjects ▸ hid), step_request hid, hsubject]
    exact hnamed.nextGateway hagree.1 ha he

theorem Near.advance {service : String} {w₁ w₂ : World α} (h : Near service w₁ w₂) (h₁ : Sound w₁)
    (h₂ : Sound w₂) (span : Span) :
    Near service (w₁.step (.advance span)) (w₂.step (.advance span)) := by
  have hnow : Near service { w₁ with now := w₂.now + span, subjects := w₂.subjects }
      { w₂ with now := w₂.now + span } :=
    ⟨rfl, rfl, h.sweeper, h.runner, h.gateway, h.seen⟩
  have hwake := h.gateway.wake (h.subjects ▸ h₁.gateway) h₂.gateway (w₂.now + span)
  have hrunner := fun w : World α => (Server.keeps_sweep
    { w.server with gateway := (w.gateway.wake (w₂.now + span)).2.1 } (w₂.now + span)).1
  obtain ⟨hsweeper, hnear, he⟩ := Server.near_sweep
    { w₁.server with gateway := (w₁.gateway.wake (w₂.now + span)).2.1 }
    { w₂.server with gateway := (w₂.gateway.wake (w₂.now + span)).2.1 }
    h.sweeper hwake.gateway (w₂.now + span)
  rw [step_advance, step_advance, Server.wake_of_running h₁.running,
    Server.wake_of_running h₂.running, h.now, h.subjects]
  refine hnow.next hsweeper ?_ hnear hwake.answers ?_
  · exact (hrunner w₁).trans (h.runner.trans (hrunner w₂).symm)
  · rw [Seen.ofEvents_append, Seen.ofEvents_append]
    exact hwake.events.append (.of_eq (congrArg Seen.ofEvents he))

/-- Everything but what the backend of the service does is done in the same way on both sides. -/
theorem near_step (service : String) (w₁ w₂ : World α) (x : Step)
    (hx : x.isBackendOf service = false) (h₁ : Sound w₁) (h₂ : Sound w₂) (h : Near service w₁ w₂) :
    Near service (w₁.step x) (w₂.step x) := by
  cases x with
  | request id fresh r => exact h.request h₂ id fresh r
  | respond s id backend =>
    have hs : s ≠ service := of_decide_eq_false hx
    by_cases hid : w₂.subjects.lookup id = some (.service s)
    · obtain ⟨ha, hnear, he⟩ := h.gateway.respond w₁.now (h.subjects ▸ h₁.gateway.owned)
        h₂.gateway.owned hid hs backend
      rw [step_respond (h.subjects ▸ hid), step_respond hid, ← h.now, ha, he, h.subjects]
      exact h.nextGateway hnear (.of_eq rfl) (.of_eq rfl)
    · rw [step_respond_apart (h.subjects ▸ hid), step_respond_apart hid]
      exact h
  | cancel id => exact h.nextGateway (h.gateway.removeCall id) (.of_eq rfl) (.of_eq rfl)
  | advance span => exact h.advance h₁ h₂ span
  | sweep =>
    have hlimiter : w₁.gateway.limiter.sweep w₁.now = w₂.gateway.limiter.sweep w₂.now := by
      rw [h.gateway.limiter, h.now]
    rw [step_sweep, step_sweep]
    refine h.nextGateway (h.gateway.setLimiter ?_) (.of_eq rfl) (.of_eq ?_)
    · rw [hlimiter]
    · rw [hlimiter]

theorem sound_begin [Idna] {c : Config} (hd : c.DistinctOrigins) (start : Moment) :
    Sound (begin (α := α) c start) := by
  have hstart : (Server.start (Gateway.ofConfig (α := α) c start).1 start).1.gateway =
      (Gateway.ofConfig c start).1 ∧
      (Server.start (Gateway.ofConfig (α := α) c start).1 start).1.runner.Running := by
    unfold Server.start
    split_ifs
    · exact ⟨rfl, rfl, rfl⟩
    · exact ⟨rfl, rfl, rfl⟩
  refine ⟨?_, hstart.2⟩
  unfold gateway begin
  dsimp only
  rw [hstart.1]
  exact ⟨Gateway.ownBreakers_ofConfig hd start, nofun⟩

/-- **Failures stay with their service.** Two runs from a configuration without two services at one
place that differ only in what the backend of `service` does look the same to everyone who has
nothing to do with that service. -/
theorem failureIsolation [Idna] (c : Config) (hd : c.DistinctOrigins) (start : Moment)
    (service : String) (steps₁ steps₂ : List Step)
    (h : (steps₁.filter fun x => !x.isBackendOf service) =
      steps₂.filter fun x => !x.isBackendOf service) :
    Near service (run (α := α) c start steps₁) (run c start steps₂) := by
  have u : Unwinding (step (α := α)) (Step.isBackendOf service) (fun _ => True) Sound
      (Near service) := {
    equivalence := equivalence_near service
    sound_step := fun w x _ hw => sound_step w x hw
    near_hidden := fun w x _ hx hw => near_hidden service w x hx hw
    near_step := fun w₁ w₂ x _ hx h₁ h₂ hw => near_step service w₁ w₂ x hx h₁ h₂ hw }
  have hbegin := sound_begin (α := α) hd start
  exact u.foldl_near (fun _ _ => trivial) (fun _ _ => trivial) h hbegin hbegin
    ((equivalence_near service).refl _)

/-! Two services whose circuits open at the first failure. -/

def twoServices : Config :=
  { (default : Config) with
    services := [⟨"a", "http://a"⟩, ⟨"b", "http://b"⟩]
    routes := [⟨"a", "/a", "a", [], 0⟩, ⟨"b", "/b", "b", [], 0⟩]
    circuitBreaker := ⟨1, 30, 10⟩ }

/-- Each of the services is asked for something, and the first one does as given. -/
def twoVisits (backend : Backend) : List Step :=
  [.request "1" [] ⟨.get, ⟨none, none, "/a".toList, none⟩, [], [], none, none⟩,
    .respond "a" "1" backend,
    .request "2" [] ⟨.get, ⟨none, none, "/b".toList, none⟩, [], [], none, none⟩]

/-- The breaker of the service that fails opens; the other service and its caller are not told. -/
theorem failureIsolation_two_services :
    twoServices.DistinctOrigins ∧
      ((twoVisits .breaksOff).filter fun x => !x.isBackendOf "a") =
        ((twoVisits (.answers ⟨.ok, [], []⟩)).filter fun x => !x.isBackendOf "a") ∧
      Near "a" (run (α := Rat) twoServices 0 (twoVisits .breaksOff))
        (run twoServices 0 (twoVisits (.answers ⟨.ok, [], []⟩))) ∧
      (run (α := Rat) twoServices 0 (twoVisits .breaksOff)).registry.breakers.map (·.circuit) =
        [.opened, .closed] := by
  have hd : twoServices.DistinctOrigins := by decide +kernel
  refine ⟨hd, rfl, failureIsolation twoServices hd 0 "a" _ _ rfl, ?_⟩
  unfold run begin Gateway.ofConfig
  rw [Routing.Table.ofConfig_of_pairwise (by decide +kernel)]
  decide +kernel

end World

end Gatehouse
