import Gatehouse.Proofs.Gateway.Told
import Gatehouse.Proofs.RateLimit.Buckets

/-!
# The limiter comes first, and alone

A request that is not for the admin interface is charged to its client before anything else is done
for it. A client without tokens is turned away, and nothing else changes; for all others the gateway
goes on as one without a limiter.

* `Limited` : the requests that the limiter is asked about;
* `rearm`, `Unaware` : another limit and limiter, and operations that would not notice;
* `unaware_serve`, `unaware_respond`, `unaware_wake` : all that is done once a client is admitted;
* `arrive_of_refused`, `arrive_eq_lifted`, `arrive_of_off` : what comes of a request;
* `World.Lifted`, `Lifted.run` : a run without a limit;
* `AdmissionLaw`, `admissionLaw` : all of it, for every gateway.
-/

namespace Gatehouse

open Gatehouse.Http Gatehouse.Text

namespace Http.Request

variable (r : Request) (fresh : Bytes)

@[simp] theorem named_uri : (r.named fresh).uri = r.uri := by
  unfold named
  split
  · rfl
  · rfl

@[simp] theorem named_client : (r.named fresh).client = r.client := by
  unfold named
  split
  · rfl
  · rfl

end Http.Request

namespace Gateway

variable {α β : Type}

/-! ## Requests that are limited -/

/-- The limiter is asked about a request: it is on, and the request is not for the admin interface. -/
structure Limited (g : Gateway α) (r : Request) : Prop where
  enabled : g.config.rateLimit.enabled = true
  notAdmin : (g.resource r).isAdmin = false

/-- A request that comes in at `now` has some time to be answered. -/
def HasTime (g : Gateway α) (now : Moment) : Prop := isDue (g.timeout now) now = false

/-- What a client that has no tokens left is told. -/
def turnedAway (g : Gateway α) (fresh : Bytes) (r : Request) : Answer :=
  lastTouch (g.resource r) (r.named fresh) ⟨Reply.rateLimited, some .rateLimited⟩

theorem resource_named (g : Gateway α) (fresh : Bytes) (r : Request) :
    g.resource (r.named fresh) = g.resource r := by
  unfold resource
  rw [Request.named_uri]

theorem isDue_deadline {span : Span} (hspan : 0 < span) (now : Moment) :
    isDue (deadline now span) now = false := by
  have htick : tick now ≤ now := Nat.div_mul_le_self now 1000000
  have hlate : now < deadline now span := by
    unfold deadline
    split_ifs
    · exact Nat.lt_add_of_pos_right hspan
    · exact Nat.lt_add_of_pos_right (by decide)
  exact decide_eq_false (Nat.not_le.mpr (Nat.lt_of_le_of_lt htick hlate))

def lifted (c : Config.RateLimit) : Config.RateLimit := { c with enabled := false }

theorem hasTime_of_pos {g : Gateway α} (h : 0 < g.config.timeouts.requestSecs.toNat)
    (now : Moment) : g.HasTime now :=
  isDue_deadline (Nat.mul_pos h (by decide)) now

/-! ## Operations that the limiter has no part in -/

/-- The gateway with another limit and another limiter. -/
def rearm (g : Gateway α) (c : Config.RateLimit) (l : Limiter α) : Gateway α :=
  { g with config := { g.config with rateLimit := c }, limiter := l }

/-- What comes of something, with another limit and another limiter in the end. -/
def rearmed (c : Config.RateLimit) (l : Limiter α) (x : β × Gateway α × List Event) :
    β × Gateway α × List Event := (x.1, x.2.1.rearm c l, x.2.2)

/-- An operation does the same whatever the limit and the limiter are, and leaves them as they are. -/
def Unaware (f : Gateway α → β × Gateway α × List Event) : Prop :=
  ∀ g c l, f (g.rearm c l) = rearmed c l (f g)

namespace Unaware

variable {f : Gateway α → β × Gateway α × List Event}

theorem rearm_self (h : Unaware f) (g : Gateway α) :
    rearmed g.config.rateLimit g.limiter (f g) = f g :=
  (h g g.config.rateLimit g.limiter).symm

theorem limiter_eq (h : Unaware f) (g : Gateway α) : (f g).2.1.limiter = g.limiter := by
  rw [← h.rearm_self g]
  rfl

theorem rateLimit_eq (h : Unaware f) (g : Gateway α) :
    (f g).2.1.config.rateLimit = g.config.rateLimit := by
  rw [← h.rearm_self g]
  rfl

end Unaware

section Unaware
variable (now : Moment) (id : String)

theorem unaware_route (timeout : Moment) (r : Request) :
    Unaware fun g : Gateway α => g.route now id timeout r := by
  intro g c l
  unfold route rearm
  dsimp only
  cases g.table.find? r.method r.uri.path with
  | none => rfl
  | some route =>
    dsimp only
    rcases g.dispatcher.start now route.target r with ⟨_ | _, d, events⟩
    · rfl
    · rfl

theorem unaware_serve (timeout : Moment) (resource : Resource) (r : Request) :
    Unaware fun g : Gateway α => g.serve now id timeout resource r := by
  intro g c l
  unfold serve
  split
  · exact unaware_route now id timeout r g c l
  · split_ifs
    · rfl
    · rfl

theorem unaware_respond (backend : Backend) :
    Unaware fun g : Gateway α => g.respond now id backend := by
  intro g c l
  have hcall : (g.rearm c l).call? id = g.call? id := rfl
  unfold respond
  dsimp only
  rw [hcall]
  cases g.call? id with
  | none => rfl
  | some call => rfl

theorem unaware_expire (call : Call) : Unaware fun g : Gateway α => g.expire now call := by
  intro g c l
  unfold expire
  cases call.inbound with
  | none => rfl
  | some i =>
    dsimp only
    split
    · rfl
    · rfl

theorem unaware_wake : Unaware fun g : Gateway α => g.wake now := by
  have hfold : ∀ (calls : List Call) (x : List (String × Answer) × Gateway α × List Event) c l,
      calls.foldl (expireNext now) (rearmed c l x) =
        rearmed c l (calls.foldl (expireNext now) x) := by
    intro calls x c l
    induction calls generalizing x with
    | nil => rfl
    | cons call calls ih =>
      have hexpire : (x.2.1.rearm c l).expire now call = _ := unaware_expire now call x.2.1 c l
      have hnext : expireNext now (rearmed c l x) call = rearmed c l (expireNext now x call) := by
        unfold expireNext rearmed
        rw [hexpire]
        rfl
      rw [List.foldl_cons, List.foldl_cons, hnext]
      exact ih (expireNext now x call)
  intro g c l
  exact hfold (g.dueCalls now) ([], g, []) c l

theorem unaware_abandon :
    Unaware fun g : Gateway α => ((g.abandon id).1, (g.abandon id).2, []) := fun _ _ _ => rfl

end Unaware

/-! ## Who is turned away -/

def IsLimited (a : Answer) : Prop := a.outcome = some .rateLimited

theorem not_isLimited_farewell (c : Call) (now : Moment)
    (result : Except ForwardingFailure Response) : ¬ IsLimited (farewell c now result) := by
  unfold IsLimited
  rw [farewell_outcome]
  intro h
  exact Dispatcher.conclude_ne_rateLimited _ _ (Option.some.inj h)

theorem not_isLimited_expiryAnswer (limit : Span) (now : Moment) (c : Call) :
    ¬ IsLimited (expiryAnswer limit now c) := by
  unfold expiryAnswer
  cases c.inbound with
  | none => exact not_isLimited_farewell c now _
  | some i =>
    dsimp only
    split
    · exact nofun
    · exact not_isLimited_farewell c now _

theorem not_isLimited_respond (g : Gateway α) (now : Moment) (id : String) (backend : Backend) :
    ∀ a ∈ (g.respond now id backend).1.toList, ¬ IsLimited a := by
  intro a ha
  unfold respond at ha
  cases hcall : g.call? id with
  | none => simp [hcall] at ha
  | some call =>
    simp only [hcall, Option.toList_some, List.mem_singleton] at ha
    rw [ha]
    exact not_isLimited_farewell call now _

theorem not_isLimited_wake (g : Gateway α) (now : Moment) :
    ∀ e ∈ (g.wake now).1, ¬ IsLimited e.2 := by
  intro e he
  rw [wake_answers, List.mem_map] at he
  obtain ⟨call, -, rfl⟩ := he
  exact not_isLimited_expiryAnswer _ now call

theorem not_isLimited_route (g : Gateway α) (now : Moment) (id : String) (timeout : Moment)
    (r : Request) {a : Answer} (ha : (g.route now id timeout r).1 = .answered a) :
    ¬ IsLimited a := by
  have h := g.routed now id timeout r
  generalize g.route now id timeout r = x at h ha
  cases h with
  | unrouted hroute =>
    obtain rfl := Arrival.answered.inj ha
    exact nofun
  | @answered route v d events hroute hstart =>
    obtain rfl := Arrival.answered.inj ha
    exact g.dispatcher.start_ne_rateLimited now route.target r (congrArg Prod.fst hstart)
  | sent hroute hstart => cases ha

theorem not_isLimited_serve (g : Gateway α) (now : Moment) (id : String) (timeout : Moment)
    (resource : Resource) (r : Request) {a : Answer}
    (ha : (g.serve now id timeout resource r).1 = .answered a) : ¬ IsLimited a := by
  unfold serve at ha
  split at ha
  · exact g.not_isLimited_route now id timeout r ha
  · split_ifs at ha
    · obtain rfl := Arrival.answered.inj ha
      exact nofun
    · obtain rfl := Arrival.answered.inj ha
      exact nofun

/-! ## Requests that come in -/

section Arrive
variable [TokenArithmetic α] (g : Gateway α) (now : Moment) (id : String) (fresh : Bytes)
  (r : Request)

/-- What the last touch is for the answer to a request. -/
def finish (a : Answer) : Answer := lastTouch (g.resource r) (r.named fresh) a

theorem arrive_of_no_time (h : ¬ g.HasTime now) :
    g.arrive now id fresh r =
      (.answered (g.finish fresh r ⟨Reply.bare .requestTimeout, none⟩), g, []) := by
  unfold HasTime at h
  rw [arrive_eq, resource_named, if_pos (Bool.not_eq_false _ ▸ h)]
  rfl

variable {g now r}

theorem arrive_of_admin (htime : g.HasTime now) (h : (g.resource r).isAdmin = true) :
    g.arrive now id fresh r =
      (.answered (g.finish fresh r
          ⟨(g.administer now (g.resource r) (r.named fresh)).1, none⟩),
        (g.administer now (g.resource r) (r.named fresh)).2) := by
  have hnot : ¬ isDue (g.timeout now) now = true := by rw [htime]; exact Bool.false_ne_true
  rw [arrive_eq, resource_named, if_neg hnot, if_pos h]
  rfl

theorem arrive_of_not_admin (htime : g.HasTime now) (h : (g.resource r).isAdmin = false) :
    g.arrive now id fresh r = touched (g.finish fresh r)
      (g.enter now id (g.timeout now) (g.resource r) (r.named fresh)) := by
  have hnot : ¬ isDue (g.timeout now) now = true := by rw [htime]; exact Bool.false_ne_true
  have hadmin : ¬ (g.resource r).isAdmin = true := by rw [h]; exact Bool.false_ne_true
  rw [arrive_eq, resource_named, if_neg hnot, if_neg hadmin]
  rfl

theorem arrive_of_off (htime : g.HasTime now) (h : (g.resource r).isAdmin = false)
    (hoff : g.config.rateLimit.enabled = false) :
    g.arrive now id fresh r = touched (g.finish fresh r)
      (g.serve now id (g.timeout now) (g.resource r) (r.named fresh)) := by
  rw [arrive_of_not_admin id fresh htime h]
  unfold enter
  rw [hoff]
  rfl

theorem arrive_of_refused (htime : g.HasTime now) (h : g.Limited r)
    (hrefused : (g.limiter.attempt r.client now).1 = false) :
    g.arrive now id fresh r =
      (.answered (g.turnedAway fresh r),
        { g with limiter := (g.limiter.attempt r.client now).2 },
        [.notice .limitExceeded, .measurement .rateLimited]) := by
  rw [arrive_of_not_admin id fresh htime h.notAdmin]
  unfold enter Limiter.admission
  rw [h.enabled, Request.named_client]
  generalize g.limiter.attempt r.client now = x at hrefused ⊢
  obtain ⟨admitted, l⟩ := x
  obtain rfl : admitted = false := hrefused
  rfl

theorem arrive_of_admitted (htime : g.HasTime now) (h : g.Limited r)
    (hadmitted : (g.limiter.attempt r.client now).1 = true) :
    g.arrive now id fresh r = touched (g.finish fresh r)
      ({ g with limiter := (g.limiter.attempt r.client now).2 }.serve now id (g.timeout now)
        (g.resource r) (r.named fresh)) := by
  rw [arrive_of_not_admin id fresh htime h.notAdmin]
  unfold enter Limiter.admission
  rw [h.enabled, Request.named_client]
  generalize g.limiter.attempt r.client now = x at hadmitted ⊢
  obtain ⟨admitted, l⟩ := x
  obtain rfl : admitted = true := hadmitted
  rfl

omit [TokenArithmetic α] in
theorem touched_rearmed (f : Answer → Answer) (c : Config.RateLimit) (l : Limiter α)
    (x : Arrival × Gateway α × List Event) :
    touched f (rearmed c l x) = rearmed c l (touched f x) := by
  obtain ⟨a | request, g, events⟩ := x
  · rfl
  · rfl

/-- For a client that has tokens the gateway goes on as one without a limit. -/
theorem arrive_eq_lifted (htime : g.HasTime now) (h : g.Limited r)
    (hadmitted : (g.limiter.attempt r.client now).1 = true) :
    g.arrive now id fresh r =
      rearmed g.config.rateLimit (g.limiter.attempt r.client now).2
        ((g.rearm (lifted g.config.rateLimit) (g.limiter.attempt r.client now).2).arrive now id
          fresh r) := by
  have hserve := unaware_serve (α := α) now id (g.timeout now) (g.resource r) (r.named fresh)
  have hoff := arrive_of_off (g := g.rearm (lifted g.config.rateLimit)
    (g.limiter.attempt r.client now).2) id fresh htime h.notAdmin rfl
  have hlifted := hserve { g with limiter := (g.limiter.attempt r.client now).2 }
    (lifted g.config.rateLimit) (g.limiter.attempt r.client now).2
  have hself := hserve.rearm_self { g with limiter := (g.limiter.attempt r.client now).2 }
  rw [arrive_of_admitted id fresh htime h hadmitted, hoff]
  -- without the limit the same is served, and what it is served with is put back
  refine Eq.trans ?_ (congrArg (rearmed g.config.rateLimit (g.limiter.attempt r.client now).2)
    (congrArg (touched (g.finish fresh r)) hlifted).symm)
  rw [touched_rearmed]
  exact (congrArg (touched (g.finish fresh r)) hself).symm.trans (touched_rearmed _ _ _ _)

/-- Who is told to come back later: a client that is asked about and has no tokens. -/
theorem isLimited_arrive_iff :
    (∃ a, (g.arrive now id fresh r).1 = .answered a ∧ IsLimited a) ↔
      g.HasTime now ∧ g.Limited r ∧ (g.limiter.attempt r.client now).1 = false := by
  constructor
  · rintro ⟨a, ha, hlimited⟩
    have served (h : ∃ k : Gateway α, g.arrive now id fresh r = touched (g.finish fresh r)
        (k.serve now id (g.timeout now) (g.resource r) (r.named fresh))) : False := by
      obtain ⟨k, hk⟩ := h
      rw [hk] at ha
      have hnot := fun b => k.not_isLimited_serve now id (g.timeout now) (g.resource r)
        (r.named fresh) (a := b)
      generalize k.serve now id (g.timeout now) (g.resource r) (r.named fresh) = x at hnot ha
      obtain ⟨b | request, k', events⟩ := x
      · obtain rfl := Arrival.answered.inj ha
        exact hnot b rfl hlimited
      · cases ha
    by_cases htime : g.HasTime now
    · cases hadmin : (g.resource r).isAdmin with
      | true =>
        rw [arrive_of_admin id fresh htime hadmin] at ha
        obtain rfl := Arrival.answered.inj ha
        cases hlimited
      | false =>
        cases hon : g.config.rateLimit.enabled with
        | false => exact (served ⟨g, arrive_of_off id fresh htime hadmin hon⟩).elim
        | true =>
          cases hattempt : (g.limiter.attempt r.client now).1 with
          | false => exact ⟨htime, ⟨hon, hadmin⟩, rfl⟩
          | true => exact (served ⟨_, arrive_of_admitted id fresh htime ⟨hon, hadmin⟩ hattempt⟩).elim
    · rw [arrive_of_no_time g now id fresh r htime] at ha
      obtain rfl := Arrival.answered.inj ha
      cases hlimited
  · rintro ⟨htime, h, hrefused⟩
    exact ⟨g.turnedAway fresh r, by rw [arrive_of_refused id fresh htime h hrefused], rfl⟩

/-- A request that the limiter is not asked about leaves it alone. -/
theorem limiter_arrive (h : ¬ (g.HasTime now ∧ g.Limited r)) :
    (g.arrive now id fresh r).2.1.limiter = g.limiter ∧
      (g.arrive now id fresh r).2.1.config.rateLimit = g.config.rateLimit := by
  by_cases htime : g.HasTime now
  · cases hadmin : (g.resource r).isAdmin with
    | true =>
      obtain ⟨registry, -, hg⟩ := g.administer_eq now (r.named fresh) (g.resource r)
      rw [arrive_of_admin id fresh htime hadmin]
      dsimp only
      rw [hg]
      exact ⟨rfl, rfl⟩
    | false =>
      cases hon : g.config.rateLimit.enabled with
      | true => exact absurd ⟨htime, hon, hadmin⟩ h
      | false =>
        have hserve := unaware_serve (α := α) now id (g.timeout now) (g.resource r) (r.named fresh)
        rw [arrive_of_off id fresh htime hadmin hon, touched_snd]
        exact ⟨hserve.limiter_eq g, hserve.rateLimit_eq g⟩
  · rw [arrive_of_no_time g now id fresh r htime]
    exact ⟨rfl, rfl⟩

end Arrive

end Gateway

/-! ## Runs without a limit -/

namespace World

variable {α : Type}

/-- A run that has come to `w` from `w₀` without a limit: no client has got a bucket, and nobody has
been turned away. -/
structure Lifted (w₀ w : World α) : Prop where
  off : w.gateway.config.rateLimit.enabled = false
  buckets : w.gateway.limiter.buckets.Sublist w₀.gateway.limiter.buckets
  told : ∀ e ∈ w.told, e ∈ w₀.told ∨ ¬ Gateway.IsLimited e.2

theorem swept_sublist (s : Server α) (now : Moment) :
    (s.swept now).buckets.Sublist s.gateway.limiter.buckets := by
  unfold Server.swept
  cases s.sweeper with
  | none => exact List.Sublist.refl _
  | some sweeper =>
    unfold Sweeper.wake
    dsimp only [Option.elim]
    split
    · exact List.filter_sublist
    · exact List.Sublist.refl _

namespace Lifted

variable {w₀ w : World α}

/-- Answers that are not the limiter's. -/
theorem told_append (h : Lifted w₀ w) {answers : List (String × Answer)}
    (hanswers : ∀ e ∈ answers, ¬ Gateway.IsLimited e.2) :
    ∀ e ∈ w.told ++ answers, e ∈ w₀.told ∨ ¬ Gateway.IsLimited e.2 := by
  intro e he
  rcases List.mem_append.mp he with he | he
  · exact h.told e he
  · exact .inr (hanswers e he)

variable [TokenArithmetic α]

theorem request (h : Lifted w₀ w) (id : String) (fresh : Bytes) (r : Request) :
    Lifted w₀ (w.step (.request id fresh r)) := by
  cases hid : w.subjects.lookup id with
  | some subject =>
    rw [step_request_used (by rw [hid]; rfl)]
    exact h
  | none =>
    have hnot : ¬ w.gateway.Limited r := by
      intro hl
      have hon := hl.enabled
      rw [h.off] at hon
      cases hon
    have hfree : ¬ (w.gateway.HasTime w.now ∧ w.gateway.Limited r) := fun hl => hnot hl.2
    obtain ⟨hlimiter, hconfig⟩ := Gateway.limiter_arrive id fresh hfree
    refine ⟨?_, ?_, ?_⟩
    · rw [gateway_request hid, hconfig, h.off]
    · rw [gateway_request hid, hlimiter]
      exact h.buckets
    · rw [told_request hid]
      refine h.told_append fun e he hlimited => ?_
      obtain ⟨a, ha, rfl⟩ := List.mem_map.mp he
      have harrival := Gateway.Arrival.mem_answer?.1 ha
      exact hnot ((Gateway.isLimited_arrive_iff id fresh).1 ⟨a, harrival, hlimited⟩).2.1

theorem respond (h : Lifted w₀ w) (service id : String) (backend : Backend) :
    Lifted w₀ (w.step (.respond service id backend)) := by
  by_cases hid : w.subjects.lookup id = some (.service service)
  · have hrespond := Gateway.unaware_respond (α := α) w.now id backend
    refine ⟨?_, ?_, ?_⟩
    · rw [gateway_respond hid, hrespond.rateLimit_eq w.gateway, h.off]
    · rw [gateway_respond hid, hrespond.limiter_eq w.gateway]
      exact h.buckets
    · rw [told_respond hid]
      refine h.told_append fun e he => ?_
      obtain ⟨a, ha, rfl⟩ := List.mem_map.mp he
      exact w.gateway.not_isLimited_respond w.now id backend a ha
  · rw [step_respond_apart hid]
    exact h

theorem advance (h : Lifted w₀ w) (span : Span) : Lifted w₀ (w.step (.advance span)) := by
  have hwake := Gateway.unaware_wake (α := α) (w.now + span)
  refine ⟨?_, ?_, ?_⟩
  · rw [gateway_advance]
    exact (congrArg Config.RateLimit.enabled (hwake.rateLimit_eq w.gateway)).trans h.off
  · rw [gateway_advance]
    exact (swept_sublist w.server (w.now + span)).trans h.buckets
  · rw [told_advance]
    exact h.told_append (w.gateway.not_isLimited_wake (w.now + span))

theorem step (h : Lifted w₀ w) (x : Step) : Lifted w₀ (w.step x) := by
  cases x with
  | request id fresh r => exact h.request id fresh r
  | respond service id backend => exact h.respond service id backend
  | cancel id => exact ⟨h.off, h.buckets, by rw [told_cancel]; exact h.told⟩
  | advance span => exact h.advance span
  | sweep => exact ⟨h.off, List.filter_sublist.trans h.buckets, by rw [told_sweep]; exact h.told⟩

theorem run (h : Lifted w₀ w) (steps : List Step) : Lifted w₀ (steps.foldl World.step w) := by
  induction steps generalizing w with
  | nil => exact h
  | cons x steps ih => exact ih (h.step x)

end Lifted

end World

/-! ## The law -/

/-- The part that the limiter has in what a gateway does. -/
structure AdmissionLaw {α : Type} [TokenArithmetic α] (g : Gateway α) : Prop where
  /-- A request that is limited is charged to its client, once, and to nobody else. -/
  charged : ∀ now id fresh r, g.HasTime now → g.Limited r →
    (g.arrive now id fresh r).2.1.limiter = (g.limiter.attempt r.client now).2 ∧
      ∀ other, other ≠ r.client →
        (g.arrive now id fresh r).2.1.limiter.bucket? other = g.limiter.bucket? other
  /-- A client without tokens is turned away: that is all that comes of its request, whatever the
  routes and the breakers are like. -/
  refused : ∀ now id fresh r, g.HasTime now → g.Limited r →
    (g.limiter.attempt r.client now).1 = false →
    g.arrive now id fresh r =
      (.answered (g.turnedAway fresh r), { g with limiter := (g.limiter.attempt r.client now).2 },
        [.notice .limitExceeded, .measurement .rateLimited])
  turnedAway : ∀ fresh r, (g.turnedAway fresh r).response.status = .tooManyRequests ∧
    (g.turnedAway fresh r).outcome = some .rateLimited
  /-- For any other client the gateway goes on as one without a limit. -/
  admitted : ∀ now id fresh r, g.HasTime now → g.Limited r →
    (g.limiter.attempt r.client now).1 = true →
    g.arrive now id fresh r =
      Gateway.rearmed g.config.rateLimit (g.limiter.attempt r.client now).2
        ((g.rearm (Gateway.lifted g.config.rateLimit) (g.limiter.attempt r.client now).2).arrive now
          id fresh r)
  /-- So it does while the request is under way. -/
  underWay : ∀ now id backend,
    Gateway.Unaware (fun k : Gateway α => k.respond now id backend) ∧
      Gateway.Unaware (fun k : Gateway α => ((k.abandon id).1, (k.abandon id).2, [])) ∧
      Gateway.Unaware fun k : Gateway α => k.wake now
  /-- Nobody else is told to come back later. -/
  isLimited_iff : ∀ now id fresh r,
    (∃ a, (g.arrive now id fresh r).1 = .answered a ∧ a.outcome = some .rateLimited) ↔
      g.HasTime now ∧ g.Limited r ∧ (g.limiter.attempt r.client now).1 = false
  /-- A request to the admin interface leaves the limiter alone. -/
  admin : ∀ now id fresh r, (g.resource r).isAdmin = true →
    (g.arrive now id fresh r).2.1.limiter = g.limiter
  /-- Without a limit no request ever gives a client a bucket, and nobody is ever turned away. -/
  off : g.config.rateLimit.enabled = false → ∀ w : World α, w.gateway = g →
    ∀ steps : List Step,
      (steps.foldl World.step w).gateway.limiter.buckets.Sublist g.limiter.buckets ∧
        ∀ e ∈ (steps.foldl World.step w).told, e ∈ w.told ∨ e.2.outcome ≠ some .rateLimited
  /-- Every request has time unless the request timeout is zero. One without any is answered before
  anything is done for it. -/
  hasTime : 0 < g.config.timeouts.requestSecs.toNat → ∀ now, g.HasTime now
  noTime : ∀ now id fresh r, ¬ g.HasTime now → (g.arrive now id fresh r).2 = (g, [])

/-- **The limiter comes first, and alone**, for every gateway and every request. -/
theorem admissionLaw {α : Type} [TokenArithmetic α] (g : Gateway α) : AdmissionLaw g where
  charged now id fresh r htime h := by
    have hlimiter : (g.arrive now id fresh r).2.1.limiter = (g.limiter.attempt r.client now).2 := by
      cases hattempt : (g.limiter.attempt r.client now).1 with
      | false => rw [Gateway.arrive_of_refused id fresh htime h hattempt]
      | true =>
        rw [Gateway.arrive_eq_lifted id fresh htime h hattempt]
        rfl
    refine ⟨hlimiter, fun other hother => ?_⟩
    rw [hlimiter]
    exact g.limiter.bucket?_attempt_of_ne r.client now hother
  refused now id fresh r htime h hrefused := Gateway.arrive_of_refused id fresh htime h hrefused
  turnedAway fresh r := ⟨outgoing_status _ _ _ _, rfl⟩
  admitted now id fresh r htime h hadmitted :=
    Gateway.arrive_eq_lifted id fresh htime h hadmitted
  underWay now id backend :=
    ⟨Gateway.unaware_respond now id backend, Gateway.unaware_abandon id, Gateway.unaware_wake now⟩
  isLimited_iff now id fresh r := Gateway.isLimited_arrive_iff id fresh
  admin now id fresh r hadmin := by
    refine (Gateway.limiter_arrive id fresh fun h => ?_).1
    rw [h.2.notAdmin] at hadmin
    cases hadmin
  off hoff w hw steps := by
    have hlifted : World.Lifted w w :=
      ⟨by rw [hw]; exact hoff, List.Sublist.refl _, fun e he => .inl he⟩
    have hrun := hlifted.run steps
    rw [← hw]
    exact ⟨hrun.buckets, hrun.told⟩
  hasTime hpos now := Gateway.hasTime_of_pos hpos now
  noTime now id fresh r hnot := by rw [Gateway.arrive_of_no_time g now id fresh r hnot]

end Gatehouse
