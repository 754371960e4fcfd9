import Gatehouse.Proofs.Gateway.DispatchLaw
import Gatehouse.Proofs.Gateway.Told

/-!
# Requests that are under way

A request that comes in is answered, or it is under way as a call that a breaker has let through, with
two timers that have not run out. So it is for all calls at any time of a run.

* `Dispatcher.SetsOff` : a call that goes out, and what has been asked for it;
* `Gateway.Coming`, `coming_arrive` : what may come of a request;
* `World.settings_step` : what no step changes;
* `World.Orderly` : the calls under way have names of their own, known subjects, and time left;
* `Orderly.step`, `orderly_run` : so it is kept.
-/

namespace Gatehouse

open Gatehouse.Http Gatehouse.Routing Gatehouse.Text

/-! ## Calls that go out -/

namespace Dispatcher

/-- A call goes out at `now`: time is left for it, and a breaker that guards it has been asked and has
let it through, which is all that has happened to the breakers. -/
structure SetsOff (d : Dispatcher) (now : Moment) (call : Forward) (after : Registry) : Prop where
  deadline_eq : call.deadline = deadline now d.backendTimeout
  notDue : isDue call.deadline now = false
  admitted : call.guarded = true → ∃ b, d.registry.get? call.service = some b ∧
    b.refuses now = false ∧ after = d.registry.replace (b.tryAcquire now).2.1

variable (d : Dispatcher) (now : Moment) (target : Url) (r : Request)

theorem send_sent {service : String} {guarded : Bool} {call : Forward} {request : Outbound}
    (h : (d.send now service guarded target r).1 = .sent call request) :
    call = ⟨service, guarded, deadline now d.backendTimeout⟩ ∧ isDue call.deadline now = false ∧
      (d.send now service guarded target r).2.1 = d := by
  unfold send at h ⊢
  cases ho : outbound d.rules target r with
  | error e => simp [ho, finishAtOnce] at h
  | ok sent =>
    by_cases hdue : isDue (deadline now d.backendTimeout) now = true
    · simp [ho, hdue, finishAtOnce] at h
    · simp only [ho, if_neg hdue, Start.sent.injEq] at h ⊢
      obtain ⟨rfl, -⟩ := h
      exact ⟨rfl, Bool.eq_false_iff.mpr hdue, trivial⟩

theorem start_sent {call : Forward} {request : Outbound}
    (h : (d.start now target r).1 = .sent call request) :
    d.SetsOff now call (d.start now target r).2.1.registry := by
  by_cases hrefuses : ∃ b, d.registry.resolve target = some b ∧ b.refuses now = true
  · obtain ⟨b, hb, hr⟩ := hrefuses
    rw [(d.start_of_refuses now r hb hr).1] at h
    cases h
  · have hnot : ∀ b, d.registry.resolve target = some b → b.refuses now = false := fun b hb =>
      Bool.eq_false_iff.mpr fun hr => hrefuses ⟨b, hb, hr⟩
    obtain ⟨sent, rfl, hstart, hafter⟩ := d.start_of_not_refuses now r hnot
    rw [hstart] at h
    obtain ⟨rfl, hdue, hd⟩ := send_sent _ now target r h
    rw [hafter, hd]
    refine ⟨rfl, hdue, fun hguarded => ?_⟩
    obtain ⟨b, hb⟩ : ∃ b, d.registry.resolve target = some b := by
      unfold guard? at hguarded
      simpa [Option.isSome_iff_exists] using hguarded
    refine ⟨b, ?_, hnot b hb, ?_⟩
    · unfold Registry.protectionName
      rw [hb]
      exact (congrArg d.registry.get? (Registry.resolve_service hb)).trans hb
    · unfold asked
      rw [hb]

/-- A call that begins shows at one breaker at most. -/
theorem exists_near_start : ∃ service, Near service (d.start now target r).2.1 d := by
  cases hb : d.registry.resolve target with
  | some b =>
    have hname : d.registry.serviceName target = d.registry.serviceName target := rfl
    exact ⟨_, (d.near_start now r hname (Option.isSome_iff_exists.mpr ⟨b, hb⟩)).1⟩
  | none =>
    unfold start
    rw [hb]
    exact ⟨_, (d.near_send now _ _ target r).1⟩

end Dispatcher

/-! ## Breakers stay -/

theorem Ending.sameServices_record (e : Ending) (r : Registry) : (e.record r).SameServices r := by
  unfold record
  split_ifs
  · exact (r.near_update e.call.forward.service _ fun b => b.service_record e.moment _).sameServices
  · exact .refl r

theorem Ending.sameServices_records (r : Registry) (results : List Ending) :
    (results.foldl record r).SameServices r := by
  induction results generalizing r with
  | nil => exact .refl r
  | cons e results ih => exact (ih _).trans (e.sameServices_record r)

/-! ## Requests that come in -/

namespace Gateway

variable {α : Type}

/-- What may come of a request that comes in at `now`, is to be answered by `timeout`, and meets some
calls under way: an answer, or one more call. -/
inductive Coming (d : Dispatcher) (calls : List Call) (now timeout : Moment) (id : String)
    (subject : Subject) : Arrival × Gateway α × List Event → Prop
  | answered {a : Answer} {g : Gateway α} {events : List Event} (hcalls : g.calls = calls) :
    Coming d calls now timeout id subject (.answered a, g, events)
  | sent {request : Outbound} {g : Gateway α} {events : List Event} {forward : Forward} {i : Inbound}
    (hcalls : g.calls = calls ++ [⟨id, forward, some i⟩])
    (hforward : d.SetsOff now forward g.registry) (hdeadline : i.deadline = timeout)
    (hsubject : subject = .service i.service) :
    Coming d calls now timeout id subject (.sent request, g, events)

theorem Coming.touched {d : Dispatcher} {calls : List Call} {now timeout : Moment} {id : String}
    {subject : Subject} {x : Arrival × Gateway α × List Event}
    (h : Coming d calls now timeout id subject x) (f : Answer → Answer) :
    Coming d calls now timeout id subject (touched f x) := by
  cases h with
  | answered hcalls => exact .answered hcalls
  | sent hcalls hforward hdeadline hsubject => exact .sent hcalls hforward hdeadline hsubject

/-- The same configuration and services, and backends have as much time. -/
structure SameSettings (g' g : Gateway α) : Prop where
  config_eq : g'.config = g.config
  backendTimeout_eq : g'.dispatcher.backendTimeout = g.dispatcher.backendTimeout
  services : g'.registry.SameServices g.registry

theorem SameSettings.refl (g : Gateway α) : SameSettings g g := ⟨rfl, rfl, .refl _⟩

theorem SameSettings.trans {g₁ g₂ g₃ : Gateway α} (h : SameSettings g₁ g₂) (h' : SameSettings g₂ g₃) :
    SameSettings g₁ g₃ :=
  ⟨h.config_eq.trans h'.config_eq, h.backendTimeout_eq.trans h'.backendTimeout_eq,
    h.services.trans h'.services⟩

section Arrive
variable (g : Gateway α) (now : Moment) (id : String) (timeout : Moment) (r : Request)
  {subject : Subject}

theorem coming_route
    (hsub : ∀ route, g.table.find? r.method r.uri.path = some route →
      subject = .service route.service) :
    Coming g.dispatcher g.calls now timeout id subject (g.route now id timeout r) := by
  have h := g.routed now id timeout r
  generalize g.route now id timeout r = x at h ⊢
  cases h with
  | unrouted hroute => exact .answered rfl
  | answered hroute hstart => exact .answered rfl
  | @sent route forward request d events hroute hstart =>
    have hforward := g.dispatcher.start_sent now route.target r (congrArg Prod.fst hstart)
    rw [hstart] at hforward
    exact .sent rfl hforward rfl (hsub route hroute)

variable [TokenArithmetic α]

theorem coming_enter (resource : Resource)
    (hsub : resource = .backend → ∀ route, g.table.find? r.method r.uri.path = some route →
      subject = .service route.service) :
    Coming g.dispatcher g.calls now timeout id subject (g.enter now id timeout resource r) := by
  have h := g.entered now id timeout r resource
  generalize g.enter now id timeout resource r = x at h ⊢
  cases h with
  | limited l outcome => exact .answered rfl
  | healthy l => exact .answered rfl
  | notAllowed l => exact .answered rfl
  | routed l hbackend =>
    exact { g with limiter := l }.coming_route now id timeout r (hsub hbackend)

/-- A request that comes in is answered, or it is under way as one more call. -/
theorem coming_arrive (fresh : Bytes) :
    isDue (g.timeout now) now = true ∧ (g.arrive now id fresh r).2.1 = g ∧
        (∃ a, (g.arrive now id fresh r).1 = .answered a) ∨
      isDue (g.timeout now) now = false ∧
        Coming g.dispatcher g.calls now (g.timeout now) id (g.subject (r.named fresh))
          (g.arrive now id fresh r) := by
  rw [arrive_eq]
  by_cases hdue : isDue (g.timeout now) now = true
  · rw [if_pos hdue]
    exact .inl ⟨hdue, rfl, _, rfl⟩
  · rw [if_neg hdue]
    refine .inr ⟨Bool.eq_false_iff.mpr hdue, ?_⟩
    by_cases hadmin : (g.resource (r.named fresh)).isAdmin = true
    · obtain ⟨registry, -, hg⟩ := g.administer_eq now (r.named fresh) (g.resource (r.named fresh))
      rw [if_pos hadmin]
      exact .answered (by rw [hg]; rfl)
    · rw [if_neg hadmin]
      exact (g.coming_enter now id _ _ _ fun hb _ hf => g.subject_of_backend hb hf).touched _

/-! ## What stays -/

omit [TokenArithmetic α] in
theorem settings_route : SameSettings (g.route now id timeout r).2.1 g := by
  have h := g.routed now id timeout r
  generalize g.route now id timeout r = x at h ⊢
  cases h with
  | unrouted hroute => exact .refl g
  | @answered route v d events hroute hstart =>
    obtain ⟨service, hnear⟩ := g.dispatcher.exists_near_start now route.target r
    rw [hstart] at hnear
    exact ⟨rfl, hnear.backendTimeout, hnear.registry.sameServices⟩
  | @sent route forward request d events hroute hstart =>
    obtain ⟨service, hnear⟩ := g.dispatcher.exists_near_start now route.target r
    rw [hstart] at hnear
    exact ⟨rfl, hnear.backendTimeout, hnear.registry.sameServices⟩

theorem settings_enter (resource : Resource) :
    SameSettings (g.enter now id timeout resource r).2.1 g := by
  have hlimiter (l : Limiter α) : SameSettings { g with limiter := l } g := ⟨rfl, rfl, .refl _⟩
  have h := g.entered now id timeout r resource
  generalize g.enter now id timeout resource r = x at h ⊢
  cases h with
  | limited l outcome => exact hlimiter l
  | healthy l => exact hlimiter l
  | notAllowed l => exact hlimiter l
  | routed l hbackend =>
    exact ({ g with limiter := l }.settings_route now id timeout r).trans (hlimiter l)

theorem settings_arrive (fresh : Bytes) : SameSettings (g.arrive now id fresh r).2.1 g := by
  rw [arrive_eq]
  by_cases hdue : isDue (g.timeout now) now = true
  · rw [if_pos hdue]
    exact .refl g
  · rw [if_neg hdue]
    by_cases hadmin : (g.resource (r.named fresh)).isAdmin = true
    · obtain ⟨registry, hservices, hg⟩ :=
        g.administer_eq now (r.named fresh) (g.resource (r.named fresh))
      rw [if_pos hadmin, touched_snd, hg]
      exact ⟨rfl, rfl, hservices⟩
    · rw [if_neg hadmin, touched_snd]
      exact g.settings_enter now id _ _ _

end Arrive

theorem settings_settled (g : Gateway α) (e : Ending) : SameSettings (g.settled e) g :=
  ⟨rfl, rfl, e.sameServices_record g.registry⟩

theorem settings_respond (g : Gateway α) (now : Moment) (id : String) (backend : Backend) :
    SameSettings (g.respond now id backend).2.1 g := by
  rw [respond_eq]
  cases g.call? id with
  | none => exact .refl g
  | some call => exact g.settings_settled _

theorem settings_wake (g : Gateway α) (now : Moment) : SameSettings (g.wake now).2.1 g := by
  rw [wake_gateway]
  exact ⟨rfl, rfl, Ending.sameServices_records g.registry _⟩

theorem isDue_min (a b now : Moment) : isDue (min a b) now = (isDue a now || isDue b now) := by
  unfold isDue
  rcases Nat.le_total a b with hab | hba
  · rw [Nat.min_eq_left hab]
    by_cases ha : a ≤ tick now
    · simp [ha]
    · have hb : ¬ b ≤ tick now := fun hb => ha (Nat.le_trans hab hb)
      simp [ha, hb]
  · rw [Nat.min_eq_right hba]
    by_cases hb : b ≤ tick now
    · simp [hb]
    · have ha : ¬ a ≤ tick now := fun ha => hb (Nat.le_trans hba ha)
      simp [ha, hb]

theorem isDue_firstDeadline {k : Call} {i : Inbound} (hi : k.inbound = some i) (now : Moment) :
    isDue (Call.firstDeadline k) now = (isDue i.deadline now || isDue k.forward.deadline now) := by
  unfold Call.firstDeadline
  rw [hi]
  exact isDue_min _ _ _

theorem cutsOff_eq {k : Call} {i : Inbound} (hi : k.inbound = some i) (now : Moment) :
    cutsOff now k = isDue i.deadline now := by
  unfold cutsOff
  rw [hi, Option.any_some]

/-- A call of a request that has just come in: it is the request's own, and has time left. -/
structure Own (now : Moment) (id : String) (subject : Subject) (k : Call) : Prop where
  id_eq : k.id = id
  inbound : ∃ i, k.inbound = some i ∧ subject = .service i.service
  waiting : isDue (Call.firstDeadline k) now = false

/-- A request leaves no call behind but its own. -/
theorem calls_arrive [TokenArithmetic α] (g : Gateway α) (now : Moment) (id : String)
    (fresh : Bytes) (r : Request) :
    ∃ new : Option Call, (g.arrive now id fresh r).2.1.calls = g.calls ++ new.toList ∧
      ∀ k ∈ new, Own now id (g.subject (r.named fresh)) k := by
  rcases g.coming_arrive now id r fresh with ⟨-, hg, -⟩ | ⟨hnot, hcoming⟩
  · exact ⟨none, by rw [hg]; exact (List.append_nil _).symm, nofun⟩
  · generalize g.arrive now id fresh r = x at hcoming ⊢
    cases hcoming with
    | answered hcalls => exact ⟨none, hcalls.trans (List.append_nil _).symm, nofun⟩
    | @sent request g' events forward i hcalls hforward hdeadline hsubject =>
      refine ⟨some ⟨id, forward, some i⟩, hcalls, fun k hk => ?_⟩
      obtain rfl := Option.mem_some_iff.mp hk
      refine ⟨rfl, ⟨i, rfl, hsubject⟩, ?_⟩
      rw [isDue_firstDeadline rfl, hdeadline, hnot, hforward.notDue, Bool.or_self]

end Gateway

/-! ## All calls of a run -/

namespace World

variable {α : Type}

theorem lookup_cons_of_known {subjects : List (String × Subject)} {id name : String}
    (hid : subjects.lookup id = none) (hname : (subjects.lookup name).isSome = true)
    (subject : Subject) : ((id, subject) :: subjects).lookup name = subjects.lookup name := by
  have hne : name ≠ id := by
    rintro rfl
    rw [hid] at hname
    cases hname
  rw [List.lookup_cons, beq_false_of_ne hne]

theorem settings_step [TokenArithmetic α] (w : World α) (x : Step) :
    (w.step x).gateway.SameSettings w.gateway := by
  cases x with
  | request id fresh r =>
    cases hid : w.subjects.lookup id with
    | some subject =>
      rw [step_request_used (by rw [hid]; rfl)]
      exact .refl _
    | none =>
      rw [gateway_request hid]
      exact w.gateway.settings_arrive w.now id r fresh
  | respond service id backend =>
    by_cases hid : w.subjects.lookup id = some (.service service)
    · rw [gateway_respond hid]
      exact w.gateway.settings_respond w.now id backend
    · rw [step_respond_apart hid]
      exact .refl _
  | cancel id => exact ⟨rfl, rfl, .refl _⟩
  | advance span =>
    obtain ⟨hconfig, htimeout, hservices⟩ := w.gateway.settings_wake (w.now + span)
    rw [gateway_advance]
    exact ⟨hconfig, htimeout, hservices⟩
  | sweep => exact ⟨rfl, rfl, .refl _⟩

theorem settings_foldl [TokenArithmetic α] (w : World α) (steps : List Step) :
    (steps.foldl step w).gateway.SameSettings w.gateway := by
  induction steps generalizing w with
  | nil => exact .refl _
  | cons x steps ih => exact (ih _).trans (w.settings_step x)

/-- The calls under way have names of their own, come from requests whose subjects are known, and have
time left. Only requests that have come in are answered. -/
structure Orderly (c : Config) (w : World α) : Prop where
  config_eq : w.gateway.config = c
  backendTimeout_eq : w.gateway.dispatcher.backendTimeout = Span.seconds c.timeouts.backendSecs.toNat
  nodup : (w.gateway.calls.map (·.id)).Nodup
  known : ∀ k ∈ w.gateway.calls, ∃ i, k.inbound = some i ∧
    w.subjects.lookup k.id = some (.service i.service)
  waiting : ∀ k ∈ w.gateway.calls, isDue (Gateway.Call.firstDeadline k) w.now = false
  answered : ∀ e ∈ w.told, (w.subjects.lookup e.1).isSome = true

namespace Orderly

variable {c : Config} {w : World α}

theorem isSome_lookup (h : Orderly c w) {k : Call} (hk : k ∈ w.gateway.calls) :
    (w.subjects.lookup k.id).isSome = true := by
  obtain ⟨i, -, hi⟩ := h.known k hk
  rw [hi]
  rfl

theorem of_sublist (h : Orderly c w) {w' : World α} (hnow : w'.now = w.now)
    (hsettings : w'.gateway.SameSettings w.gateway) (hsubjects : w'.subjects = w.subjects)
    (hcalls : w'.gateway.calls.Sublist w.gateway.calls)
    (hanswered : ∀ e ∈ w'.told, e ∈ w.told ∨ (w.subjects.lookup e.1).isSome = true) :
    Orderly c w' where
  config_eq := hsettings.config_eq.trans h.config_eq
  backendTimeout_eq := hsettings.backendTimeout_eq.trans h.backendTimeout_eq
  nodup := h.nodup.sublist (hcalls.map _)
  known k hk := hsubjects ▸ h.known k (hcalls.subset hk)
  waiting k hk := hnow ▸ h.waiting k (hcalls.subset hk)
  answered e he := hsubjects ▸ (hanswered e he).elim (h.answered e) id

variable [TokenArithmetic α]

theorem request (h : Orderly c w) (id : String) (fresh : Bytes) (r : Request) :
    Orderly c (w.step (.request id fresh r)) := by
  cases hid : w.subjects.lookup id with
  | some subject =>
    rw [step_request_used (by rw [hid]; rfl)]
    exact h
  | none =>
    obtain ⟨new, hcalls, hown⟩ := w.gateway.calls_arrive w.now id fresh r
    obtain ⟨hconfig, htimeout, -⟩ := w.settings_step (.request id fresh r)
    have hself : ((id, w.gateway.subject (r.named fresh)) :: w.subjects).lookup id =
        some (w.gateway.subject (r.named fresh)) := List.lookup_cons_self
    refine ⟨?_, ?_, ?_, ?_, ?_, ?_⟩
    · exact hconfig.trans h.config_eq
    · exact htimeout.trans h.backendTimeout_eq
    · rw [gateway_request hid, hcalls, List.map_append, List.nodup_append]
      refine ⟨h.nodup, ?_, ?_⟩
      · cases new with
        | none => exact List.nodup_nil
        | some k => simp
      · intro name hname other hnew heq
        obtain ⟨j, hj, rfl⟩ := List.mem_map.mp hname
        obtain ⟨k, hk, rfl⟩ := List.mem_map.mp hnew
        have hkid : k.id = id := (hown k (Option.mem_toList.mp hk)).id_eq
        have hjk := h.isSome_lookup hj
        rw [heq, hkid, hid] at hjk
        cases hjk
    · rw [gateway_request hid, subjects_request hid, hcalls]
      intro k hk
      rcases List.mem_append.mp hk with hk | hk
      · rw [lookup_cons_of_known hid (h.isSome_lookup hk)]
        exact h.known k hk
      · obtain ⟨hkid, ⟨i, hi, hsubject⟩, -⟩ := hown k (Option.mem_toList.mp hk)
        exact ⟨i, hi, by rw [hkid, hself, hsubject]⟩
    · rw [gateway_request hid, now_request hid, hcalls]
      intro k hk
      rcases List.mem_append.mp hk with hk | hk
      · exact h.waiting k hk
      · exact (hown k (Option.mem_toList.mp hk)).waiting
    · rw [told_request hid, subjects_request hid]
      intro e he
      rcases List.mem_append.mp he with he | he
      · rw [lookup_cons_of_known hid (h.answered e he)]
        exact h.answered e he
      · obtain ⟨a, -, rfl⟩ := List.mem_map.mp he
        rw [hself]
        rfl

theorem respond (h : Orderly c w) (service id : String) (backend : Backend) :
    Orderly c (w.step (.respond service id backend)) := by
  by_cases hid : w.subjects.lookup id = some (.service service)
  · refine h.of_sublist (now_respond hid backend) (w.settings_step _) (subjects_respond hid backend)
      ?_ ?_
    · rw [gateway_respond hid, Gateway.respond_eq]
      cases w.gateway.call? id with
      | none => exact List.Sublist.refl _
      | some k => exact List.filter_sublist
    · rw [told_respond hid]
      intro e he
      rcases List.mem_append.mp he with he | he
      · exact .inl he
      · obtain ⟨a, -, rfl⟩ := List.mem_map.mp he
        rw [hid]
        exact .inr rfl
  · rw [step_respond_apart hid]
    exact h

theorem advance (h : Orderly c w) (span : Span) : Orderly c (w.step (.advance span)) := by
  have hgateway : (w.step (.advance span)).gateway.calls = w.gateway.calls.filter fun k =>
      k.id ∉ (w.gateway.dueCalls (w.now + span)).map (·.id) := by
    rw [gateway_advance, Gateway.wake_gateway]
    rfl
  refine ⟨?_, ?_, ?_, ?_, ?_, ?_⟩
  · exact (w.settings_step (.advance span)).config_eq.trans h.config_eq
  · exact (w.settings_step (.advance span)).backendTimeout_eq.trans h.backendTimeout_eq
  · rw [hgateway]
    exact h.nodup.sublist (List.filter_sublist.map _)
  · rw [hgateway]
    exact fun k hk => h.known k (List.mem_of_mem_filter hk)
  · rw [hgateway, now_advance]
    intro k hk
    obtain ⟨hk, hkept⟩ := List.mem_filter.mp hk
    by_contra hdue
    have hmem : k ∈ w.gateway.dueCalls (w.now + span) :=
      (w.gateway.mem_dueCalls _ k).2 ⟨hk, (Bool.not_eq_false _).mp hdue⟩
    exact of_decide_eq_true hkept (List.mem_map_of_mem hmem)
  · rw [told_advance, subjects_advance, Gateway.wake_answers]
    intro e he
    rcases List.mem_append.mp he with he | he
    · exact h.answered e he
    · obtain ⟨k, hk, rfl⟩ := List.mem_map.mp he
      exact h.isSome_lookup ((w.gateway.mem_dueCalls _ k).1 hk).1

theorem step (h : Orderly c w) (x : Step) : Orderly c (w.step x) := by
  cases x with
  | request id fresh r => exact h.request id fresh r
  | respond service id backend => exact h.respond service id backend
  | cancel id =>
    refine h.of_sublist rfl (w.settings_step _) rfl List.filter_sublist fun e he => .inl ?_
    rwa [told_cancel] at he
  | advance span => exact h.advance span
  | sweep =>
    refine h.of_sublist rfl (w.settings_step _) rfl (List.Sublist.refl _) fun e he => .inl ?_
    rwa [told_sweep] at he

theorem foldl (h : Orderly c w) (steps : List Step) : Orderly c (steps.foldl World.step w) := by
  induction steps generalizing w with
  | nil => exact h
  | cons x steps ih => exact ih (h.step x)

end Orderly

theorem orderly_run [Idna] [TokenArithmetic α] (c : Config) (start : Moment) (steps : List Step) :
    Orderly c (run (α := α) c start steps) := by
  have hgateway : (begin (α := α) c start).gateway = (Gateway.ofConfig c start).1 := by
    change (Server.start (Gateway.ofConfig (α := α) c start).1 start).1.gateway = _
    unfold Server.start
    split
    · rfl
    · rfl
  have hcalls : (begin (α := α) c start).gateway.calls = [] := by
    rw [hgateway]
    rfl
  refine Orderly.foldl ⟨?_, ?_, ?_, ?_, ?_, ?_⟩ steps
  · rw [hgateway]
    rfl
  · rw [hgateway]
    rfl
  · rw [hcalls]
    exact List.nodup_nil
  · rw [hcalls]
    exact nofun
  · rw [hcalls]
    exact nofun
  · exact nofun

end World

end Gatehouse
