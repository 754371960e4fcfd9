import Gatehouse.Proofs.Gateway.Admission
import Gatehouse.Proofs.Gateway.Underway
import Gatehouse.Proofs.RateLimit.ClientsApart
import Mathlib.Data.List.Forall2

/-!
# Who is charged for a request

A request is charged to the address that it comes from, and to nothing else of it. So a run of a
gateway is a run of its limiter, in which nothing but the addresses of the requests is left; what
else a client puts into a request changes no decision, for itself or for others.

* `Http.Request.client_eq` : the client of a request is its address without the port;
* `Gateway.limiter_enter`, `Gateway.isLimited_enter_iff` : what the limiter makes of any request;
* `World.charges`, `World.limited_foldl` : the run of the limiter behind a run of the gateway;
* `World.SameTo` : runs that are the same to a client but for the contents of requests;
* `ClientLaw`, `clientLaw` : all of it, with the runs of a limiter.
-/

namespace Gatehouse

open Gatehouse.Http Gatehouse.Text

theorem Http.Request.client_eq {r r' : Request}
    (h : (r.peer.map fun e => e.ip) = r'.peer.map fun e => e.ip) : r.client = r'.client := by
  have hclient : ∀ q : Request,
      q.client = (q.peer.map fun e => e.ip).elim "unknown" fun ip => .ofList ip.text := by
    intro q
    unfold client
    cases q.peer with
    | none => rfl
    | some e => rfl
  rw [hclient, hclient, h]

namespace Gateway

variable {α : Type} [TokenArithmetic α]

/-! ## The limiter and a request -/

section Enter
variable (g : Gateway α) (now : Moment) (id : String) (timeout : Moment) (resource : Resource)
  (r : Request)

/-- A request that is refused is answered at once, any other one is served by a gateway whose limiter
has charged its client. -/
theorem enter_eq (hon : g.config.rateLimit.enabled = true) :
    g.enter now id timeout resource r =
      if (g.limiter.attempt r.client now).1 = true then
        { g with limiter := (g.limiter.attempt r.client now).2 }.serve now id timeout resource r
      else
        (.answered ⟨Reply.rateLimited, some .rateLimited⟩,
          { g with limiter := (g.limiter.attempt r.client now).2 },
          [.notice .limitExceeded, .measurement .rateLimited]) := by
  unfold enter Limiter.admission
  rw [hon]
  generalize g.limiter.attempt r.client now = x
  obtain ⟨admitted, l⟩ := x
  cases admitted with
  | true => rfl
  | false => rfl

theorem limiter_enter (hon : g.config.rateLimit.enabled = true) :
    (g.enter now id timeout resource r).2.1.limiter = (g.limiter.attempt r.client now).2 := by
  rw [enter_eq g now id timeout resource r hon]
  split
  · exact (unaware_serve now id timeout resource r).limiter_eq _
  · rfl

theorem isLimited_enter_iff (hon : g.config.rateLimit.enabled = true) :
    (∃ a, (g.enter now id timeout resource r).1 = .answered a ∧ IsLimited a) ↔
      (g.limiter.attempt r.client now).1 = false := by
  rw [enter_eq g now id timeout resource r hon]
  split
  · rename_i hadmitted
    refine iff_of_false ?_ (by simp [hadmitted])
    rintro ⟨a, ha, hlimited⟩
    exact not_isLimited_serve _ now id timeout resource r ha hlimited
  · rename_i hrefused
    exact iff_of_true ⟨_, rfl, rfl⟩ (Bool.eq_false_iff.mpr hrefused)

end Enter

/-- Whether the limiter is asked about a request that comes in at `now`. -/
def asks (g : Gateway α) (now : Moment) (r : Request) : Bool :=
  !isDue (g.timeout now) now && g.config.rateLimit.enabled && !(g.resource r).isAdmin

omit [TokenArithmetic α] in
theorem asks_iff {g : Gateway α} {now : Moment} {r : Request} :
    g.asks now r = true ↔ g.HasTime now ∧ g.Limited r := by
  unfold asks HasTime
  simp only [Bool.and_eq_true, Bool.not_eq_true', and_assoc]
  exact and_congr_right fun _ => ⟨fun h => ⟨h.1, h.2⟩, fun h => ⟨h.1, h.2⟩⟩

theorem limiter_arrive_eq (g : Gateway α) (now : Moment) (id : String) (fresh : Bytes)
    (r : Request) :
    (g.arrive now id fresh r).2.1.limiter =
      if g.asks now r = true then (g.limiter.attempt r.client now).2 else g.limiter := by
  split
  · rename_i hasks
    obtain ⟨htime, h⟩ := asks_iff.mp hasks
    rw [arrive_of_not_admin id fresh htime h.notAdmin, touched_snd,
      limiter_enter _ _ _ _ _ _ h.enabled, Request.named_client]
  · rename_i hasks
    exact (limiter_arrive id fresh fun h => hasks (asks_iff.mpr h)).1

end Gateway

/-! ## The limiter behind a run -/

namespace World

variable {α : Type}

def limited (w : World α) : Instant (Limiter α) := ⟨w.now, w.gateway.limiter⟩

/-- Whether the sweeper sweeps when the clock has moved to `now`. -/
def isSwept (w : World α) (now : Moment) : Bool := w.server.sweeper.any fun s => isDue s.next now

/-- What a step is to the limiter. -/
def charge (w : World α) : Step → List (Move Limiter.Action)
  | .request id _ r =>
    if (w.subjects.lookup id).isNone ∧ w.gateway.asks w.now r = true then
      [.act (.attempt r.client)]
    else []
  | .respond _ _ _ => []
  | .cancel _ => []
  | .advance span => .wait span :: if w.isSwept (w.now + span) then [.act .sweep] else []
  | .sweep => [.act .sweep]

theorem swept_eq (w : World α) (now : Moment) :
    w.server.swept now =
      if w.isSwept now = true then (w.gateway.limiter.sweep now).2.1 else w.gateway.limiter := by
  unfold Server.swept isSwept
  cases w.server.sweeper with
  | none => rfl
  | some s =>
    unfold Sweeper.wake
    dsimp only [Option.elim, Option.any]
    split <;> rfl

variable [TokenArithmetic α]

def charges (w : World α) : List Step → List (Move Limiter.Action)
  | [] => []
  | x :: steps => w.charge x ++ (w.step x).charges steps

theorem limited_step (w : World α) (x : Step) :
    (w.step x).limited = w.limited.run Limiter.act (w.charge x) := by
  unfold limited
  cases x with
  | request id fresh r =>
    cases hid : w.subjects.lookup id with
    | some subject =>
      rw [step_request_used (by rw [hid]; rfl)]
      simp [charge, hid, Instant.run]
    | none =>
      rw [now_request hid, gateway_request hid, Gateway.limiter_arrive_eq, charge, hid]
      by_cases hasks : w.gateway.asks w.now r = true
      · rw [if_pos hasks, if_pos ⟨rfl, hasks⟩]
        rfl
      · rw [if_neg hasks, if_neg fun h => hasks h.2]
        rfl
  | respond service id backend =>
    by_cases hid : w.subjects.lookup id = some (.service service)
    · rw [now_respond hid, gateway_respond hid,
        (Gateway.unaware_respond w.now id backend).limiter_eq w.gateway]
      rfl
    · rw [step_respond_apart hid]
      rfl
  | cancel id => rfl
  | advance span =>
    rw [now_advance, gateway_advance]
    dsimp only
    rw [swept_eq, charge]
    split <;> rfl
  | sweep => rfl

/-- A run of a gateway is a run of its limiter. -/
theorem limited_foldl (w : World α) (steps : List Step) :
    (steps.foldl step w).limited = w.limited.run Limiter.act (w.charges steps) := by
  induction steps generalizing w with
  | nil => rfl
  | cons x steps ih =>
    rw [List.foldl_cons, ih, limited_step, charges, Instant.run_append]

/-! ## Runs that are the same to a client -/

/-- The limiter is asked about requests to the paths of one of them if it is about the other. -/
def SameGate (c : Config) (r r' : Request) : Prop :=
  (Resource.ofPath c.admin.enabled r.uri.path).isAdmin =
    (Resource.ofPath c.admin.enabled r'.uri.path).isAdmin

/-- Steps that are the same to a client, but for what the requests hold and what the backends do. -/
inductive SameTo (c : Config) (client : String) : Step → Step → Prop where
  /-- Requests from the same address, if both or none are for the admin interface. -/
  | request (id : String) (fresh fresh' : Bytes) {r r' : Request}
    (hpeer : (r.peer.map fun e => e.ip) = r'.peer.map fun e => e.ip) (hgate : SameGate c r r') :
    SameTo c client (.request id fresh r) (.request id fresh' r')
  /-- Requests of other clients. -/
  | others (id : String) (fresh fresh' : Bytes) {r r' : Request} (hr : r.client ≠ client)
    (hr' : r'.client ≠ client) : SameTo c client (.request id fresh r) (.request id fresh' r')
  | respond (service id service' id' : String) (backend backend' : Backend) :
    SameTo c client (.respond service id backend) (.respond service' id' backend')
  | cancel (id id' : String) : SameTo c client (.cancel id) (.cancel id')
  | advance (span : Span) : SameTo c client (.advance span) (.advance span)
  | sweep : SameTo c client .sweep .sweep

/-- Worlds that are the same to a client, as far as the limiter is concerned. -/
structure SameFor (c : Config) (client : String) (w w' : World α) : Prop where
  config : w.gateway.config = c
  config' : w'.gateway.config = c
  names : ∀ id, (w.subjects.lookup id).isSome = (w'.subjects.lookup id).isSome
  sweeper : w.server.sweeper = w'.server.sweeper
  keyed : w.gateway.limiter.Keyed
  keyed' : w'.gateway.limiter.Keyed
  alike : Limiter.Alike client w.limited w'.limited

theorem keyed_run (s : Instant (Limiter α)) (hs : s.state.Keyed)
    (moves : List (Move Limiter.Action)) : (s.run Limiter.act moves).state.Keyed := by
  induction moves generalizing s with
  | nil => exact hs
  | cons m moves ih => exact ih _ (Limiter.keyed_move s hs m)

theorem keyed_step {w : World α} (h : w.gateway.limiter.Keyed) (x : Step) :
    (w.step x).gateway.limiter.Keyed := by
  have hstep := congrArg Instant.state (w.limited_step x)
  change (w.step x).limited.state.Keyed
  rw [hstep]
  exact keyed_run _ h _

theorem names_step (w : World α) (x : Step) (name : String) :
    ((w.step x).subjects.lookup name).isSome =
      ((w.subjects.lookup name).isSome || match x with
        | .request id _ _ => name == id
        | _ => false) := by
  cases x with
  | request id fresh r =>
    cases hid : w.subjects.lookup id with
    | some subject =>
      rw [step_request_used (by rw [hid]; rfl)]
      by_cases hname : name = id
      · simp [hname, hid]
      · simp [hname]
    | none =>
      rw [subjects_request hid, List.lookup_cons]
      by_cases hname : name = id
      · simp [hname]
      · simp [beq_false_of_ne hname]
  | respond service id backend =>
    by_cases hid : w.subjects.lookup id = some (.service service)
    · rw [subjects_respond hid, Bool.or_false]
    · rw [step_respond_apart hid, Bool.or_false]
  | cancel id => exact (Bool.or_false _).symm
  | advance span => exact (Bool.or_false _).symm
  | sweep => exact (Bool.or_false _).symm

omit [TokenArithmetic α] in
@[simp] theorem sweeper_nextGateway (w : World α) (g : Gateway α) (told : List Seen)
    (events : List Event) : (w.nextGateway g told events).server.sweeper = w.server.sweeper := rfl

omit [TokenArithmetic α] in
theorem sweeper_wake (s : Server α) (now : Moment) :
    (s.wake now).2.1.sweeper =
      s.sweeper.map fun x => if isDue x.next now then x.advance now else x := by
  have hrest : ∀ t : Server α, t.rest.1.sweeper = t.sweeper := by
    intro t
    unfold Server.rest
    split <;> rfl
  unfold Server.wake
  dsimp only
  rw [hrest]
  unfold Server.sweep
  dsimp only
  cases s.sweeper with
  | none => rfl
  | some x =>
    unfold Sweeper.wake
    dsimp only [Option.map]
    split <;> rfl

theorem sweeper_step (w : World α) {x : Step} (hx : ∀ span, x ≠ .advance span) :
    (w.step x).server.sweeper = w.server.sweeper := by
  cases x with
  | request id fresh r =>
    cases hid : w.subjects.lookup id with
    | some subject => rw [step_request_used (by rw [hid]; rfl)]
    | none => rw [step_request hid, sweeper_nextGateway]
  | respond service id backend =>
    by_cases hid : w.subjects.lookup id = some (.service service)
    · rw [step_respond hid, sweeper_nextGateway]
    · rw [step_respond_apart hid]
  | cancel id => exact sweeper_nextGateway ..
  | sweep => exact sweeper_nextGateway ..
  | advance span => exact absurd rfl (hx span)

theorem sweeper_advance (w : World α) (span : Span) :
    (w.step (.advance span)).server.sweeper = w.server.sweeper.map fun x =>
      if isDue x.next (w.now + span) then x.advance (w.now + span) else x := by
  rw [step_advance]
  exact sweeper_wake w.server (w.now + span)

theorem gateway_begin [Idna] (c : Config) (start : Moment) :
    (begin (α := α) c start).gateway = (Gateway.ofConfig c start).1 := by
  unfold begin gateway Server.start
  dsimp only
  split <;> rfl

namespace SameFor

variable {c : Config} {client : String} {w w' : World α}

omit [TokenArithmetic α] in
theorem asks_eq (h : SameFor c client w w') {r r' : Request} (hgate : SameGate c r r') :
    w.gateway.asks w.now r = w'.gateway.asks w'.now r' := by
  unfold Gateway.asks Gateway.timeout Gateway.resource
  rw [h.config, h.config', show w.now = w'.now from h.alike.now, hgate]

omit [TokenArithmetic α] in
/-- The limiter sees the same steps of the client. -/
theorem own_charge (h : SameFor c client w w') {x x' : Step} (hx : SameTo c client x x') :
    Limiter.own client (w.charge x) = Limiter.own client (w'.charge x') := by
  have hnow : w.now = w'.now := h.alike.now
  cases hx with
  | @request id fresh fresh' r r' hpeer hgate =>
    have hnames : (w.subjects.lookup id).isNone = (w'.subjects.lookup id).isNone := by
      rw [← Option.not_isSome, ← Option.not_isSome, h.names id]
    rw [charge, charge, Http.Request.client_eq hpeer, h.asks_eq hgate, hnames]
  | @others id fresh fresh' r r' hr hr' =>
    have hnone : ∀ (v : World α) (q : Request) (f : Bytes), q.client ≠ client →
        Limiter.own client (v.charge (.request id f q)) = [] := by
      intro v q f hq
      rw [charge]
      split
      · simp [Limiter.own, Limiter.isOthers, hq]
      · rfl
    rw [hnone w r fresh hr, hnone w' r' fresh' hr']
  | respond service id service' id' backend backend' => rfl
  | cancel id id' => rfl
  | sweep => rfl
  | advance span =>
    unfold charge isSwept
    rw [h.sweeper, hnow]

theorem step (h : SameFor c client w w') {x x' : Step} (hx : SameTo c client x x') :
    SameFor c client (w.step x) (w'.step x') where
  config := (w.settings_step x).config_eq.trans h.config
  config' := (w'.settings_step x').config_eq.trans h.config'
  names name := by
    rw [names_step, names_step, h.names name]
    cases hx <;> rfl
  sweeper := by
    have hnow : w.now = w'.now := h.alike.now
    cases hx with
    | advance span => rw [sweeper_advance, sweeper_advance, h.sweeper, hnow]
    | _ => rw [sweeper_step _ (by simp), sweeper_step _ (by simp), h.sweeper]
  keyed := keyed_step h.keyed x
  keyed' := keyed_step h.keyed' x'
  alike := by
    rw [limited_step, limited_step]
    exact Limiter.alike_run h.keyed h.keyed' h.alike (h.own_charge hx)

theorem foldl (h : SameFor c client w w') {steps steps' : List Step}
    (hsteps : List.Forall₂ (SameTo c client) steps steps') :
    SameFor c client (steps.foldl World.step w) (steps'.foldl World.step w') := by
  induction hsteps generalizing w w' with
  | nil => exact h
  | cons hx _ ih => exact ih (h.step hx)

/-- The limiter gives the same answers to requests of the client. -/
theorem isLimited_iff (h : SameFor c client w w') (id id' : String) (fresh fresh' : Bytes)
    {r r' : Request} (hr : r.client = client)
    (hpeer : (r.peer.map fun e => e.ip) = r'.peer.map fun e => e.ip) (hgate : SameGate c r r') :
    (∃ a, (w.gateway.arrive w.now id fresh r).1 = .answered a ∧ Gateway.IsLimited a) ↔
      ∃ a, (w'.gateway.arrive w'.now id' fresh' r').1 = .answered a ∧ Gateway.IsLimited a := by
  subst hr
  have hattempt : (w.gateway.limiter.attempt r.client w.now).1 =
      (w'.gateway.limiter.attempt r.client w'.now).1 := h.alike.attempt_fst
  rw [Gateway.isLimited_arrive_iff, Gateway.isLimited_arrive_iff, ← and_assoc, ← and_assoc,
    ← Gateway.asks_iff, ← Gateway.asks_iff, h.asks_eq hgate, hattempt,
    Http.Request.client_eq hpeer]

end SameFor

theorem sameFor_begin [Idna] (c : Config) (client : String) (start : Moment) :
    SameFor c client (begin (α := α) c start) (begin c start) where
  config := gateway_begin (α := α) c start ▸ rfl
  config' := gateway_begin (α := α) c start ▸ rfl
  names _ := rfl
  sweeper := rfl
  keyed := gateway_begin (α := α) c start ▸ Limiter.keyed_new _ _ _ _
  keyed' := gateway_begin (α := α) c start ▸ Limiter.keyed_new _ _ _ _
  alike := (Limiter.alike_equivalence client).refl _

end World

/-! ## The law -/

/-- What a client can do to itself and to others by way of the limiter. -/
structure ClientLaw [Idna] (α : Type) [TokenArithmetic α] (client : String) : Prop where
  /-- A limiter starts with no bucket at all. What follows holds of it, and wherever there is one
  bucket for each client. -/
  keyed : ∀ (capacity : Nat) (rate : α) (idle interval : Span),
    (Limiter.new capacity rate idle interval).Keyed
  /-- A client gets the same answers when the attempts of all others are left out of a run, -/
  answers : ∀ s : Instant (Limiter α), s.state.Keyed → ∀ moves,
    Limiter.answersTo client (s.history Limiter.act moves) =
      Limiter.answersTo client (s.history Limiter.act (Limiter.own client moves))
  /-- and it has the same bucket then, or none, after any part of the run. -/
  bucket : ∀ s : Instant (Limiter α), s.state.Keyed → ∀ moves done, done <+: moves →
    Limiter.own client done <+: Limiter.own client moves ∧
      (s.run Limiter.act done).state.bucket? client =
        (s.run Limiter.act (Limiter.own client done)).state.bucket? client
  /-- Requests from one address are charged to the same bucket, whatever else there is in them, and
  they are refused or admitted alike. -/
  charged : ∀ (g : Gateway α) now id id' timeout timeout' resource resource' (r r' : Request),
    g.config.rateLimit.enabled = true →
    (r.peer.map fun e => e.ip) = (r'.peer.map fun e => e.ip) →
    (g.enter now id timeout resource r).2.1.limiter =
        (g.enter now id' timeout' resource' r').2.1.limiter ∧
      ((∃ a, (g.enter now id timeout resource r).1 = .answered a ∧ Gateway.IsLimited a) ↔
        ∃ a, (g.enter now id' timeout' resource' r').1 = .answered a ∧ Gateway.IsLimited a)
  /-- No request of another client changes the bucket of this one. -/
  apart : ∀ (g : Gateway α) now id timeout resource (r : Request),
    g.config.rateLimit.enabled = true → r.client ≠ client →
    (g.enter now id timeout resource r).2.1.limiter.bucket? client = g.limiter.bucket? client
  /-- A run of a gateway is a run of its limiter. -/
  run : ∀ c start steps, (World.run (α := α) c start steps).limited =
    (Instant.mk start (Limiter.ofConfig c.rateLimit)).run Limiter.act
      ((World.begin (α := α) c start).charges steps)
  /-- Two runs of a gateway in which the client sends its requests from the same address, and which
  differ in all that the requests hold, in what the backends do, and in the requests of other
  clients, are the same to the client: its bucket is the same, and its next request is refused in
  both or in none. Requests to the admin interface are not limited, so they do not take the place of
  others. -/
  contents : ∀ c start steps steps', List.Forall₂ (World.SameTo c client) steps steps' →
    (World.run (α := α) c start steps).gateway.limiter.bucket? client =
        (World.run (α := α) c start steps').gateway.limiter.bucket? client ∧
      ∀ id id' fresh fresh' (r r' : Request), r.client = client →
        (r.peer.map fun e => e.ip) = (r'.peer.map fun e => e.ip) → World.SameGate c r r' →
        ((∃ a, ((World.run (α := α) c start steps).gateway.arrive
              (World.run (α := α) c start steps).now id fresh r).1 = .answered a ∧
            Gateway.IsLimited a) ↔
          ∃ a, ((World.run (α := α) c start steps').gateway.arrive
              (World.run (α := α) c start steps').now id' fresh' r').1 = .answered a ∧
            Gateway.IsLimited a)

/-- **Clients do not affect one another by way of the limiter**, and nothing in a request but the
address it comes from affects what the limiter decides. -/
theorem clientLaw [Idna] (α : Type) [TokenArithmetic α] (client : String) : ClientLaw α client where
  keyed := Limiter.keyed_new
  answers s hs moves :=
    Limiter.answersTo_own hs hs ((Limiter.alike_equivalence client).refl s) moves
  bucket s hs moves done hdone := by
    refine ⟨hdone.filter _, ?_⟩
    have hown : Limiter.own client done = Limiter.own client (Limiter.own client done) := by
      simp [Limiter.own]
    exact (Limiter.alike_run hs hs ((Limiter.alike_equivalence client).refl s) hown).bucket
  charged g now id id' timeout timeout' resource resource' r r' hon hpeer := by
    have hclient := Http.Request.client_eq hpeer
    refine ⟨?_, ?_⟩
    · rw [g.limiter_enter now id timeout resource r hon,
        g.limiter_enter now id' timeout' resource' r' hon, hclient]
    · rw [g.isLimited_enter_iff now id timeout resource r hon,
        g.isLimited_enter_iff now id' timeout' resource' r' hon, hclient]
  apart g now id timeout resource r hon hne := by
    rw [g.limiter_enter now id timeout resource r hon]
    exact g.limiter.bucket?_attempt_of_ne r.client now (Ne.symm hne)
  run c start steps := by
    refine (World.limited_foldl _ steps).trans ?_
    have hbegin : (World.begin (α := α) c start).limited =
        ⟨start, Limiter.ofConfig c.rateLimit⟩ :=
      congrArg (Instant.mk start) (congrArg Gateway.limiter (World.gateway_begin c start))
    rw [hbegin]
  contents c start steps steps' hsteps := by
    have hsame := (World.sameFor_begin (α := α) c client start).foldl hsteps
    exact ⟨hsame.alike.bucket, fun id id' fresh fresh' r r' hr hpeer hgate =>
      hsame.isLimited_iff id id' fresh fresh' hr hpeer hgate⟩

end Gatehouse
