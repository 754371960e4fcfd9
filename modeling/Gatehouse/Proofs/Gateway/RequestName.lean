import Gatehouse.Proofs.Gateway.AdminKey
import Gatehouse.Proofs.Gateway.Timeouts
import Gatehouse.Proofs.Gateway.VerifiedIdentity

/-!
# The name of a request

A request comes in with a name, or is given a fresh one. Whatever becomes of it, its backend is shown
that name and its caller is told it, unless the backend gives its answer a name of its own.

* `Headers.namesOr` : the names of a message, or the one that it is given;
* `values_named`, `values_outgoing` : a request on its way in, an answer on its way out;
* `Response.Unnamed` : the gateway gives no name to its own answers before they go out;
* `Gateway.KeepsName`, `keepsName_enter` : a call keeps the name of its request;
* `NameLaw`, `nameLaw` : all that the caller of a request is told, in every run.
-/

namespace Gatehouse

open Gatehouse.Http Gatehouse.Text

/-! ## Names in headers -/

namespace Http

theorem Headers.values_append (name : List Char) (headers more : Headers) :
    values name (headers ++ more) = values name headers ++ values name more := by
  unfold values
  rw [List.filter_append, List.map_append]

theorem Headers.first?_isSome_iff {name : List Char} {headers : Headers} :
    (first? name headers).isSome = true ↔ values name headers ≠ [] := by
  unfold first?
  rw [Option.isSome_iff_ne_none, ne_eq, List.head?_eq_none_iff]

/-- An entry that is added when there is none of its name is the only one, or is not there. -/
theorem Headers.values_of_missing (name : List Char) (value : Bytes) (headers : Headers) :
    values name (if (first? name headers).isSome = true then headers else headers ++ [⟨name, value⟩]) =
      if values name headers = [] then [value] else values name headers := by
  simp only [Headers.first?_isSome_iff, ne_eq, ite_not]
  split_ifs with hnil
  · rw [Headers.values_append, hnil]
    simp [Headers.values]
  · rfl

/-- The names that a message has, or `name` if it has none. -/
def Headers.namesOr (name : Bytes) (headers : Headers) : List Bytes :=
  if values requestIdHeader headers = [] then [name] else values requestIdHeader headers

theorem Headers.namesOr_ne_nil (name : Bytes) (headers : Headers) : namesOr name headers ≠ [] := by
  unfold namesOr
  split_ifs with h
  · exact List.cons_ne_nil name []
  · exact h

/-- The name of a request: the first one that it comes in with, or else a fresh one. -/
def Request.nameOr (fresh : Bytes) (r : Request) : Bytes :=
  (Headers.first? requestIdHeader r.headers).getD fresh

theorem Request.values_named (fresh : Bytes) (r : Request) :
    Headers.values requestIdHeader (r.named fresh).headers = r.headers.namesOr fresh := by
  unfold named Headers.namesOr
  rw [apply_ite Request.headers]
  exact Headers.values_of_missing requestIdHeader fresh r.headers

theorem Request.name_named (fresh : Bytes) (r : Request) : (r.named fresh).name = r.nameOr fresh := by
  have hname : (r.named fresh).name = (r.headers.namesOr fresh).head?.getD [] :=
    congrArg (fun names => (List.head? names).getD []) (r.values_named fresh)
  rw [hname]
  unfold Headers.namesOr nameOr Headers.first?
  cases Headers.values requestIdHeader r.headers with
  | nil => rfl
  | cons name names => rfl

namespace Response

/-- A response without a name. -/
def Unnamed (r : Response) : Prop := Headers.values requestIdHeader r.headers = []

theorem values_addMissing (name : List Char) (value : Bytes) (r : Response) :
    Headers.values name (r.addMissing name value).headers =
      if Headers.values name r.headers = [] then [value] else Headers.values name r.headers := by
  unfold addMissing
  rw [apply_ite Response.headers]
  exact Headers.values_of_missing name value r.headers

theorem values_addMissing_of_ne {name other : List Char} (h : name ≠ other) (value : Bytes)
    (r : Response) :
    Headers.values name (r.addMissing other value).headers = Headers.values name r.headers := by
  unfold addMissing
  split_ifs
  · rfl
  · rw [Headers.values_append]
    simp [Headers.values, Ne.symm h]

end Response

end Http

/-- The last touch names an answer that has no name yet. -/
theorem values_outgoing (method : Method) (name : Bytes) (refused : Option (List Method))
    (r : Response) :
    Headers.values requestIdHeader (outgoing method name refused r).headers =
      r.headers.namesOr name := by
  have hallow : requestIdHeader ≠ allowHeader := by decide
  rw [Headers.namesOr, ← Response.values_addMissing]
  unfold outgoing
  dsimp only
  split_ifs
  · rfl
  · cases refused with
    | none => rfl
    | some methods => exact Response.values_addMissing_of_ne hallow _ _
  · cases refused with
    | none => rfl
    | some methods => exact Response.values_addMissing_of_ne hallow _ _

theorem values_outgoing_of_unnamed {r : Response} (h : r.Unnamed) (method : Method) (name : Bytes)
    (refused : Option (List Method)) :
    Headers.values requestIdHeader (outgoing method name refused r).headers = [name] := by
  rw [values_outgoing]
  exact if_pos h

/-! ## Answers of the gateway itself -/

theorem unnamed_of_contentType (status : Status) (value body : Bytes) :
    Response.Unnamed ⟨status, [⟨Reply.contentType, value⟩], body⟩ := by
  have hne : Reply.contentType ≠ requestIdHeader := by decide
  simp [Response.Unnamed, Headers.values, hne]

theorem unnamed_json (status : Status) (body : Document.Tree) : (Reply.json status body).Unnamed :=
  unnamed_of_contentType ..

theorem unnamed_bare (status : Status) : (Reply.bare status).Unnamed := rfl

theorem Admin.unnamed_reset (r : Registry) (segment : List Char) (now : Moment) :
    (Admin.reset r segment now).1.Unnamed := by
  cases hname : textOf? (Url.percentDecode segment) with
  | none =>
    rw [reset_of_unreadable now hname]
    exact unnamed_of_contentType ..
  | some service =>
    cases hb : r.get? service with
    | none =>
      rw [reset_of_unknown now hname hb]
      exact unnamed_json ..
    | some b =>
      rw [reset_of_known now hname hb]
      exact unnamed_json ..

/-- A failure is told in the words of the gateway, unless it is an answer of the backend. -/
theorem Dispatcher.unnamed_conclude (service : String) (failure : ForwardingFailure)
    (h : ∀ response, failure ≠ .serverError response) :
    (conclude service (.error failure)).2.1.Unnamed := by
  cases failure with
  | invalidTarget e => exact unnamed_json ..
  | transport => exact unnamed_json ..
  | timeout limit => exact unnamed_json ..
  | serverError response => exact absurd rfl (h response)

/-! ## Calls that begin -/

namespace Dispatcher

/-- A call begins with an answer of the gateway itself, or with the request that the rules write. -/
def Start.Plain (rules : ForwardingRules) (target : Url) (r : Request) : Start → Prop
  | answered verdict => verdict.answer.response.Unnamed
  | sent _ request => ∃ events, outbound rules target r = .ok (request, events)

variable (d : Dispatcher) (now : Moment) (target : Url) (r : Request)

theorem plain_send (service : String) (guarded : Bool) :
    (d.send now service guarded target r).1.Plain d.rules target r := by
  unfold send
  cases ho : outbound d.rules target r with
  | error e =>
    exact unnamed_conclude service (.invalidTarget e) nofun
  | ok sent =>
    dsimp only
    split_ifs
    · exact unnamed_conclude service (.timeout d.backendTimeout) nofun
    · exact ⟨sent.2, ho⟩

theorem plain_start : (d.start now target r).1.Plain d.rules target r := by
  by_cases hrefuses : ∃ b, d.registry.resolve target = some b ∧ b.refuses now = true
  · obtain ⟨b, hb, hr⟩ := hrefuses
    rw [(d.start_of_refuses now r hb hr).1]
    exact unnamed_json ..
  · have hnot : ∀ b, d.registry.resolve target = some b → b.refuses now = false := fun b hb =>
      Bool.eq_false_iff.mpr fun hr => hrefuses ⟨b, hb, hr⟩
    obtain ⟨sent, rfl, hstart, -⟩ := d.start_of_not_refuses now r hnot
    rw [hstart]
    exact plain_send _ now target r _ _

end Dispatcher

/-! ## Requests that come in -/

namespace Gateway

variable {α : Type}

theorem unnamed_administer (g : Gateway α) (now : Moment) (resource : Resource) (r : Request) :
    (g.administer now resource r).1.Unnamed := by
  by_cases hshown : g.KeyShown r
  · rw [g.administer_of_shown now resource hshown]
    unfold handle
    split_ifs
    · cases resource with
      | status => exact unnamed_json ..
      | breakers => exact unnamed_json ..
      | reset segment => exact Admin.unnamed_reset ..
      | health => exact unnamed_bare _
      | backend => exact unnamed_bare _
    · exact unnamed_bare _
  · obtain ⟨events, -, hrefused⟩ := g.administer_of_not_shown now resource hshown
    rw [hrefused]
    exact unnamed_bare _

/-- What comes of a request `r` when it comes in as `id`: an answer of the gateway itself, which has
no name yet, or one more call, which keeps the name of the request and sends what the rules write. -/
inductive KeepsName (rules : ForwardingRules) (calls : List Call) (id : String) (r : Request) :
    Arrival × Gateway α × List Event → Prop
  | answered {a : Answer} {g : Gateway α} {events : List Event} (hcalls : g.calls = calls)
    (hown : a.response.Unnamed) : KeepsName rules calls id r (.answered a, g, events)
  | sent {request : Outbound} {g : Gateway α} {events written : List Event} {target : Url}
    {forward : Forward} {i : Inbound} (hwritten : outbound rules target r = .ok (request, written))
    (hcalls : g.calls = calls ++ [⟨id, forward, some i⟩]) (hname : i.requestId = r.name) :
    KeepsName rules calls id r (.sent request, g, events)

section Arrive
variable (g : Gateway α) (now : Moment) (id : String) (timeout : Moment) (r : Request)

theorem keepsName_route : KeepsName g.dispatcher.rules g.calls id r (g.route now id timeout r) := by
  have h := g.routed now id timeout r
  generalize g.route now id timeout r = x at h ⊢
  cases h with
  | unrouted hroute => exact .answered rfl (unnamed_json ..)
  | @answered route v d events hroute hstart =>
    have hplain := g.dispatcher.plain_start now route.target r
    rw [hstart] at hplain
    exact .answered rfl hplain
  | @sent route forward request d events hroute hstart =>
    have hplain := g.dispatcher.plain_start now route.target r
    rw [hstart] at hplain
    obtain ⟨written, hwritten⟩ := hplain
    exact .sent hwritten rfl rfl

variable [TokenArithmetic α]

theorem keepsName_enter (resource : Resource) :
    KeepsName g.dispatcher.rules g.calls id r (g.enter now id timeout resource r) := by
  have h := g.entered now id timeout r resource
  generalize g.enter now id timeout resource r = x at h ⊢
  cases h with
  | limited l outcome => exact .answered rfl (unnamed_json ..)
  | healthy l => exact .answered rfl (unnamed_json ..)
  | notAllowed l => exact .answered rfl (unnamed_bare _)
  | routed l hbackend => exact { g with limiter := l }.keepsName_route now id timeout r

theorem values_lastTouch (resource : Resource) (fresh : Bytes) {a : Answer}
    (h : a.response.Unnamed) :
    Headers.values requestIdHeader (lastTouch resource (r.named fresh) a).response.headers =
      [r.nameOr fresh] := by
  rw [← r.name_named fresh]
  exact values_outgoing_of_unnamed h _ _ _

/-- A request that comes in is answered under its name, or its call and its backend have the name. -/
theorem names_arrive (fresh : Bytes) :
    (∃ a, (g.arrive now id fresh r).1 = .answered a ∧
      (g.arrive now id fresh r).2.1.calls = g.calls ∧
      Headers.values requestIdHeader a.response.headers = [r.nameOr fresh]) ∨
    ∃ request forward i, (g.arrive now id fresh r).1 = .sent request ∧
      (g.arrive now id fresh r).2.1.calls = g.calls ++ [⟨id, forward, some i⟩] ∧
      i.requestId = r.nameOr fresh ∧
      Headers.values requestIdHeader request.headers = r.headers.namesOr fresh := by
  have hnot : requestIdHeader ∉ gatewayHeaders := by decide
  rw [arrive_eq]
  split_ifs with hdue hadmin
  · exact .inl ⟨_, rfl, rfl, values_lastTouch r _ fresh (unnamed_bare _)⟩
  · have hunnamed := g.unnamed_administer now (g.resource (r.named fresh)) (r.named fresh)
    obtain ⟨registry, -, hg⟩ := g.administer_eq now (r.named fresh) (g.resource (r.named fresh))
    refine .inl ⟨_, rfl, ?_, values_lastTouch r _ fresh hunnamed⟩
    rw [touched_snd, hg]
    rfl
  · have hkeeps := g.keepsName_enter now id (g.timeout now) (r.named fresh)
      (g.resource (r.named fresh))
    generalize g.enter now id _ _ _ = x at hkeeps ⊢
    cases hkeeps with
    | answered hcalls hown => exact .inl ⟨_, rfl, hcalls, values_lastTouch r _ fresh hown⟩
    | @sent request _ _ _ _ forward i hwritten hcalls hname =>
      refine .inr ⟨request, forward, i, rfl, hcalls, hname.trans (r.name_named fresh), ?_⟩
      rw [(forwarded_of_outbound hwritten).others _ hnot]
      exact r.values_named fresh

end Arrive

/-! ## Calls that end -/

/-- An answer that relays the one of the backend: its status, and its names if it has any. -/
structure Relays (name : Bytes) (b : Response) (a : Answer) : Prop where
  status_eq : a.response.status = b.status
  outcome_eq : a.outcome = some (.ofStatus b.status)
  names_eq : Headers.values requestIdHeader a.response.headers = b.headers.namesOr name

section Farewell
variable {k : Call} {i : Inbound} (hi : k.inbound = some i) (now : Moment)
include hi

theorem farewell_response (result : Except ForwardingFailure Response) :
    (farewell k now result).response =
      outgoing i.method i.requestId none (Dispatcher.conclude k.forward.service result).2.1 := by
  unfold farewell leave
  rw [hi]
  rfl

theorem relays_farewell (limit : Span) (b : Response) :
    Relays i.requestId b (farewell k now ((Backend.answers b).result limit)) := by
  have hconclude : (Dispatcher.conclude k.forward.service ((Backend.answers b).result limit)).1 =
        .ofStatus b.status ∧
      (Dispatcher.conclude k.forward.service ((Backend.answers b).result limit)).2.1 = b := by
    rcases Nat.lt_or_ge b.status.code 500 with hlt | hge
    · rw [Backend.result_of_lt hlt]
      exact ⟨rfl, rfl⟩
    · rw [Backend.result_of_le hge]
      exact ⟨rfl, rfl⟩
  refine ⟨?_, ?_, ?_⟩
  · rw [farewell_status, hconclude.2]
  · rw [farewell_outcome, hconclude.1]
  · rw [farewell_response hi, values_outgoing, hconclude.2]

theorem values_farewell {failure : ForwardingFailure}
    (h : ∀ response, failure ≠ .serverError response) :
    Headers.values requestIdHeader (farewell k now (.error failure)).response.headers =
      [i.requestId] := by
  rw [farewell_response hi]
  exact values_outgoing_of_unnamed (Dispatcher.unnamed_conclude _ failure h) _ _ _

theorem names_of_fate {limit : Span} {steps : List Step} {a : Answer}
    (ha : a ∈ (fate limit k now steps).answers k) :
    Headers.values requestIdHeader a.response.headers = [i.requestId] ∨
      ∃ service b, .respond service k.id (.answers b) ∈ steps ∧ Relays i.requestId b a := by
  cases hf : fate limit k now steps with
  | underWay =>
    rw [hf] at ha
    cases ha
  | abandoned =>
    rw [hf] at ha
    cases ha
  | cutOff =>
    rw [hf] at ha
    obtain ⟨j, hj, rfl⟩ := List.mem_map.mp ha
    rw [hi, Option.toList_some, List.mem_singleton] at hj
    subst hj
    exact .inl (values_outgoing_of_unnamed (unnamed_bare _) _ _ _)
  | ended moment result =>
    rw [hf] at ha
    obtain rfl := List.mem_singleton.mp ha
    obtain ⟨before, x, after, rfl, -, hx⟩ := exists_of_fate hf rfl
    cases hx with
    | timedOut hcut hdue => exact .inl (values_farewell hi _ nofun)
    | @responded service backend hservice =>
      cases backend with
      | answers b =>
        exact .inr ⟨service, b, List.mem_append_right _ List.mem_cons_self,
          relays_farewell hi _ limit b⟩
      | breaksOff => exact .inl (values_farewell hi _ nofun)
      | keepsSilent => exact .inl (values_farewell hi _ nofun)

end Farewell

end Gateway

/-! ## Every request -/

namespace World

variable {α : Type} [TokenArithmetic α]

section Request
variable {c : Config} {w : World α} (h : Orderly c w) {id : String}
  (hid : w.subjects.lookup id = none) {fresh : Bytes} {r : Request}
include h hid

theorem answersTo_of_answered {a : Answer}
    (harrive : (w.gateway.arrive w.now id fresh r).1 = .answered a)
    (hcalls : (w.gateway.arrive w.now id fresh r).2.1.calls = w.gateway.calls) (steps : List Step) :
    (steps.foldl step (w.step (.request id fresh r))).answersTo id = [a] := by
  have hknown : ((w.step (.request id fresh r)).subjects.lookup id).isSome = true := by
    rw [subjects_request hid, List.lookup_cons_self]
    rfl
  have hcall : (w.step (.request id fresh r)).gateway.call? id = none := by
    rw [gateway_request hid, ← call?_of_unknown h hid]
    unfold Gateway.call?
    rw [hcalls]
  have hanswers := (fares_run (h.step (.request id fresh r)) hknown steps).answers
  rw [hcall, answersTo_of_told (told_request hid fresh r) id, answersTo_of_unknown h hid,
    harrive] at hanswers
  rw [hanswers]
  simp [Gateway.Arrival.answer?]

theorem exists_call_named {request : Outbound}
    (hsent : (w.gateway.arrive w.now id fresh r).1 = .sent request) :
    ∃ k i, (w.step (.request id fresh r)).gateway.call? id = some k ∧ k.inbound = some i ∧
      i.requestId = r.nameOr fresh ∧
      Headers.values requestIdHeader request.headers = r.headers.namesOr fresh := by
  rcases w.gateway.names_arrive w.now id r fresh with
    ⟨a, ha, -⟩ | ⟨_, forward, i, harrive, hcalls, hname, hvalues⟩
  · rw [hsent] at ha
    cases ha
  · rw [hsent] at harrive
    obtain rfl := Gateway.Arrival.sent.inj harrive
    refine ⟨⟨id, forward, some i⟩, i, ?_, rfl, hname, hvalues⟩
    have hold : (w.gateway.calls.find? fun k => k.id = id) = none := call?_of_unknown h hid
    unfold Gateway.call?
    rw [gateway_request hid, hcalls, List.find?_append, hold]
    simp

theorem values_of_answered {a : Answer}
    (harrive : (w.gateway.arrive w.now id fresh r).1 = .answered a) :
    Headers.values requestIdHeader a.response.headers = [r.nameOr fresh] ∧
      ∀ steps : List Step, (steps.foldl step (w.step (.request id fresh r))).answersTo id = [a] := by
  rcases w.gateway.names_arrive w.now id r fresh with
    ⟨_, hanswered, hcalls, hname⟩ | ⟨_, _, _, hsent, -⟩
  · rw [harrive] at hanswered
    obtain rfl := Gateway.Arrival.answered.inj hanswered
    exact ⟨hname, answersTo_of_answered h hid harrive hcalls⟩
  · rw [harrive] at hsent
    cases hsent

theorem values_of_mem_answersTo {steps : List Step} {a : Answer}
    (ha : a ∈ (steps.foldl step (w.step (.request id fresh r))).answersTo id) :
    Headers.values requestIdHeader a.response.headers = [r.nameOr fresh] ∨
      ∃ service b, .respond service id (.answers b) ∈ steps ∧
        Gateway.Relays (r.nameOr fresh) b a := by
  cases harrive : (w.gateway.arrive w.now id fresh r).1 with
  | answered b =>
    obtain ⟨hname, hsteps⟩ := values_of_answered h hid harrive
    rw [hsteps, List.mem_singleton] at ha
    exact .inl (ha ▸ hname)
  | sent request =>
    obtain ⟨k, i, hk, hi, hname, -⟩ := exists_call_named h hid harrive
    have hnone := answersTo_of_sent h hid harrive
    rw [(fate_of_call? (h.step _) hk hnone steps).2] at ha
    rw [← hname, ← (Gateway.of_call? hk).1]
    exact Gateway.names_of_fate hi _ ha

/-- The answer of the backend is relayed while the request is under way. -/
theorem relays_of_respond {request : Outbound}
    (hsent : (w.gateway.arrive w.now id fresh r).1 = .sent request) :
    ∃ service, (w.step (.request id fresh r)).subjects.lookup id = some (.service service) ∧
      ∀ (before : List Step) (b : Response) (after : List Step),
        (before.foldl step (w.step (.request id fresh r))).answersTo id = [] →
        .cancel id ∉ before →
        ∃ a, ((before ++ .respond service id (.answers b) :: after).foldl step
            (w.step (.request id fresh r))).answersTo id = [a] ∧
          Gateway.Relays (r.nameOr fresh) b a := by
  obtain ⟨k, i, hk, hi, hname, -⟩ := exists_call_named h hid hsent
  have hnone := answersTo_of_sent h hid hsent
  have hafter := h.step (.request id fresh r)
  obtain ⟨rfl, hkmem⟩ := Gateway.of_call? hk
  obtain ⟨j, hj, hsubject⟩ := hafter.known k hkmem
  obtain rfl : i = j := Option.some.inj (hi.symm.trans hj)
  refine ⟨i.service, hsubject, fun before b after hbefore hcancel => ?_⟩
  rw [(fate_of_call? hafter hk hnone before).2] at hbefore
  have hanswers :=
    (fate_of_call? hafter hk hnone (before ++ .respond i.service k.id (.answers b) :: after)).2
  rw [fate_respond hi hbefore hcancel] at hanswers
  exact ⟨_, hanswers, hname ▸ Gateway.relays_farewell hi _ _ b⟩

end Request

/-- What the caller of a request is told that comes in as `id` in the step from `w` to `w'`. -/
structure NameLaw (w w' : World α) (id : String) (fresh : Bytes) (r : Request) : Prop where
  /-- Every answer has a name. -/
  named : ∀ (steps : List Step) (a : Answer), a ∈ (steps.foldl step w').answersTo id →
    Headers.values requestIdHeader a.response.headers ≠ []
  /-- If the gateway answers at once, whatever it says, it is the name of the request, and the caller
  is told nothing else. -/
  answered : ∀ a, (w.gateway.arrive w.now id fresh r).1 = .answered a →
    Headers.values requestIdHeader a.response.headers = [r.nameOr fresh] ∧
      ∀ steps : List Step, (steps.foldl step w').answersTo id = [a]
  /-- If a backend is contacted, it sees the names that the request has, or the fresh one. -/
  contacted : ∀ request, (w.gateway.arrive w.now id fresh r).1 = .sent request →
    Headers.values requestIdHeader request.headers = r.headers.namesOr fresh ∧ w'.answersTo id = []
  /-- The caller is told the name of the request, unless the answer is one of the backend that has
  names of its own, which are kept. -/
  told : ∀ (steps : List Step) (a : Answer), a ∈ (steps.foldl step w').answersTo id →
    Headers.values requestIdHeader a.response.headers = [r.nameOr fresh] ∨
      ∃ service b, .respond service id (.answers b) ∈ steps ∧ Gateway.Relays (r.nameOr fresh) b a
  /-- An answer of the backend is told when the request is still under way, under its own names if
  it has any. -/
  relayed : ∀ request, (w.gateway.arrive w.now id fresh r).1 = .sent request →
    ∃ service, w'.subjects.lookup id = some (.service service) ∧
      ∀ (before : List Step) (b : Response) (after : List Step),
        (before.foldl step w').answersTo id = [] → .cancel id ∉ before →
        ∃ a, ((before ++ .respond service id (.answers b) :: after).foldl step w').answersTo id = [a] ∧
          Gateway.Relays (r.nameOr fresh) b a

/-- **Every answer carries the name of its request**, or the name that its backend has given it. -/
theorem nameLaw [Idna] (c : Config) (start : Moment) (earlier : List Step) (id : String)
    (fresh : Bytes) (r : Request) (hid : (run (α := α) c start earlier).subjects.lookup id = none) :
    NameLaw (run (α := α) c start earlier)
      ((run c start earlier).step (.request id fresh r)) id fresh r := by
  have h := orderly_run (α := α) c start earlier
  refine ⟨?_, fun a => values_of_answered h hid, ?_, fun steps a => values_of_mem_answersTo h hid,
    fun request => relays_of_respond h hid⟩
  · intro steps a ha
    rcases values_of_mem_answersTo h hid ha with hname | ⟨service, b, -, hrelays⟩
    · rw [hname]
      exact List.cons_ne_nil _ _
    · rw [hrelays.names_eq]
      exact Headers.namesOr_ne_nil _ _
  · intro request hsent
    obtain ⟨k, i, -, -, -, hvalues⟩ := exists_call_named h hid hsent
    exact ⟨hvalues, answersTo_of_sent h hid hsent⟩

/-- The names that the caller of a request without a name is told in a run, the fresh one being `7`. -/
def namesTold [Idna] (steps : List Step) : List (List Bytes) :=
  ((run (α := Rat) slowBackend 0 (.request "1" (bytesOf "7") slowVisit :: steps)).answersTo "1").map
    fun a => Headers.values requestIdHeader a.response.headers

/-- The backend is too slow, gives an answer without a name, and one with a name of its own. -/
theorem nameLaw_slowBackend :
    (run (α := Rat) slowBackend 0 []).subjects.lookup "1" = none ∧
      NameLaw (run (α := Rat) slowBackend 0 [])
        ((run slowBackend 0 []).step (.request "1" (bytesOf "7") slowVisit)) "1" (bytesOf "7")
        slowVisit ∧
      namesTold [.advance (Span.seconds 60)] = [[bytesOf "7"]] ∧
      namesTold [.respond "a" "1" (.answers ⟨.ok, [], []⟩)] = [[bytesOf "7"]] ∧
      namesTold [.respond "a" "1" (.answers ⟨.ok, [⟨requestIdHeader, bytesOf "b"⟩], []⟩)] =
        [[bytesOf "b"]] := by
  refine ⟨rfl, nameLaw slowBackend 0 [] "1" (bytesOf "7") slowVisit rfl, ?_⟩
  unfold namesTold run begin Gateway.ofConfig
  rw [Routing.Table.ofConfig_of_pairwise (by decide +kernel)]
  decide +kernel

end World

end Gatehouse
