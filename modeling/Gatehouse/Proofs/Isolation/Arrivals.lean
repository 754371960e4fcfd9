import Gatehouse.Proofs.Gateway.Ways
import Gatehouse.Proofs.Isolation.Requests

/-!
# Requests that come in

A request that comes in is told apart by what its answer tells about. If that is a service, all that
comes of it has to do with the service; if not, the same comes of it whatever that service is like.

* `Gateway.Private` : all that comes of a request has to do with a service;
* `Gateway.Agree` : the same comes of a request on both sides, or on both sides it is private;
* `Gateway.Near.arrive` : so it is for every request.
-/

namespace Gatehouse

open Gatehouse.Http Gatehouse.Routing Gatehouse.Text

/-! ## Breakers that are reset -/

namespace Registry

variable (r : Registry) (service : String) (now : Moment)

theorem near_reset :
    Near service (r.reset service now).2.1 r ∧ Event.Labelled service (r.reset service now).2.2 := by
  unfold reset
  cases hb : r.get? service with
  | none => exact ⟨.refl service r, Event.labelled_of_measurements_eq_nil rfl service⟩
  | some b =>
    have hs : b.service = service := service_of_get? hb
    have hnear := r.near_replace (b.reset now).1
    have hlabel := Breaker.labelled_reset b now
    rw [Breaker.service_reset, hs] at hnear
    rw [hs] at hlabel
    exact ⟨hnear, hlabel⟩

variable {service}

theorem Near.reset {apart : String} {r₁ r₂ : Registry} (h : Near apart r₁ r₂)
    (hn : service ≠ apart) :
    (r₁.reset service now).1 = (r₂.reset service now).1 ∧
      Near apart (r₁.reset service now).2.1 (r₂.reset service now).2.1 ∧
      (r₁.reset service now).2.2 = (r₂.reset service now).2.2 := by
  unfold Registry.reset
  rw [h.get? service hn]
  cases r₂.get? service with
  | none => exact ⟨rfl, h, rfl⟩
  | some b => exact ⟨rfl, h.replace _, rfl⟩

end Registry

namespace Admin

variable {segment : List Char} {service : String} (now : Moment)

theorem near_reset (r : Registry) (hs : textOf? (Url.percentDecode segment) = some service) :
    (reset r segment now).2.1.Near service r ∧ Event.Labelled service (reset r segment now).2.2 := by
  have h := r.near_reset service now
  unfold reset
  rw [hs]
  dsimp only
  split
  · rename_i heq
    rw [heq] at h
    exact h
  · rename_i heq
    rw [heq] at h
    exact ⟨h.1, h.2.append (Event.labelled_of_measurements_eq_nil rfl service)⟩

/-- Another service, or none, is named. -/
theorem near_reset_apart {apart : String} {r₁ r₂ : Registry} (h : r₁.Near apart r₂)
    (hs : textOf? (Url.percentDecode segment) ≠ some apart) :
    (reset r₁ segment now).1 = (reset r₂ segment now).1 ∧
      (reset r₁ segment now).2.1.Near apart (reset r₂ segment now).2.1 ∧
      (reset r₁ segment now).2.2 = (reset r₂ segment now).2.2 := by
  unfold reset
  cases hname : textOf? (Url.percentDecode segment) with
  | none => exact ⟨rfl, h, rfl⟩
  | some service =>
    have hn : service ≠ apart := fun he => hs (he ▸ hname)
    have hreset := h.reset now hn
    dsimp only
    generalize r₁.reset service now = x₁ at hreset ⊢
    generalize r₂.reset service now = x₂ at hreset ⊢
    obtain ⟨found, r₁', events⟩ := x₁
    obtain ⟨_, r₂', _⟩ := x₂
    obtain ⟨rfl, hnear, rfl⟩ := hreset
    cases found with
    | false => exact ⟨rfl, hnear, rfl⟩
    | true =>
      dsimp only
      rw [hnear.get? service hn]
      exact ⟨rfl, hnear, rfl⟩

end Admin

namespace Gateway

variable {α : Type}

/-! ## What comes of a request -/

/-- All that comes of a request has to do with a service. -/
structure Private (service : String) (subject : Subject) (x : Arrival × Gateway α × List Event) :
    Prop where
  concerns : subject.concerns service = true
  labelled : Event.Labelled service x.2.2
  notLimited : ∀ a, x.1 = .answered a → a.outcome ≠ some .rateLimited

/-- The same comes of a request on both sides, or on both sides it is private to the service. -/
def Agree (service : String) (subject : Subject) (x y : Arrival × Gateway α × List Event) : Prop :=
  Near service x.2.1 y.2.1 ∧
    ((x.1 = y.1 ∧ x.2.2 = y.2.2) ∨ (Private service subject x ∧ Private service subject y))

theorem Agree.of_same {service : String} {subject : Subject} {g₁ g₂ : Gateway α}
    (h : Near service g₁ g₂) (arrival : Arrival) (events : List Event) :
    Agree service subject (arrival, g₁, events) (arrival, g₂, events) :=
  ⟨h, .inl ⟨rfl, rfl⟩⟩

/-- What is private is not seen by others, and the rest is seen in the same way. -/
theorem Agree.alike {service : String} {subject : Subject} {x y : Arrival × Gateway α × List Event}
    (h : Agree service subject x y) (id : String) :
    Seen.Alike service [.ofArrival id subject x.1] [.ofArrival id subject y.1] ∧
      Seen.Alike service (Seen.ofEvents x.2.2) (Seen.ofEvents y.2.2) := by
  obtain ⟨-, ⟨ha, he⟩ | ⟨hx, hy⟩⟩ := h
  · exact ⟨.of_eq (by rw [ha]), .of_eq (by rw [he])⟩
  · have hidden : ∀ {z : Arrival × Gateway α × List Event}, Private service subject z →
        Seen.Alike service [.ofArrival id subject z.1] [] := by
      intro z hz
      refine Seen.alike_nil fun s hs => ?_
      obtain rfl := List.mem_singleton.mp hs
      cases hz1 : z.1 with
      | answered a =>
        unfold Seen.ofArrival
        dsimp only
        rw [if_neg (hz.notLimited a hz1)]
        exact hz.concerns
      | sent request => exact hz.concerns
    exact ⟨(hidden hx).trans (hidden hy).symm,
      (Seen.alike_ofEvents_nil hx.labelled).trans (Seen.alike_ofEvents_nil hy.labelled).symm⟩

/-! ## Routed requests -/

theorem subject_of_admin (g : Gateway α) {r : Request} (h : (g.resource r).isAdmin = true) :
    g.subject r = Admin.subject g.config.admin.apiKey.toList (g.resource r) r :=
  if_pos h

theorem subject_of_backend (g : Gateway α) {r : Request} (h : g.resource r = .backend)
    {route : Route} (hf : g.table.find? r.method r.uri.path = some route) :
    g.subject r = .service route.service := by
  unfold subject
  rw [h, hf]
  rfl

section Route
variable {service : String} {g g₁ g₂ : Gateway α} (now : Moment) (id : String) (timeout : Moment)
  (r : Request)

theorem near_route {route : Route} (hf : g.table.find? r.method r.uri.path = some route)
    (hs : g.registry.serviceName route.target = route.service)
    (hb : (g.registry.get? route.service).isSome = true) :
    Near route.service (g.route now id timeout r).2.1 g ∧
      Private route.service (.service route.service) (g.route now id timeout r) := by
  obtain ⟨hnear, hlabel, hcall⟩ := g.dispatcher.near_start now r hs hb
  have hne := fun v => g.dispatcher.start_ne_rateLimited now route.target r (v := v)
  unfold Gateway.route
  rw [hf]
  dsimp only
  generalize g.dispatcher.start now route.target r = x at hnear hlabel hcall hne ⊢
  obtain ⟨start, d, events⟩ := x
  cases start with
  | answered v =>
    refine ⟨⟨rfl, rfl, hnear, rfl, rfl⟩, decide_eq_true rfl, ?_, ?_⟩
    · refine Event.Labelled.append hlabel ?_
      intro m hm
      obtain rfl := List.mem_singleton.mp hm
      rfl
    · rintro a ⟨⟩
      exact hne v rfl
  | sent forward request =>
    refine ⟨⟨rfl, rfl, hnear, rfl, ?_⟩, decide_eq_true rfl, hlabel, nofun⟩
    have hforward : forward.service = route.service := hcall forward.service rfl
    rw [List.filter_append, List.filter_cons_of_neg (by simp [hforward]), List.filter_nil,
      List.append_nil]

theorem Near.route_apart (h : Near service g₁ g₂) (own : OwnBreakers g₂.table g₂.registry)
    (hn : ∀ route, g₂.table.find? r.method r.uri.path = some route → route.service ≠ service) :
    Near service (g₁.route now id timeout r).2.1 (g₂.route now id timeout r).2.1 ∧
      (g₁.route now id timeout r).1 = (g₂.route now id timeout r).1 ∧
      (g₁.route now id timeout r).2.2 = (g₂.route now id timeout r).2.2 := by
  have hfind : g₁.table.find? r.method r.uri.path = g₂.table.find? r.method r.uri.path := by
    rw [h.table]
  unfold Gateway.route
  rw [hfind]
  cases hf : g₂.table.find? r.method r.uri.path with
  | none => exact ⟨h, rfl, rfl⟩
  | some route =>
    obtain ⟨hs, hb⟩ := own route (List.mem_of_find?_eq_some hf)
    have hne : route.service ≠ service := hn route hf
    have hstart := h.dispatcher.start now r (hs.symm ▸ hne) (hs.symm ▸ hb)
    dsimp only
    generalize g₁.dispatcher.start now route.target r = x₁ at hstart ⊢
    generalize g₂.dispatcher.start now route.target r = x₂ at hstart ⊢
    obtain ⟨start, d₁, events⟩ := x₁
    obtain ⟨_, d₂, _⟩ := x₂
    obtain ⟨rfl, hd, rfl⟩ := hstart
    cases start with
    | answered v => exact ⟨⟨h.config, h.table, hd, h.limiter, h.calls⟩, rfl, rfl⟩
    | sent forward request =>
      refine ⟨⟨h.config, h.table, hd, h.limiter, ?_⟩, rfl, rfl⟩
      rw [List.filter_append, List.filter_append, h.calls]

theorem Near.route (h : Near service g₁ g₂) (own : OwnBreakers g₂.table g₂.registry)
    {subject : Subject}
    (hsub : ∀ route, g₂.table.find? r.method r.uri.path = some route →
      subject = .service route.service) :
    Agree service subject (g₁.route now id timeout r) (g₂.route now id timeout r) := by
  by_cases hr : ∃ route, g₂.table.find? r.method r.uri.path = some route ∧ route.service = service
  · obtain ⟨route, hf, hs⟩ := hr
    obtain ⟨hname, hb⟩ := own route (List.mem_of_find?_eq_some hf)
    have same := h.dispatcher.registry.sameServices
    obtain ⟨hnear₁, hprivate₁⟩ := near_route now id timeout r (h.table ▸ hf)
      ((same.serviceName route.target).trans hname) ((same.isSome route.service).trans hb)
    obtain ⟨hnear₂, hprivate₂⟩ := near_route now id timeout r hf hname hb
    rw [hs] at hnear₁ hprivate₁ hnear₂ hprivate₂
    rw [hsub route hf, hs]
    exact ⟨(hnear₁.trans h).trans hnear₂.symm, .inr ⟨hprivate₁, hprivate₂⟩⟩
  · obtain ⟨hnear, ha, he⟩ := h.route_apart now id timeout r own fun route hf hs => hr ⟨route, hf, hs⟩
    exact ⟨hnear, .inl ⟨ha, he⟩⟩

end Route

/-! ## All requests -/

section Arrive
variable [TokenArithmetic α] {service : String} {g₁ g₂ : Gateway α} (now : Moment) (id : String)
  (timeout : Moment) (r : Request)

theorem Near.enter (h : Near service g₁ g₂) (own : OwnBreakers g₂.table g₂.registry)
    (resource : Resource) {subject : Subject}
    (hsub : resource = .backend → ∀ route, g₂.table.find? r.method r.uri.path = some route →
      subject = .service route.service) :
    Agree service subject (g₁.enter now id timeout resource r) (g₂.enter now id timeout resource r) := by
  have hserve : ∀ {k₁ k₂ : Gateway α}, Near service k₁ k₂ → k₂.table = g₂.table →
      k₂.registry = g₂.registry →
      Agree service subject (k₁.serve now id timeout resource r) (k₂.serve now id timeout resource r) := by
    intro k₁ k₂ hk ht hr
    unfold serve
    split
    · exact hk.route now id timeout r (ht.symm ▸ hr.symm ▸ own) (ht.symm ▸ hsub rfl)
    · split_ifs
      · exact .of_same hk _ _
      · exact .of_same hk _ _
  have henabled : g₁.config.rateLimit.enabled = g₂.config.rateLimit.enabled := by rw [h.config]
  have hadmission : g₁.limiter.admission r.client now = g₂.limiter.admission r.client now := by
    rw [h.limiter]
  unfold Gateway.enter
  rw [henabled, hadmission]
  split_ifs
  · have hk : Near service { g₁ with limiter := (g₂.limiter.admission r.client now).2 }
        { g₂ with limiter := (g₂.limiter.admission r.client now).2 } := h.setLimiter rfl
    dsimp only
    split
    · exact hserve hk rfl rfl
    · exact .of_same hk _ _
  · exact hserve h rfl rfl

end Arrive

section Admin
variable {service : String} {g₁ g₂ : Gateway α} (now : Moment)

/-- An answer of the admin interface has to do with the service. -/
theorem private_of_admin {subject : Subject} {events : List Event}
    (hs : subject.concerns service = true) (he : Event.Labelled service events) (a : Response)
    (g : Gateway α) : Private service subject (.answered ⟨a, none⟩, g, events) := by
  refine ⟨hs, he, ?_⟩
  rintro _ ⟨⟩
  exact nofun

theorem Near.reset (h : Near service g₁ g₂) (segment : List Char) :
    Agree service ((textOf? (Url.percentDecode segment)).elim .nothing .service)
      (.answered ⟨(Admin.reset g₁.registry segment now).1, none⟩,
        g₁.withRegistry (Admin.reset g₁.registry segment now).2.1,
        (Admin.reset g₁.registry segment now).2.2)
      (.answered ⟨(Admin.reset g₂.registry segment now).1, none⟩,
        g₂.withRegistry (Admin.reset g₂.registry segment now).2.1,
        (Admin.reset g₂.registry segment now).2.2) := by
  have hd := h.dispatcher
  have near_of : ∀ {r₁ r₂ : Registry}, r₁.Near service r₂ →
      Near service (g₁.withRegistry r₁) (g₂.withRegistry r₂) := by
    intro r₁ r₂ hr
    exact ⟨h.config, h.table, ⟨hr, hd.rules, hd.backendTimeout⟩, h.limiter, h.calls⟩
  by_cases hs : textOf? (Url.percentDecode segment) = some service
  · obtain ⟨hnear₁, hlabel₁⟩ := Admin.near_reset now g₁.registry hs
    obtain ⟨hnear₂, hlabel₂⟩ := Admin.near_reset now g₂.registry hs
    have hconcerns : ((textOf? (Url.percentDecode segment)).elim Subject.nothing
        Subject.service).concerns service = true := by
      rw [hs]
      exact decide_eq_true rfl
    exact ⟨near_of ((hnear₁.trans hd.registry).trans hnear₂.symm),
      .inr ⟨private_of_admin hconcerns hlabel₁ _ _, private_of_admin hconcerns hlabel₂ _ _⟩⟩
  · obtain ⟨ha, hnear, he⟩ := Admin.near_reset_apart now hd.registry hs
    exact ⟨near_of hnear, .inl ⟨congrArg (fun a => Arrival.answered ⟨a, none⟩) ha, he⟩⟩

theorem Near.administer (h : Near service g₁ g₂) (resource : Resource) (r : Request) :
    Agree service (Admin.subject g₂.config.admin.apiKey.toList resource r)
      (.answered ⟨(g₁.administer now resource r).1, none⟩, (g₁.administer now resource r).2)
      (.answered ⟨(g₂.administer now resource r).1, none⟩, (g₂.administer now resource r).2) := by
  have hkey : g₁.config.admin.apiKey.toList = g₂.config.admin.apiKey.toList := by rw [h.config]
  have listing : ∀ a₁ a₂ : Response, Agree service .everything (.answered ⟨a₁, none⟩, g₁, [])
      (.answered ⟨a₂, none⟩, g₂, []) := by
    intro a₁ a₂
    have hlabel : Event.Labelled service [] := Event.labelled_of_measurements_eq_nil rfl service
    exact ⟨h, .inr ⟨private_of_admin rfl hlabel a₁ g₁, private_of_admin rfl hlabel a₂ g₂⟩⟩
  unfold Gateway.administer Admin.subject
  rw [hkey]
  by_cases hauth : Admin.isAuthorised g₂.config.admin.apiKey.toList r.headers = true
  · by_cases hallow : resource.allows r.method = true
    · simp only [hauth, hallow, Bool.not_true, Bool.false_eq_true, if_false, and_self, if_true]
      cases resource with
      | status => exact listing _ _
      | breakers => exact listing _ _
      | reset segment => exact h.reset now segment
      | health => exact .of_same h _ _
      | backend => exact .of_same h _ _
    · simp only [hauth, hallow, Bool.not_true, Bool.not_false, Bool.false_eq_true, if_false, and_false,
        if_true]
      exact .of_same h _ _
  · simp only [hauth, Bool.not_false, if_true]
    exact .of_same h _ _

end Admin

/-- What comes of a request, with the last touch on its answer. -/
def touched (f : Answer → Answer) (x : Arrival × Gateway α × List Event) :
    Arrival × Gateway α × List Event :=
  match x with
  | (.answered a, g, events) => (.answered (f a), g, events)
  | (.sent request, g, events) => (.sent request, g, events)

theorem touched_snd (f : Answer → Answer) (x : Arrival × Gateway α × List Event) :
    (touched f x).2 = x.2 := by
  obtain ⟨_ | _, g, events⟩ := x
  · rfl
  · rfl

/-- A last touch that keeps the outcome of an answer keeps it private. -/
theorem Private.touched {service : String} {subject : Subject} {f : Answer → Answer}
    (hf : ∀ a, (f a).outcome = a.outcome) {x : Arrival × Gateway α × List Event}
    (h : Private service subject x) : Private service subject (touched f x) := by
  refine ⟨h.concerns, ?_, fun a ha => ?_⟩
  · rw [touched_snd]
    exact h.labelled
  · obtain ⟨b | request, g, events⟩ := x
    · obtain rfl : f b = a := Arrival.answered.inj ha
      rw [hf b]
      exact h.notLimited b rfl
    · cases ha

theorem Agree.touched {service : String} {subject : Subject} {f : Answer → Answer}
    (hf : ∀ a, (f a).outcome = a.outcome) {x y : Arrival × Gateway α × List Event}
    (h : Agree service subject x y) : Agree service subject (touched f x) (touched f y) := by
  obtain ⟨hnear, hcase⟩ := h
  refine ⟨?_, ?_⟩
  · rw [touched_snd, touched_snd]
    exact hnear
  · rcases hcase with ⟨ha, he⟩ | ⟨hx, hy⟩
    · obtain ⟨a, g, events⟩ := x
      obtain ⟨_, k, _⟩ := y
      obtain rfl := ha
      obtain rfl := he
      cases a with
      | answered a => exact .inl ⟨rfl, rfl⟩
      | sent request => exact .inl ⟨rfl, rfl⟩
    · exact .inr ⟨hx.touched hf, hy.touched hf⟩

/-- The last touch on the answer to a request. -/
def lastTouch (resource : Resource) (r : Request) (a : Answer) : Answer :=
  { a with response := outgoing r.method r.name (resource.refusal? r.method) a.response }

theorem lastTouch_outcome (resource : Resource) (r : Request) (a : Answer) :
    (lastTouch resource r a).outcome = a.outcome := rfl

/-- When the time of a request that comes in at `now` will have run out. -/
def timeout (g : Gateway α) (now : Moment) : Moment :=
  deadline now (Span.seconds g.config.timeouts.requestSecs.toNat)

/-- The three ways that a request can go, once it has its name. -/
theorem arrive_eq [TokenArithmetic α] (g : Gateway α) (now : Moment) (id : String) (fresh : Bytes)
    (r : Request) :
    g.arrive now id fresh r =
      if isDue (g.timeout now) now = true then
        (.answered (lastTouch (g.resource (r.named fresh)) (r.named fresh)
          ⟨Reply.bare .requestTimeout, none⟩), g, [])
      else if (g.resource (r.named fresh)).isAdmin = true then
        touched (lastTouch (g.resource (r.named fresh)) (r.named fresh))
          (.answered ⟨(g.administer now (g.resource (r.named fresh)) (r.named fresh)).1, none⟩,
            (g.administer now (g.resource (r.named fresh)) (r.named fresh)).2)
      else
        touched (lastTouch (g.resource (r.named fresh)) (r.named fresh))
          (g.enter now id (g.timeout now) (g.resource (r.named fresh)) (r.named fresh)) := rfl

/-- **The same comes of every request** on both sides, but for what has to do with the service. -/
theorem Near.arrive [TokenArithmetic α] {service : String} {g₁ g₂ : Gateway α}
    (h : Near service g₁ g₂) (own : OwnBreakers g₂.table g₂.registry) (now : Moment) (id : String)
    (fresh : Bytes) (r : Request) :
    Agree service (g₂.subject (r.named fresh)) (g₁.arrive now id fresh r)
      (g₂.arrive now id fresh r) := by
  have hresource : g₁.resource (r.named fresh) = g₂.resource (r.named fresh) := by
    unfold resource
    rw [h.config]
  have htimeout : g₁.timeout now = g₂.timeout now := by
    unfold timeout
    rw [h.config]
  rw [arrive_eq, arrive_eq, hresource, htimeout]
  generalize hn : r.named fresh = named
  by_cases hdue : isDue (g₂.timeout now) now = true
  · rw [if_pos hdue, if_pos hdue]
    exact .of_same h _ _
  · rw [if_neg hdue, if_neg hdue]
    by_cases hadmin : (g₂.resource named).isAdmin = true
    · rw [if_pos hadmin, if_pos hadmin, g₂.subject_of_admin hadmin]
      exact (h.administer now (g₂.resource named) named).touched (lastTouch_outcome _ named)
    · rw [if_neg hadmin, if_neg hadmin]
      have henter := h.enter now id (g₂.timeout now) named own (g₂.resource named)
        fun hb _ hf => g₂.subject_of_backend hb hf
      exact henter.touched (lastTouch_outcome _ named)

end Gateway

end Gatehouse
