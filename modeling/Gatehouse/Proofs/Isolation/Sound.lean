import Gatehouse.Proofs.Isolation.Arrivals

/-!
# What every gateway that runs keeps

However a run goes, the breaker of every route's target is that of its service, and it is known from
the subject of a request which service its call goes to.

* `Gateway.Sound` : the invariant;
* `Gateway.Keeps` : what an operation does to the services and to the calls under way;
* `administer_eq` : what the admin interface may change;
* `keeps_respond`, `keeps_expire`, `keeps_arrive` : what the operations of a gateway do to them.
-/

namespace Gatehouse

open Gatehouse.Http Gatehouse.Routing Gatehouse.Text

namespace Call

/-- A call that is made for the request `id`, which is routed as its subject says. -/
structure IsFor (id : String) (subject : Subject) (c : Call) : Prop where
  id_eq : c.id = id
  inbound : ∃ i, c.inbound = some i ∧ i.service = c.forward.service
  subject_eq : subject = .service c.forward.service

theorem IsFor.owned {id : String} {subject : Subject} {c : Call} (h : c.IsFor id subject)
    (subjects : List (String × Subject)) : c.Owned ((id, subject) :: subjects) := by
  refine ⟨h.inbound, ?_⟩
  rw [h.id_eq, List.lookup_cons_self, h.subject_eq]

theorem Owned.cons {id : String} {subjects : List (String × Subject)} {c : Call}
    (h : c.Owned subjects) (hid : subjects.lookup id = none) (subject : Subject) :
    c.Owned ((id, subject) :: subjects) := by
  refine ⟨h.inbound, ?_⟩
  have hne : c.id ≠ id := by
    intro he
    rw [← he, h.subject] at hid
    cases hid
  rw [List.lookup_cons, beq_false_of_ne hne]
  exact h.subject

end Call

theorem Admin.sameServices_reset (r : Registry) (segment : List Char) (now : Moment) :
    (reset r segment now).2.1.SameServices r := by
  cases hname : textOf? (Url.percentDecode segment) with
  | none =>
    unfold reset
    rw [hname]
    exact .refl r
  | some service => exact (near_reset now r hname).1.sameServices

namespace Gateway

variable {α : Type}

/-- The breaker of every route is that of its service, and it is known where the calls go. -/
structure Sound (subjects : List (String × Subject)) (g : Gateway α) : Prop where
  own : OwnBreakers g.table g.registry
  owned : ∀ c ∈ g.calls, c.Owned subjects

/-- The routes and the services stay, and there are no new calls but those that `new` holds of. -/
structure Keeps (new : Call → Prop) (g g' : Gateway α) : Prop where
  table : g'.table = g.table
  services : g'.registry.SameServices g.registry
  calls : ∀ c ∈ g'.calls, c ∈ g.calls ∨ new c

theorem OwnBreakers.of_sameServices {table : Table} {r r' : Registry} (h : OwnBreakers table r)
    (hs : r'.SameServices r) : OwnBreakers table r' := by
  intro route hroute
  obtain ⟨hname, hb⟩ := h route hroute
  exact ⟨(hs.serviceName route.target).trans hname, (hs.isSome route.service).trans hb⟩

theorem Sound.of_keeps {subjects subjects' : List (String × Subject)} {g g' : Gateway α}
    {new : Call → Prop} (h : Sound subjects g) (hk : Keeps new g g')
    (hold : ∀ c : Call, c.Owned subjects → c.Owned subjects')
    (hnew : ∀ c, new c → c.Owned subjects') : Sound subjects' g' := by
  refine ⟨?_, fun c hc => ?_⟩
  · rw [hk.table]
    exact h.own.of_sameServices hk.services
  · rcases hk.calls c hc with hc | hc
    · exact hold c (h.owned c hc)
    · exact hnew c hc

theorem Keeps.weaken {new : Call → Prop} {g g' : Gateway α} (h : Keeps (fun _ => False) g g') :
    Keeps new g g' :=
  ⟨h.table, h.services, fun c hc => .inl ((h.calls c hc).resolve_right not_false)⟩

theorem Sound.of_keeps_none {subjects : List (String × Subject)} {g g' : Gateway α}
    (h : Sound subjects g) (hk : Keeps (fun _ => False) g g') : Sound subjects g' :=
  h.of_keeps hk (fun _ hc => hc) fun _ hc => hc.elim

/-! ## Calls that end -/

section Ends
variable (g : Gateway α) (now : Moment)

theorem keeps_self : Keeps (fun _ => False) g g := ⟨rfl, .refl _, fun _ hc => .inl hc⟩

theorem keeps_limiter (l : Limiter α) : Keeps (fun _ => False) g { g with limiter := l } :=
  ⟨rfl, .refl _, fun _ hc => .inl hc⟩

theorem keeps_removeCall (id : String) : Keeps (fun _ => False) g (g.removeCall id) :=
  ⟨rfl, .refl _, fun _ hc => .inl (List.mem_of_mem_filter hc)⟩

theorem keeps_conclude (call : Call) (result : Except ForwardingFailure Response) :
    Keeps (fun _ => False) g (g.conclude now call result).2.1 :=
  ⟨rfl, (Dispatcher.near_finish g.dispatcher now call.forward result).registry.sameServices,
    fun _ hc => .inl (List.mem_of_mem_filter hc)⟩

theorem keeps_respond (id : String) (backend : Backend) :
    Keeps (fun _ => False) g (g.respond now id backend).2.1 := by
  unfold respond
  cases g.call? id with
  | none => exact g.keeps_self
  | some call => exact g.keeps_conclude now call _

theorem keeps_expire (call : Call) : Keeps (fun _ => False) g (g.expire now call).2.1 := by
  unfold expire
  split
  · split_ifs
    · exact g.keeps_removeCall call.id
    · exact g.keeps_conclude now call _
  · exact g.keeps_conclude now call _

end Ends

/-! ## Requests that come in -/

section Arrive
variable (g : Gateway α) (now : Moment) (id : String) (timeout : Moment) (r : Request)

theorem keeps_route (own : OwnBreakers g.table g.registry) {subject : Subject}
    (hsub : ∀ route, g.table.find? r.method r.uri.path = some route →
      subject = .service route.service) :
    Keeps (·.IsFor id subject) g (g.route now id timeout r).2.1 := by
  have h := g.routed now id timeout r
  generalize g.route now id timeout r = x at h ⊢
  cases h with
  | unrouted hroute => exact g.keeps_self.weaken
  | @answered route v d events hroute hstart =>
    obtain ⟨hs, hb⟩ := own route (List.mem_of_find?_eq_some hroute)
    obtain ⟨hnear, -, -⟩ := g.dispatcher.near_start now r hs hb
    rw [hstart] at hnear
    exact ⟨rfl, hnear.registry.sameServices, fun _ hc => .inl hc⟩
  | @sent route forward request d events hroute hstart =>
    obtain ⟨hs, hb⟩ := own route (List.mem_of_find?_eq_some hroute)
    obtain ⟨hnear, -, hcall⟩ := g.dispatcher.near_start now r hs hb
    rw [hstart] at hnear hcall
    refine ⟨rfl, hnear.registry.sameServices, fun c hc => ?_⟩
    rcases List.mem_append.mp hc with hc | hc
    · exact .inl hc
    · obtain rfl := List.mem_singleton.mp hc
      have hforward : forward.service = route.service := hcall forward.service rfl
      refine .inr ⟨rfl, ⟨_, rfl, hforward.symm⟩, ?_⟩
      rw [hsub route hroute, hforward]

variable [TokenArithmetic α]

theorem keeps_enter (own : OwnBreakers g.table g.registry) (resource : Resource) {subject : Subject}
    (hsub : resource = .backend → ∀ route, g.table.find? r.method r.uri.path = some route →
      subject = .service route.service) :
    Keeps (·.IsFor id subject) g (g.enter now id timeout resource r).2.1 := by
  have h := g.entered now id timeout r resource
  generalize g.enter now id timeout resource r = x at h ⊢
  cases h with
  | limited l outcome => exact (g.keeps_limiter l).weaken
  | healthy l => exact (g.keeps_limiter l).weaken
  | notAllowed l => exact (g.keeps_limiter l).weaken
  | routed l hbackend =>
    have hk := { g with limiter := l }.keeps_route now id timeout r own (hsub hbackend)
    exact ⟨hk.table, hk.services, hk.calls⟩

omit [TokenArithmetic α] in
/-- The admin interface may close circuits, and changes nothing else. -/
theorem administer_eq (resource : Resource) :
    ∃ registry, registry.SameServices g.registry ∧
      (g.administer now resource r).2.1 = g.withRegistry registry := by
  unfold administer
  dsimp only
  by_cases hauth : (!Admin.isAuthorised g.config.admin.apiKey.toList r.headers) = true
  · rw [if_pos hauth]
    exact ⟨g.registry, .refl _, rfl⟩
  · rw [if_neg hauth]
    by_cases hallow : (!resource.allows r.method) = true
    · rw [if_pos hallow]
      exact ⟨g.registry, .refl _, rfl⟩
    · rw [if_neg hallow]
      cases resource with
      | status => exact ⟨g.registry, .refl _, rfl⟩
      | breakers => exact ⟨g.registry, .refl _, rfl⟩
      | reset segment => exact ⟨_, Admin.sameServices_reset g.registry segment now, rfl⟩
      | health => exact ⟨g.registry, .refl _, rfl⟩
      | backend => exact ⟨g.registry, .refl _, rfl⟩

omit [TokenArithmetic α] in
theorem keeps_administer (resource : Resource) :
    Keeps (fun _ => False) g (g.administer now resource r).2.1 := by
  obtain ⟨registry, hservices, hg⟩ := g.administer_eq now r resource
  rw [hg]
  exact ⟨rfl, hservices, fun _ hc => .inl hc⟩

/-- The only call that a request may leave behind is its own. -/
theorem keeps_arrive (own : OwnBreakers g.table g.registry) (fresh : Bytes) :
    Keeps (·.IsFor id (g.subject (r.named fresh))) g (g.arrive now id fresh r).2.1 := by
  rw [arrive_eq]
  by_cases hdue : isDue (g.timeout now) now = true
  · rw [if_pos hdue]
    exact g.keeps_self.weaken
  · rw [if_neg hdue]
    by_cases hadmin : (g.resource (r.named fresh)).isAdmin = true
    · rw [if_pos hadmin, touched_snd]
      exact (g.keeps_administer now _ _).weaken
    · rw [if_neg hadmin, touched_snd]
      exact g.keeps_enter now id _ _ own _ fun hb _ hf => g.subject_of_backend hb hf

end Arrive

end Gateway

end Gatehouse
