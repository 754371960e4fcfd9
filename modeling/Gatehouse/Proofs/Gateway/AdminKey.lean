import Gatehouse.Proofs.Gateway.Admission
import Gatehouse.Proofs.Gateway.SharedPlace
import Gatehouse.Proofs.Routing.Segments

/-!
# The admin interface is closed to those without the key

The key is asked for before anything else is looked at. Without it every request to an endpoint is
answered in the same words, whatever the gateway is like, and nothing changes. With it a request may
look, which changes nothing either, or reset one breaker.

* `Resource.ofPath_eq_iff_of_last`, `Resource.ofPath_eq_reset_iff` : which paths the endpoints have;
* `Admin.Shows`, `Admin.isAuthorised_iff` : headers that show the key;
* `Gateway.handle` : what the endpoints do behind the key;
* `arrive_of_shown`, `arrive_of_not_shown` : what comes of a request;
* `AdminKeyLaw`, `adminKeyLaw` : all of it, for every gateway.
-/

namespace Gatehouse

open Gatehouse.Http Gatehouse.Text

/-! ## Endpoints -/

namespace Resource

def statusPath : List Char := "/admin/status".toList

def breakersPath : List Char := "/admin/breakers".toList

/-- The path of the reset of a service, whose name is written as `segment`. -/
def resetPath (segment : List Char) : List Char :=
  "/admin/breakers/".toList ++ segment ++ "/reset".toList

theorem pieces_eq_three_iff {path a b : List Char} :
    pieces '/' path = [[], a, b] ↔ '/' ∉ a ∧ '/' ∉ b ∧ path = '/' :: (a ++ '/' :: b) := by
  simp only [pieces_eq_cons_cons_iff, pieces_eq_singleton_iff]
  constructor
  · rintro ⟨_, rfl, -, _, rfl, ha, rfl, hb⟩
    exact ⟨ha, hb, rfl⟩
  · rintro ⟨ha, hb, rfl⟩
    exact ⟨_, rfl, List.not_mem_nil, _, rfl, ha, rfl, hb⟩

theorem pieces_eq_five_iff {path a b s c : List Char} :
    pieces '/' path = [[], a, b, s, c] ↔ '/' ∉ a ∧ '/' ∉ b ∧ '/' ∉ s ∧ '/' ∉ c ∧
      path = '/' :: (a ++ '/' :: (b ++ '/' :: (s ++ '/' :: c))) := by
  simp only [pieces_eq_cons_cons_iff, pieces_eq_singleton_iff]
  constructor
  · rintro ⟨_, rfl, -, _, rfl, ha, _, rfl, hb, _, rfl, hs, rfl, hc⟩
    exact ⟨ha, hb, hs, hc, rfl⟩
  · rintro ⟨ha, hb, hs, hc, rfl⟩
    exact ⟨_, rfl, List.not_mem_nil, _, rfl, ha, _, rfl, hb, _, rfl, hs, rfl, hc⟩

theorem resetPath_eq (segment : List Char) :
    resetPath segment =
      '/' :: ("admin".toList ++ '/' :: ("breakers".toList ++ '/' :: (segment ++
        '/' :: "reset".toList))) := by
  have hstart : "/admin/breakers/".toList =
      '/' :: ("admin".toList ++ '/' :: ("breakers".toList ++ ['/'])) := by decide
  have hend : "/reset".toList = '/' :: "reset".toList := by decide
  unfold resetPath
  rw [hstart, hend]
  generalize "admin".toList = a
  generalize "breakers".toList = b
  simp

theorem ofPath_eq_of_isAdmin {admin : Bool} {path : List Char} {resource : Resource}
    (hresource : resource.isAdmin = true) :
    ofPath admin path = resource ↔
      admin = true ∧ path ≠ "/health".toList ∧ ofAdminPath path = resource := by
  unfold ofPath
  split_ifs with hhealth hadmin
  · constructor
    · rintro rfl
      cases hresource
    · exact fun h => absurd hhealth h.2.1
  · exact ⟨fun h => ⟨hadmin, hhealth, h⟩, fun h => h.2.2⟩
  · constructor
    · rintro rfl
      cases hresource
    · exact fun h => absurd h.1 hadmin

/-- The last segment of the path of an endpoint that is not about one service. -/
def last? : Resource → Option (List Char)
  | status => some "status".toList
  | breakers => some "breakers".toList
  | _ => none

theorem isAdmin_of_last {resource : Resource} {last : List Char} (h : resource.last? = some last) :
    resource.isAdmin = true ∧ '/' :: ("admin".toList ++ '/' :: last) ≠ "/health".toList ∧
      ofAdminPath ('/' :: ("admin".toList ++ '/' :: last)) = resource := by
  cases resource with
  | status =>
    obtain rfl := Option.some.inj h
    exact ⟨rfl, by decide, by decide⟩
  | breakers =>
    obtain rfl := Option.some.inj h
    exact ⟨rfl, by decide, by decide⟩
  | health => cases h
  | reset segment => cases h
  | backend => cases h

/-- An endpoint that is not about one service has one path. -/
theorem ofPath_eq_iff_of_last {admin : Bool} {path last : List Char} {resource : Resource}
    (h : resource.last? = some last) : ofPath admin path = resource ↔
      admin = true ∧ path = '/' :: ("admin".toList ++ '/' :: last) := by
  obtain ⟨hadmin, hpath⟩ := isAdmin_of_last h
  rw [ofPath_eq_of_isAdmin hadmin]
  refine and_congr_right fun _ => ⟨?_, ?_⟩
  · rintro ⟨-, rfl⟩
    unfold ofAdminPath at h
    split at h
    · rename_i a b hpieces
      have hsegments : a = "admin".toList ∧ b = last := by
        split_ifs at h with hstatus hbreakers
        · exact ⟨hstatus.1, hstatus.2.trans (Option.some.inj h)⟩
        · exact ⟨hbreakers.1, hbreakers.2.trans (Option.some.inj h)⟩
        · cases h
      rw [hsegments.1, hsegments.2] at hpieces
      exact (pieces_eq_three_iff.mp hpieces).2.2
    · split_ifs at h
      · cases h
      · cases h
    · cases h
  · rintro rfl
    exact hpath

theorem ofPath_eq_reset_iff {admin : Bool} {path segment : List Char} :
    ofPath admin path = .reset segment ↔
      admin = true ∧ segment ≠ [] ∧ '/' ∉ segment ∧ path = resetPath segment := by
  rw [ofPath_eq_of_isAdmin rfl]
  refine and_congr_right fun _ => ⟨fun h => ?_, ?_⟩
  · have hpath := h.2
    unfold ofAdminPath at hpath
    split at hpath
    · split_ifs at hpath
    · rename_i a b s c hpieces
      split_ifs at hpath with hreset
      obtain ⟨ha, hb, hc, hne⟩ := hreset
      obtain rfl := Resource.reset.inj hpath
      rw [ha, hb, hc] at hpieces
      obtain ⟨-, -, hsegment, -, hpath⟩ := pieces_eq_five_iff.mp hpieces
      exact ⟨by simpa using hne, hsegment, hpath.trans (resetPath_eq s).symm⟩
    · cases hpath
  · rintro ⟨hne, hsegment, hpath⟩
    have hpieces : pieces '/' path =
        [[], "admin".toList, "breakers".toList, segment, "reset".toList] :=
      pieces_eq_five_iff.mpr
        ⟨by decide, by decide, hsegment, by decide, hpath.trans (resetPath_eq segment)⟩
    refine ⟨?_, ?_⟩
    · rintro rfl
      have hlength : (pieces '/' "/health".toList).length = 2 := by decide
      rw [hpieces] at hlength
      cases hlength
    · unfold ofAdminPath
      rw [hpieces]
      simp [hne]

/-- A resource without the name of the service that stands in the path. -/
def anonymous : Resource → Resource
  | reset _ => reset []
  | resource => resource

theorem methods?_anonymous (resource : Resource) :
    resource.anonymous.methods? = resource.methods? := by
  cases resource <;> rfl

theorem isAdmin_anonymous (resource : Resource) : resource.anonymous.isAdmin = resource.isAdmin := by
  cases resource <;> rfl

end Resource

/-! ## The key -/

namespace Admin

/-- The headers of a request show a key that is not empty: the first authorization is visible text,
and the text is the key behind the name of the scheme. -/
def Shows (key : List Char) (headers : Headers) : Prop :=
  key ≠ [] ∧ ∃ value, Headers.first? authorizationHeader headers = some value ∧
    visibleText? value = some (scheme ++ key)

theorem isAuthorised_iff {key : List Char} {headers : Headers} :
    isAuthorised key headers = true ↔ Shows key headers := by
  unfold isAuthorised Shows
  rw [Bool.and_eq_true]
  refine and_congr (by simp) ?_
  cases Headers.first? authorizationHeader headers with
  | none => simp
  | some value =>
    simp only [Option.bind_some, Option.some.injEq, exists_eq_left']
    cases visibleText? value with
    | none => simp
    | some text =>
      rw [Option.bind_some, Option.any_eq_true, Option.some.injEq]
      simp only [decide_eq_true_eq, exists_eq_right]
      exact afterPrefix?_eq_some_iff

end Admin

namespace Http.Request

variable (r : Request) (fresh : Bytes)

@[simp] theorem named_method : (r.named fresh).method = r.method := by
  unfold named
  split
  · rfl
  · rfl

/-- The name of a request changes no header but the one for the name. -/
theorem first?_named {name : List Char} (hname : name ≠ requestIdHeader) :
    Headers.first? name (r.named fresh).headers = Headers.first? name r.headers := by
  unfold named
  split
  · rfl
  · simp [Headers.first?, Headers.values, List.filter_append, Ne.symm hname]

end Http.Request

/-! ## Answers without names -/

/-- The answer without the name of the request. -/
def Answer.nameless (a : Answer) : Answer :=
  { a with response :=
      { a.response with headers := Headers.erase requestIdHeader a.response.headers } }

theorem Http.Response.addMissing_of_none {name : List Char} {value : Bytes} {r : Response}
    (h : Headers.first? name r.headers = none) :
    r.addMissing name value = { r with headers := r.headers ++ [⟨name, value⟩] } := by
  unfold addMissing
  rw [h]
  rfl

/-- The last touch gives a bare response a name, and besides what does not depend on the name. -/
theorem exists_outgoing_bare (method : Method) (refused : Option (List Method)) (status : Status) :
    ∃ more, ∀ id, outgoing method id refused (Reply.bare status) =
      ⟨status, ⟨requestIdHeader, id⟩ :: more, []⟩ := by
  have hnamed (id : Bytes) : (Reply.bare status).addMissing requestIdHeader id =
      ⟨status, [⟨requestIdHeader, id⟩], []⟩ := Response.addMissing_of_none rfl
  have hallowed (id : Bytes) (ms : List Method) :
      (⟨status, [⟨requestIdHeader, id⟩], []⟩ : Response).addMissing allowHeader (methodList ms) =
        ⟨status, [⟨requestIdHeader, id⟩, ⟨allowHeader, methodList ms⟩], []⟩ := by
    have hne : requestIdHeader ≠ allowHeader := by decide
    refine Response.addMissing_of_none ?_
    unfold Headers.first? Headers.values
    rw [List.filter_cons_of_neg (by simpa using hne)]
    rfl
  unfold outgoing
  simp only [hnamed]
  by_cases hconnect : method.name = "CONNECT".toList ∧ status.isSuccess = true
  · exact ⟨[], fun id => by rw [if_pos hconnect]⟩
  · cases refused with
    | none => exact ⟨[], fun id => by rw [if_neg hconnect]; split_ifs <;> rfl⟩
    | some ms =>
      refine ⟨[⟨allowHeader, methodList ms⟩], fun id => ?_⟩
      rw [if_neg hconnect]
      simp only [hallowed]
      split_ifs <;> rfl

theorem nameless_outgoing_bare (method : Method) (id id' : Bytes) (refused : Option (List Method))
    (status : Status) :
    Answer.nameless ⟨outgoing method id refused (Reply.bare status), none⟩ =
      Answer.nameless ⟨outgoing method id' refused (Reply.bare status), none⟩ := by
  obtain ⟨more, hmore⟩ := exists_outgoing_bare method refused status
  have herase (id : Bytes) : Headers.erase requestIdHeader (⟨requestIdHeader, id⟩ :: more) =
      Headers.erase requestIdHeader more := List.filter_cons_of_neg (by simp)
  unfold Answer.nameless
  rw [hmore id, hmore id']
  simp only [herase]

/-! ## Resets -/

namespace Admin

variable {r : Registry} {segment : List Char} (now : Moment)

theorem reset_of_unreadable (h : textOf? (Url.percentDecode segment) = none) :
    reset r segment now = (unreadableName, r, []) := by
  unfold reset
  rw [h]

theorem reset_of_unknown {service : String}
    (h : textOf? (Url.percentDecode segment) = some service) (hb : r.get? service = none) :
    reset r segment now = (Reply.unknownService service, r, []) := by
  unfold reset
  rw [h]
  unfold Registry.reset
  simp only [hb]

theorem reset_of_known {service : String} {b : Breaker}
    (h : textOf? (Url.percentDecode segment) = some service) (hb : r.get? service = some b) :
    reset r segment now = (Reply.json .ok (snapshotTree ((b.reset now).1.snapshot now)),
      r.replace (b.reset now).1, (b.reset now).2 ++ [.notice .adminReset]) := by
  have hservice : service = (b.reset now).1.service := (Registry.service_of_get? hb).symm
  have hafter : (r.replace (b.reset now).1).get? service = some (b.reset now).1 := by
    rw [Registry.get?_replace, if_pos hservice, hb, Option.map_some]
  unfold reset
  rw [h]
  unfold Registry.reset
  simp only [hb, hafter]
  rfl

theorem reset_status_ne : (reset r segment now).1.status ≠ .unauthorized := by
  cases hname : textOf? (Url.percentDecode segment) with
  | none =>
    rw [reset_of_unreadable now hname]
    exact nofun
  | some service =>
    cases hb : r.get? service with
    | none =>
      rw [reset_of_unknown now hname hb]
      exact nofun
    | some b =>
      rw [reset_of_known now hname hb]
      exact nofun

end Admin

namespace Gateway

variable {α : Type}

/-! ## Behind the key -/

def KeyShown (g : Gateway α) (r : Request) : Prop :=
  Admin.Shows g.config.admin.apiKey.toList r.headers

/-- What the admin interface does once the key is shown. -/
def handle (g : Gateway α) (now : Moment) (resource : Resource) (method : Method) :
    Response × Gateway α × List Event :=
  if resource.allows method then
    match resource with
    | .status =>
      (Admin.status g.registry g.table.routes.length g.limiter.size now, g, [])
    | .breakers => (Admin.breakers g.registry now, g, [])
    | .reset segment =>
      ((Admin.reset g.registry segment now).1,
        g.withRegistry (Admin.reset g.registry segment now).2.1,
        (Admin.reset g.registry segment now).2.2)
    | _ => (Reply.bare .notFound, g, [])
  else (Reply.bare .methodNotAllowed, g, [])

theorem keyShown_named (g : Gateway α) (fresh : Bytes) (r : Request) :
    g.KeyShown (r.named fresh) ↔ g.KeyShown r := by
  have hname : Admin.authorizationHeader ≠ requestIdHeader := by decide
  unfold KeyShown Admin.Shows
  rw [r.first?_named fresh hname]

section Administer
variable (g : Gateway α) (now : Moment) (resource : Resource) {r : Request}

theorem administer_of_shown (h : g.KeyShown r) :
    g.administer now resource r = g.handle now resource r.method := by
  have hauth := Admin.isAuthorised_iff.mpr h
  unfold administer handle
  dsimp only
  rw [hauth]
  cases hallows : resource.allows r.method with
  | false => rfl
  | true => cases resource <;> rfl

theorem administer_of_not_shown (h : ¬ g.KeyShown r) :
    ∃ events, Event.measurements events = [] ∧
      g.administer now resource r = (Reply.bare .unauthorized, g, events) := by
  have hauth : Admin.isAuthorised g.config.admin.apiKey.toList r.headers = false := by
    rw [← Bool.not_eq_true, Admin.isAuthorised_iff]
    exact h
  unfold administer
  dsimp only
  rw [hauth]
  refine ⟨_, ?_, rfl⟩
  split_ifs
  · rfl
  · rfl

theorem handle_of_not_allows {method : Method} (h : resource.allows method = false) :
    g.handle now resource method = (Reply.bare .methodNotAllowed, g, []) := by
  unfold handle
  rw [h]
  rfl

theorem handle_looking (method : Method) (h : resource = .status ∨ resource = .breakers) :
    (g.handle now resource method).2 = (g, []) := by
  unfold handle
  split_ifs
  · rcases h with rfl | rfl
    · rfl
    · rfl
  · rfl

theorem handle_reset (segment : List Char) : g.handle now (.reset segment) .post =
    ((Admin.reset g.registry segment now).1,
      g.withRegistry (Admin.reset g.registry segment now).2.1,
      (Admin.reset g.registry segment now).2.2) := rfl

theorem handle_status_ne (method : Method) :
    (g.handle now resource method).1.status ≠ .unauthorized := by
  unfold handle
  split_ifs
  · cases resource with
    | status => exact nofun
    | breakers => exact nofun
    | health => exact nofun
    | backend => exact nofun
    | reset segment => exact Admin.reset_status_ne now
  · exact nofun

end Administer

/-! ## Requests to an endpoint -/

theorem finish_status (g : Gateway α) (fresh : Bytes) (r : Request) (a : Answer) :
    (g.finish fresh r a).response.status = a.response.status := outgoing_status _ _ _ _

theorem finish_bare_nameless (g k : Gateway α) (fresh fresh' : Bytes) {r r' : Request}
    (hresource : (g.resource r).anonymous = (k.resource r').anonymous)
    (hmethod : r.method = r'.method) (status : Status) :
    (g.finish fresh r ⟨Reply.bare status, none⟩).nameless =
      (k.finish fresh' r' ⟨Reply.bare status, none⟩).nameless := by
  have hmethods : (g.resource r).methods? = (k.resource r').methods? := by
    rw [← Resource.methods?_anonymous, hresource, Resource.methods?_anonymous]
  unfold finish lastTouch Resource.refusal?
  rw [hmethods, Request.named_method, Request.named_method, hmethod]
  exact nameless_outgoing_bare ..

section Arrive
variable [TokenArithmetic α] {g : Gateway α} {now : Moment} (id : String) (fresh : Bytes)
  {r : Request}

theorem arrive_of_shown (htime : g.HasTime now) (hadmin : (g.resource r).isAdmin = true)
    (h : g.KeyShown r) :
    g.arrive now id fresh r =
      (.answered (g.finish fresh r ⟨(g.handle now (g.resource r) r.method).1, none⟩),
        (g.handle now (g.resource r) r.method).2) := by
  have hshown := (g.keyShown_named fresh r).mpr h
  rw [arrive_of_admin id fresh htime hadmin, g.administer_of_shown now (g.resource r) hshown,
    r.named_method fresh]

theorem arrive_of_not_shown (htime : g.HasTime now) (hadmin : (g.resource r).isAdmin = true)
    (h : ¬ g.KeyShown r) :
    ∃ events, Event.measurements events = [] ∧ g.arrive now id fresh r =
      (.answered (g.finish fresh r ⟨Reply.bare .unauthorized, none⟩), g, events) := by
  have hnot : ¬ g.KeyShown (r.named fresh) := fun hshown => h ((g.keyShown_named fresh r).mp hshown)
  obtain ⟨events, hevents, hadminister⟩ := g.administer_of_not_shown now (g.resource r) hnot
  refine ⟨events, hevents, ?_⟩
  rw [arrive_of_admin id fresh htime hadmin, hadminister]

end Arrive

end Gateway

/-! ## The law -/

/-- What the admin interface of a gateway does for those who show the key and for those who do not. A
request to it is one whose path is that of an endpoint. -/
structure AdminKeyLaw {α : Type} [TokenArithmetic α] (g : Gateway α) : Prop where
  status_iff : ∀ r, g.resource r = .status ↔
    g.config.admin.enabled = true ∧ r.uri.path = Resource.statusPath
  breakers_iff : ∀ r, g.resource r = .breakers ↔
    g.config.admin.enabled = true ∧ r.uri.path = Resource.breakersPath
  reset_iff : ∀ r segment, g.resource r = .reset segment ↔
    g.config.admin.enabled = true ∧ segment ≠ [] ∧ '/' ∉ segment ∧
      r.uri.path = Resource.resetPath segment
  /-- The check itself, before anything else is done for the request: it lets through who shows the
  key, and answers all others in the same words. -/
  checked : ∀ now resource r,
    (g.KeyShown r → g.administer now resource r = g.handle now resource r.method) ∧
      (¬ g.KeyShown r → (g.administer now resource r).1 = Reply.bare .unauthorized) ∧
      ((g.administer now resource r).1.status = .unauthorized ↔ ¬ g.KeyShown r)
  /-- So a request is told to show the key exactly when it does not. -/
  unauthorized_iff : ∀ now id fresh r, g.HasTime now → (g.resource r).isAdmin = true →
    ∃ a, (g.arrive now id fresh r).1 = .answered a ∧
      (a.response.status = .unauthorized ↔ ¬ g.KeyShown r)
  /-- Without the key nothing changes and nothing is counted. -/
  closed : ∀ now id fresh r, (g.resource r).isAdmin = true → ¬ g.KeyShown r →
    (g.arrive now id fresh r).2.1 = g ∧ Event.measurements (g.arrive now id fresh r).2.2 = []
  /-- Nor is anything to be learned: another gateway, asked for the same endpoint in the same method
  at any moment, answers the same, but for the name of the request. -/
  blind : ∀ (k : Gateway α) now now' id id' fresh fresh' r r', g.HasTime now → k.HasTime now' →
    (g.resource r).isAdmin = true → (g.resource r).anonymous = (k.resource r').anonymous →
    r.method = r'.method → ¬ g.KeyShown r → ¬ k.KeyShown r' →
    ∃ a b, (g.arrive now id fresh r).1 = .answered a ∧ (k.arrive now' id' fresh' r').1 = .answered b ∧
      a.nameless = b.nameless
  /-- To look changes nothing, in whatever method. -/
  looking : ∀ now id fresh r, g.resource r = .status ∨ g.resource r = .breakers → g.KeyShown r →
    (g.arrive now id fresh r).2 = (g, [])
  wrongMethod : ∀ now id fresh r, g.HasTime now → (g.resource r).isAdmin = true →
    (g.resource r).allows r.method = false → g.KeyShown r →
    (g.arrive now id fresh r).2 = (g, []) ∧
      ∃ a, (g.arrive now id fresh r).1 = .answered a ∧ a.response.status = .methodNotAllowed
  /-- A reset closes the breaker that it names and forgets its failures. All others, and everything
  else in the gateway, stay as they are. -/
  reset : ∀ now id fresh r segment service b, g.HasTime now → g.resource r = .reset segment →
    r.method = .post → g.KeyShown r → textOf? (Url.percentDecode segment) = some service →
    g.registry.get? service = some b →
    ∃ closed : Breaker, closed = { b with circuit := .closed, failures := 0, lastChange := now } ∧
      (g.arrive now id fresh r).2.1 = g.withRegistry { g.registry with
        breakers := g.registry.breakers.map fun c => if c.service = service then closed else c } ∧
      (∀ other, (g.arrive now id fresh r).2.1.registry.get? other =
        if other = service then some closed else g.registry.get? other) ∧
      ∃ a, (g.arrive now id fresh r).1 = .answered a ∧ a.response.status = .ok
  /-- A reset of a service that there is not, or of something that is no name, changes nothing. -/
  unknown : ∀ now id fresh r segment service, g.HasTime now → g.resource r = .reset segment →
    r.method = .post → g.KeyShown r → textOf? (Url.percentDecode segment) = some service →
    g.registry.get? service = none →
    (g.arrive now id fresh r).2 = (g, []) ∧
      ∃ a, (g.arrive now id fresh r).1 = .answered a ∧ a.response.status = .notFound
  unreadable : ∀ now id fresh r segment, g.HasTime now → g.resource r = .reset segment →
    r.method = .post → g.KeyShown r → textOf? (Url.percentDecode segment) = none →
    (g.arrive now id fresh r).2 = (g, []) ∧
      ∃ a, (g.arrive now id fresh r).1 = .answered a ∧ a.response.status = .badRequest
  /-- Every request has time unless the request timeout is zero. One without any is answered before
  anything is done for it. -/
  hasTime : 0 < g.config.timeouts.requestSecs.toNat → ∀ now, g.HasTime now
  noTime : ∀ now id fresh r, ¬ g.HasTime now → (g.arrive now id fresh r).2 = (g, []) ∧
    ∃ a, (g.arrive now id fresh r).1 = .answered a ∧ a.response.status = .requestTimeout

/-- **The admin interface is closed to those without the key**, for every gateway and every request. -/
theorem adminKeyLaw {α : Type} [TokenArithmetic α] (g : Gateway α) : AdminKeyLaw g where
  status_iff _ := Resource.ofPath_eq_iff_of_last rfl
  breakers_iff _ := Resource.ofPath_eq_iff_of_last rfl
  reset_iff _ _ := Resource.ofPath_eq_reset_iff
  checked now resource r := by
    by_cases hkey : g.KeyShown r
    · have hne := g.handle_status_ne now resource r.method
      rw [g.administer_of_shown now resource hkey]
      exact ⟨fun _ => rfl, fun hnot => absurd hkey hnot, iff_of_false hne (not_not_intro hkey)⟩
    · obtain ⟨events, -, heq⟩ := g.administer_of_not_shown now resource hkey
      rw [heq]
      exact ⟨fun hshown => absurd hshown hkey, fun _ => rfl, iff_of_true rfl hkey⟩
  unauthorized_iff now id fresh r htime hadmin := by
    by_cases hkey : g.KeyShown r
    · rw [Gateway.arrive_of_shown id fresh htime hadmin hkey]
      refine ⟨_, rfl, iff_of_false ?_ (not_not_intro hkey)⟩
      rw [Gateway.finish_status]
      exact g.handle_status_ne now (g.resource r) r.method
    · obtain ⟨events, -, heq⟩ := Gateway.arrive_of_not_shown id fresh htime hadmin hkey
      rw [heq]
      refine ⟨_, rfl, iff_of_true ?_ hkey⟩
      exact g.finish_status fresh r _
  closed now id fresh r hadmin hkey := by
    by_cases htime : g.HasTime now
    · obtain ⟨events, hevents, heq⟩ := Gateway.arrive_of_not_shown id fresh htime hadmin hkey
      rw [heq]
      exact ⟨rfl, hevents⟩
    · rw [Gateway.arrive_of_no_time g now id fresh r htime]
      exact ⟨rfl, rfl⟩
  blind k now now' id id' fresh fresh' r r' htime htime' hadmin hresource hmethod hkey hkey' := by
    have hadmin' : (k.resource r').isAdmin = true := by
      rw [← Resource.isAdmin_anonymous, ← hresource, Resource.isAdmin_anonymous, hadmin]
    obtain ⟨events, -, heq⟩ := Gateway.arrive_of_not_shown id fresh htime hadmin hkey
    obtain ⟨events', -, heq'⟩ := Gateway.arrive_of_not_shown id' fresh' htime' hadmin' hkey'
    rw [heq, heq']
    exact ⟨_, _, rfl, rfl, g.finish_bare_nameless k fresh fresh' hresource hmethod .unauthorized⟩
  looking now id fresh r hlook hkey := by
    by_cases htime : g.HasTime now
    · have hadmin : (g.resource r).isAdmin = true := by
        rcases hlook with h | h
        · rw [h]; rfl
        · rw [h]; rfl
      rw [Gateway.arrive_of_shown id fresh htime hadmin hkey]
      exact g.handle_looking now _ r.method hlook
    · rw [Gateway.arrive_of_no_time g now id fresh r htime]
  wrongMethod now id fresh r htime hadmin hallows hkey := by
    rw [Gateway.arrive_of_shown id fresh htime hadmin hkey, g.handle_of_not_allows now _ hallows]
    exact ⟨rfl, _, rfl, g.finish_status fresh r _⟩
  reset now id fresh r segment service b htime hreset hpost hkey hname hb := by
    have hservice : service = (b.reset now).1.service := (Registry.service_of_get? hb).symm
    have hhandle := g.handle_reset now segment
    rw [Admin.reset_of_known now hname hb] at hhandle
    rw [Gateway.arrive_of_shown id fresh htime (by rw [hreset]; rfl) hkey, hreset, hpost, hhandle]
    refine ⟨(b.reset now).1, rfl, ?_, fun other => ?_, _, rfl, g.finish_status fresh r _⟩
    · rw [hservice]
      rfl
    · refine (g.registry.get?_replace (b.reset now).1 other).trans ?_
      rw [← hservice]
      split_ifs with hother
      · rw [hother, hb, Option.map_some]
      · rfl
  unknown now id fresh r segment service htime hreset hpost hkey hname hb := by
    have hhandle := g.handle_reset now segment
    rw [Admin.reset_of_unknown now hname hb] at hhandle
    rw [Gateway.arrive_of_shown id fresh htime (by rw [hreset]; rfl) hkey, hreset, hpost, hhandle]
    exact ⟨rfl, _, rfl, g.finish_status fresh r _⟩
  unreadable now id fresh r segment htime hreset hpost hkey hname := by
    have hhandle := g.handle_reset now segment
    rw [Admin.reset_of_unreadable now hname] at hhandle
    rw [Gateway.arrive_of_shown id fresh htime (by rw [hreset]; rfl) hkey, hreset, hpost, hhandle]
    exact ⟨rfl, _, rfl, g.finish_status fresh r _⟩
  hasTime hpos now := Gateway.hasTime_of_pos hpos now
  noTime now id fresh r hnot := by
    rw [Gateway.arrive_of_no_time g now id fresh r hnot]
    exact ⟨rfl, _, rfl, g.finish_status fresh r _⟩

end Gatehouse
