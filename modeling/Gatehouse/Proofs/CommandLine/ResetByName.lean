import Gatehouse.Proofs.CommandLine.SentReset
import Gatehouse.Proofs.Gateway.Built
import Gatehouse.Proofs.Gateway.ChargedClient
import Gatehouse.Proofs.Gateway.Tripped

/-!
# The reset of a service by its name

The admin client has the breaker of a service reset, and both sides have to agree on what a name is.
The client writes the name into the path as it is, and the gateway reads a segment of the path and
decodes it. They agree on the plain names and on no others.

* `AdminClient.Sends` : a request of the admin client that comes in;
* `ResetLaw`, `resetLaw` : what comes of the reset of a service by its name;
* `not_resets_regional` : names that the two sides read in different ways.
-/

namespace Gatehouse

open Gatehouse.Http Gatehouse.Text Gatehouse.Url
open Gatehouse.CommandLine.AdminClient (withoutUser authorization)

/-! ## The gateway of a run -/

namespace World

variable {α : Type} [TokenArithmetic α] (c : Config) (start : Moment) (steps : List Step)

theorem config_run [Idna] : (run (α := α) c start steps).gateway.config = c := by
  refine ((begin c start).settings_foldl steps).config_eq.trans ?_
  rw [gateway_begin]
  rfl

/-- Every service has a breaker as long as a gateway runs. -/
theorem isSome_get?_run [Idna] {s : Config.Service} (hs : s ∈ c.services) :
    ((run (α := α) c start steps).gateway.registry.get? s.name).isSome = true := by
  refine (((begin c start).settings_foldl steps).services.isSome s.name).trans ?_
  rw [gateway_begin]
  show ((Registry.ofServices _ _ _).1.get? s.name).isSome = true
  rw [Registry.get?_ofServices, if_pos]
  · rfl
  · unfold Gateway.serviceAddresses
    rw [List.map_map]
    exact List.mem_map_of_mem hs

end World

/-! ## The request of the client -/

namespace CommandLine

def AdminClient.Sends [Idna] (client : AdminClient) (q : Request) : Prop :=
  ∃ r, client.request = some r ∧ r.Arrives q

/-- The admin client that has a service reset, with the key of a gateway. -/
def resetClient (c : Config) (text name : String) : AdminClient :=
  ⟨text, c.admin.apiKey, .reset name⟩

/-- What comes in is a post to the path of the URL, and shows the key if that can come through. -/
theorem spec_of_sends [Idna] {c : Config} {text name : String} (haddress : IsAddress text)
    (hne : c.admin.apiKey.toList ≠ []) {q : Request} (h : (resetClient c text name).Sends q) :
    q.method = .post ∧ (Admin.Shows c.admin.apiKey.toList q.headers ↔ IsKey c.admin.apiKey) ∧
      ∃ scheme a, (scheme = "http".toList ∨ scheme = "https".toList) ∧
        q.uri.path = (Resource.resetUrl scheme a name.toList).path := by
  obtain ⟨r, hrequest, harrives⟩ := h
  obtain ⟨scheme, a, hweb, -, -, hsent⟩ := sent_reset haddress c.admin.apiKey name
  obtain ⟨hpost, hauthorization, htarget⟩ := hsent r hrequest
  have hrooted : (Resource.resetUrl scheme a name.toList).path ≠ [] :=
    List.ne_nil_of_mem (List.mem_of_head? (rootedPath_spec (ne_file_web hweb) _).1)
  refine ⟨harrives.method.trans hpost,
    AdminRequest.shows_iff_of_arrives harrives hauthorization hne, scheme, a, hweb, ?_⟩
  rw [← Except.ok.inj (htarget.symm.trans harrives.uri)]
  exact Uri.path_eq_pathText hrooted

/-! ## The law -/

/-- What comes of the reset of a service, with the right address and the right key, when the gateway
has come so far. -/
structure ResetLaw [Idna] {α : Type} [TokenArithmetic α] (c : Config) (text name : String)
    (w : World α) : Prop where
  /-- The name is understood unless it is written like an option; behind two dashes it always is. -/
  understood : ∀ environment,
    (AdminClient.read ["--url=" ++ text, "--key=" ++ c.admin.apiKey, "reset", name] environment =
      .understood (resetClient c text name) ↔ isFlagLike name.toList = false) ∧
    AdminClient.read ["--url=" ++ text, "--key=" ++ c.admin.apiKey, "reset", "--", name]
      environment = .understood (resetClient c text name)
  /-- There is a URL with the name as it is. A request is sent unless the URL is too long or the key
  cannot stand in a header, -/
  sent : ∃ u, Url.parse (dropEnd '/' text.toList ++ Resource.resetPath name.toList) = .ok u ∧
    ((resetClient c text name).request.isSome = true ↔
      isHeaderValue (authorization c.admin.apiKey) = true ∧
        byteLength (withoutUser u).text ≤ Uri.maxLength)
  /-- and what is sent can come in. -/
  arrives : (resetClient c text name).request.isSome = true →
    ∃ q, (resetClient c text name).Sends q
  /-- A key that comes through a header as it is can stand in one, and it is the one that is shown. -/
  key : (IsKey c.admin.apiKey → isHeaderValue (authorization c.admin.apiKey) = true) ∧
    ∀ q, (resetClient c text name).Sends q → (w.gateway.KeyShown q ↔ IsKey c.admin.apiKey)
  /-- The request asks for the reset of the service exactly when the name is plain. -/
  named_iff : ∀ q, (resetClient c text name).Sends q →
    (w.gateway.resetOf? q = some name ↔ IsPlain name.toList)
  /-- Then the breaker of the service is reset and no other. -/
  plain : IsKey c.admin.apiKey → IsPlain name.toList → ∀ q, (resetClient c text name).Sends q →
    w.gateway.Resets w.now q name
  /-- A request with any other name, or a key that does not come through, leaves the circuit of the
  service as open as it is. -/
  missed : ¬ (IsKey c.admin.apiKey ∧ IsPlain name.toList) → w.gateway.registry.Tripped name →
    ∀ q, (resetClient c text name).Sends q → ∀ id fresh,
      (w.gateway.arrive w.now id fresh q).2.1.registry.Tripped name
  /-- If the path is that of a reset of another service, this is the one that is reset. -/
  astray : IsKey c.admin.apiKey → ∀ q, (resetClient c text name).Sends q → ∀ s ∈ c.services,
    w.gateway.resetOf? q = some s.name → w.gateway.Resets w.now q s.name

/-- **The admin client and the gateway agree on the plain names.** Behind a valid configuration with
an admin interface, whatever has happened so far, the request that the client sends for the reset of
a service resets the breaker of exactly this service if its name is plain and the key comes through,
and misses it if not. -/
theorem resetLaw [Idna] (α : Type) [TokenArithmetic α] {c : Config} (hvalid : c.isValid = true)
    (henabled : c.admin.enabled = true) {text : String} (haddress : IsAddress text)
    {s : Config.Service} (hs : s ∈ c.services) (start : Moment) (steps : List Step) :
    ResetLaw c text s.name (World.run (α := α) c start steps) := by
  have hconfig := World.config_run (α := α) c start steps
  have hbreakers {t : Config.Service} := World.isSome_get?_run (α := α) c start steps (s := t)
  generalize World.run (α := α) c start steps = w at hconfig hbreakers ⊢
  have hspec {q : Request} (h : (resetClient c text s.name).Sends q) :=
    spec_of_sends haddress (Config.apiKey_ne_nil hvalid henabled) h
  have hshown : ∀ q, (resetClient c text s.name).Sends q →
      (w.gateway.KeyShown q ↔ IsKey c.admin.apiKey) := by
    intro q hq
    unfold Gateway.KeyShown
    rw [hconfig]
    exact (hspec hq).2.1
  have hnamed : ∀ q, (resetClient c text s.name).Sends q →
      (w.gateway.resetOf? q = some s.name ↔ IsPlain s.name.toList) := by
    intro q hq
    obtain ⟨-, -, scheme, a, hweb, hpath⟩ := hspec hq
    rw [← Resource.ofPath_resetUrl_iff hweb a (Config.name_ne_nil hvalid hs),
      Gateway.resetOf?_eq_some_iff]
    unfold Gateway.resource
    rw [hconfig, henabled, hpath]
  have hreset : IsKey c.admin.apiKey → ∀ q, (resetClient c text s.name).Sends q →
      ∀ t ∈ c.services, w.gateway.resetOf? q = some t.name → w.gateway.Resets w.now q t.name := by
    intro hkey q hq t ht hreset
    refine Gateway.resets_of_shown (Gateway.hasTime_of_pos ?_ w.now) (hspec hq).1
      ((hshown q hq).mpr hkey) hreset (hbreakers ht)
    rw [hconfig]
    exact Nat.pos_of_mul_pos_right (Config.timeouts_pos hvalid).2.2
  obtain ⟨scheme, a, -, hparse, hsome, hrequest⟩ := sent_reset haddress c.admin.apiKey s.name
  refine {
    understood := fun environment =>
      ⟨AdminClient.read_reset_iff .., AdminClient.read_reset_dashes ..⟩
    sent := ⟨_, hparse, hsome⟩
    arrives := fun h => ?_
    key := ⟨AdminClient.isHeaderValue_authorization, hshown⟩
    named_iff := hnamed
    plain := fun hkey hplain q hq => hreset hkey q hq s hs ((hnamed q hq).mpr hplain)
    missed := fun hnot htripped q hq id fresh => ?_
    astray := hreset }
  · obtain ⟨r, hr⟩ := Option.isSome_iff_exists.mp h
    obtain ⟨q, hq⟩ := AdminRequest.exists_arrives (hrequest r hr).2.2
    exact ⟨q, r, hr, hq⟩
  · refine Gateway.tripped_arrive htripped (fun h => ?_) id fresh
    exact hnot ⟨(hshown q hq).mp h.1, (hnamed q hq).mp h.2⟩

/-! Services whose names do not stand for themselves in a path. Two of them differ in how a slash is
written. -/

end CommandLine

namespace Config

def regional : Config :=
  { (default : Config) with
    services := [⟨"eu/shop", "http://eu:80"⟩, ⟨"shop?eu", "http://shop:80"⟩,
      ⟨"eu%2Fshop", "http://old.eu:80"⟩]
    admin := ⟨true, "letmein"⟩ }

end Config

namespace CommandLine

theorem isAddress_localhost : IsAddress "http://localhost:8080/" := by
  refine ⟨⟨"http".toList, some ⟨[], [], some (.name "localhost".toList), some 8080⟩,
    "/admin/status".toList, none, none⟩, ?_, ?_, rfl, rfl, ?_⟩
  · decide +kernel
  · decide +kernel
  · decide +kernel

theorem resetLaw_regional :
    Config.regional.isValid = true ∧ Config.regional.admin.enabled = true ∧
      IsAddress "http://localhost:8080/" ∧ ∃ s ∈ Config.regional.services,
        ResetLaw Config.regional "http://localhost:8080/" s.name
          (World.run (α := Rat) Config.regional 0 [.advance (Span.seconds 1)]) := by
  have hvalid : Config.regional.isValid = true := by decide +kernel
  have hs : ⟨"eu/shop", "http://eu:80"⟩ ∈ Config.regional.services := by decide
  exact ⟨hvalid, rfl, isAddress_localhost, _, hs,
    resetLaw Rat hvalid rfl isAddress_localhost hs 0 [.advance (Span.seconds 1)]⟩

def regionalWorld : World Rat := World.run Config.regional 0 [.advance (Span.seconds 1)]

def regionalReset (path : String) (query : Option String) : Request :=
  ⟨.post, ⟨none, none, path.toList, query.map (·.toList)⟩,
    [⟨Admin.authorizationHeader, authorization "letmein"⟩], [], none, none⟩

theorem sends_regional {name path : String} {query : Option String}
    (h : (name, path, query) ∈ [("eu/shop", "/admin/breakers/eu/shop/reset", none),
      ("shop?eu", "/admin/breakers/shop", some "eu/reset"),
      ("eu%2Fshop", "/admin/breakers/eu%2Fshop/reset", none)]) :
    (resetClient Config.regional "http://localhost:8080/" name).Sends (regionalReset path query) := by
  let url : Url := ⟨"http".toList, some ⟨[], [], some (.name "localhost".toList), some 8080⟩,
    path.toList, query.map (·.toList), none⟩
  simp only [List.mem_cons, List.not_mem_nil, or_false, Prod.mk.injEq] at h
  refine ⟨⟨.post, url, authorization "letmein"⟩, ?_, rfl, ?_, ?_⟩
  · rcases h with ⟨rfl, rfl, rfl⟩ | ⟨rfl, rfl, rfl⟩ | ⟨rfl, rfl, rfl⟩
    · decide +kernel
    · decide +kernel
    · decide +kernel
  · rcases h with ⟨rfl, rfl, rfl⟩ | ⟨rfl, rfl, rfl⟩ | ⟨rfl, rfl, rfl⟩
    · decide +kernel
    · decide +kernel
    · decide +kernel
  · show Headers.first? _ [_] = some ((authorization "letmein").rdropWhile isBlankByte)
    decide +kernel

/-- A name with a slash or a question mark is no segment of the path that comes of it, so its reset
finds no service; and a name with an escape denotes another name, whose breaker is reset instead. -/
theorem not_resets_regional :
    Config.regional.isValid = true ∧ Config.regional.admin.enabled = true ∧
      IsAddress "http://localhost:8080/" ∧ IsKey Config.regional.admin.apiKey ∧
      (∀ name ∈ ["eu/shop", "shop?eu"], (∃ s ∈ Config.regional.services, s.name = name) ∧
        ∃ q, (resetClient Config.regional "http://localhost:8080/" name).Sends q ∧
          ∀ service, ¬ regionalWorld.gateway.Resets regionalWorld.now q service) ∧
      (∃ s ∈ Config.regional.services, s.name = "eu%2Fshop") ∧
      ∃ q, (resetClient Config.regional "http://localhost:8080/" "eu%2Fshop").Sends q ∧
        regionalWorld.gateway.Resets regionalWorld.now q "eu/shop" ∧
        ¬ regionalWorld.gateway.Resets regionalWorld.now q "eu%2Fshop" := by
  let slashed := regionalReset "/admin/breakers/eu/shop/reset" none
  let queried := regionalReset "/admin/breakers/shop" (some "eu/reset")
  have hlost : ∀ q ∈ [slashed, queried], ∀ service,
      ¬ regionalWorld.gateway.Resets regionalWorld.now q service := by
    have hnone : ∀ q ∈ [slashed, queried],
        ∀ b ∈ (regionalWorld.gateway.arrive regionalWorld.now "1" [] q).2.1.registry.breakers,
          b.lastChange ≠ regionalWorld.now := by decide +kernel
    intro q hq service h
    obtain ⟨b, hb, -, hnow⟩ := h.exists_mem "1" []
    exact hnone q hq b hb hnow
  have hkey : IsKey Config.regional.admin.apiKey :=
    ⟨List.all_iff_forall_prop.mp (by decide), by decide⟩
  refine ⟨by decide +kernel, rfl, isAddress_localhost, hkey, ?_, by decide,
    regionalReset "/admin/breakers/eu%2Fshop/reset" none, sends_regional (by simp), ?_,
    fun h => ?_⟩
  · rw [List.forall_mem_cons, List.forall_mem_singleton]
    exact ⟨⟨by decide, slashed, sends_regional (by simp), hlost slashed (by simp)⟩,
      by decide, queried, sends_regional (by simp), hlost queried (by simp)⟩
  · refine Gateway.resets_of_shown (Gateway.hasTime_of_pos (by decide +kernel) _) rfl ?_ ?_ ?_
    · exact Admin.isAuthorised_iff.mp (by decide +kernel)
    · decide +kernel
    · decide +kernel
  · obtain ⟨b, hb, hservice, hnow⟩ := h.exists_mem "1" []
    have hnone : ∀ b ∈ (regionalWorld.gateway.arrive regionalWorld.now "1" []
        (regionalReset "/admin/breakers/eu%2Fshop/reset" none)).2.1.registry.breakers,
        ¬ (b.service = "eu%2Fshop" ∧ b.lastChange = regionalWorld.now) := by
      decide +kernel
    exact hnone b hb ⟨hservice, hnow⟩

end CommandLine

end Gatehouse
