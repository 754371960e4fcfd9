import Gatehouse.Gateway.Basic
import Gatehouse.Proofs.Config.Valid
import Gatehouse.Proofs.Http.WholeTarget
import Gatehouse.Proofs.Routing.Table

/-!
# Where a request is passed on to

The target of an outbound request is pasted together from the text of a base URL, a path and a query
that a client chose, and is then read as a whole. The base URL ends at a slash or before one and the
path is empty or starts with one, so what was pasted stays apart: no client can touch the scheme or
the authority. The path and the query come through as well, unless the base URL has a fragment.

* `parts_of_targetUri` : how a pasted target is read back;
* `SameSite`, `outbound_contained` : a request that takes a route goes to the site of its target;
* `Faithful`, `targetLaw` : the path and the query of the target.
-/

namespace Gatehouse

open Gatehouse.Http Gatehouse.Routing Gatehouse.Text Gatehouse.Url

/-! ## Base URLs -/

theorem Config.web_of_baseUrlProblem? [Idna] {s : String} {base : Url}
    (hbase : parse s.toList = .ok base)
    (h : baseUrlProblem? s = none) : (∃ site, Web base site) ∧ base.query = none := by
  unfold baseUrlProblem? at h
  rw [hbase] at h
  simp only at h
  split at h
  · cases h
  · rename_i hscheme
    split at h
    · cases h
    · split at h
      · cases h
      · rename_i hquery
        have hweb : base.scheme = "http".toList ∨ base.scheme = "https".toList := by
          by_contra hno
          exact hscheme (not_or.mp hno)
        refine ⟨web_of_parse hbase hweb, ?_⟩
        rwa [Option.isSome_iff_ne_none, not_not] at hquery

/-! ## Pasting -/

section Pasting
variable {base : Url} {site path : List Char} {query : Option (List Char)} {uri : Uri}

def queryText (query : Option (List Char)) : List Char :=
  ((query.filter (!·.isEmpty)).map ('?' :: ·)).getD []

theorem head?_queryText (query : Option (List Char)) : ∀ c ∈ (queryText query).head?, c = '?' := by
  intro c hc
  unfold queryText at hc
  cases hquery : query.filter (!·.isEmpty) with
  | none =>
    rw [hquery] at hc
    cases hc
  | some q =>
    rw [hquery] at hc
    exact (Option.some.inj hc).symm

theorem parts_of_targetUri (hbase : Web base site) (hpath : startsSegment path = true)
    (h : targetUri base path query = .ok uri) :
    uri.scheme = some base.scheme ∧ uri.authority = some site ∧
      Uri.parsePath (dropEnd '/' base.tail ++ path ++ queryText query) =
        .ok (uri.pathText, uri.query) := by
  have hread : Uri.parse (base.scheme ++ "://".toList ++
      (site ++ (dropEnd '/' base.tail ++ path ++ queryText query))) = .ok uri := by
    rw [← h]
    show _ = Uri.parse (dropEnd '/' base.text ++ path ++ queryText query)
    rw [hbase.dropEnd_text]
    simp only [List.append_assoc]
  refine Uri.parse_whole hbase.scheme hbase.isHostText ?_ hread
  intro c hc
  rw [List.append_assoc, List.head?_append] at hc
  cases htail : (dropEnd '/' base.tail).head? with
  | some d =>
    rw [htail, Option.some_or, Option.mem_some] at hc
    rw [← hc, hbase.head?_dropEnd_tail d htail]
    decide
  | none =>
    rw [htail, Option.none_or] at hc
    cases path with
    | nil =>
      rw [head?_queryText query c hc]
      decide
    | cons d path =>
      obtain rfl : d = c := Option.some.inj hc
      obtain rfl : d = '/' := of_decide_eq_true hpath
      decide

end Pasting

/-! ## The site -/

/-- A target leads to the site of a URL, whatever its path and its query are. -/
structure SameSite (target : Url) (uri : Uri) : Prop where
  scheme : uri.scheme = some target.scheme
  authority : uri.authority = target.authority.map Authority.text
  isSome : uri.authority.isSome = true

theorem startsSegment_of_rooted {path : List Char} (h : path.head? = some '/') :
    startsSegment path = true := by
  obtain ⟨rest, rfl⟩ := List.head?_eq_some_iff.mp h
  rfl

theorem startsSegment_stripPath (p : List Char) {path : List Char}
    (h : startsSegment path = true) : startsSegment (stripPath p path) = true := by
  unfold stripPath
  split
  · exact h
  · split
    · rfl
    · split
      · assumption
      · exact h
    · exact h

section Contained
variable {c : Config}

theorem web_of_mem_table [Idna] (hvalid : c.isValid = true) {route : Route}
    (h : route ∈ (Table.ofConfig c.routes c.services).1.routes) :
    ∃ site, Web route.target site := by
  obtain ⟨-, hservices, -⟩ := c.isValid_iff.mp hvalid
  obtain ⟨s, hs, -, hparse⟩ := Table.target_of_mem h
  have hproblem := ((Config.Service.allProblems_eq_nil_iff [] c.services).mp hservices).2 s hs
  exact (Config.web_of_baseUrlProblem? hparse hproblem.2.2).1

theorem startsSegment_of_mem_table [Idna] (hvalid : c.isValid = true) {route : Route}
    (h : route ∈ (Table.ofConfig c.routes c.services).1.routes) :
    startsSegment route.path = true := by
  obtain ⟨-, -, hroutes, -⟩ := c.isValid_iff.mp hvalid
  obtain ⟨r, hr, hcompile⟩ := Table.exists_compile_of_mem h
  have hproblems := hroutes r hr
  unfold Config.Route.problems at hproblems
  simp only [List.append_eq_nil_iff, Config.when_eq_nil_iff, decide_eq_false_iff_not, not_not]
    at hproblems
  rw [(Route.of_compile hcompile).2]
  exact startsSegment_trimPrefix hproblems.1.2

/-- **A request that takes a route of a valid configuration goes to the site of its target**,
whatever the target of the request is. -/
theorem outbound_contained [Idna] (hvalid : c.isValid = true) (rules : ForwardingRules)
    (r : Request) (route : Route)
    (hroute : (Table.ofConfig c.routes c.services).1.find? r.method r.uri.path = some route)
    (sent : Outbound) (events : List Event)
    (hsent : outbound rules route.target r = .ok (sent, events)) :
    SameSite route.target sent.uri := by
  obtain ⟨hmem, hunder⟩ := Table.of_find? hroute
  obtain ⟨site, hweb⟩ := web_of_mem_table hvalid hmem
  have hpath : startsSegment r.uri.path = true :=
    startsSegment_of_isUnder (startsSegment_of_mem_table hvalid hmem) hunder
  unfold outbound at hsent
  obtain ⟨uri, huri, hrest⟩ := exists_of_bind_eq_ok hsent
  cases hrest
  obtain ⟨hscheme, hauthority, -⟩ :=
    parts_of_targetUri hweb (startsSegment_stripPath rules.stripPrefix hpath) huri
  exact ⟨hscheme, hauthority.trans hweb.authority.symm, by rw [hauthority]; rfl⟩

end Contained

/-! A request that names another site wherever it can. -/

def booking : Config :=
  { (default : Config) with
    services := [⟨"booking", "http://booking:3003/v1/"⟩]
    routes := [⟨"bookings", "/", "booking", [], 0⟩] }

def toBooking : Route :=
  ⟨"bookings", "booking", ⟨"http".toList, some ⟨[], [], some (.name "booking".toList), some 3003⟩,
    "/v1/".toList, none, none⟩, 0, [], []⟩

def detour : Request :=
  { (default : Request) with
    uri := ⟨some "https".toList, some "elsewhere".toList, "//@elsewhere:80/..".toList, none⟩ }

def detourSent : Outbound :=
  ⟨detour.method, ⟨some "http".toList, some "booking:3003".toList,
    "/v1//@elsewhere:80/..".toList, none⟩, [], []⟩

/-- It is sent to the backend all the same. -/
theorem outbound_contained_detour :
    booking.isValid = true ∧
      (Table.ofConfig booking.routes booking.services).1.find? detour.method detour.uri.path =
        some toBooking ∧
      outbound ⟨"/api".toList, true⟩ toBooking.target detour = .ok (detourSent, []) ∧
      SameSite toBooking.target detourSent.uri := by
  have hvalid : booking.isValid = true := by decide +kernel
  have hroute : (Table.ofConfig booking.routes booking.services).1.find? detour.method
      detour.uri.path = some toBooking := by decide +kernel
  have hsent : outbound ⟨"/api".toList, true⟩ toBooking.target detour = .ok (detourSent, []) := by
    decide +kernel
  exact ⟨hvalid, hroute, hsent,
    outbound_contained hvalid _ detour toBooking hroute detourSent [] hsent⟩

/-! ## The path and the query -/

section Faithful
variable {base : Url} {path : List Char} {query : Option (List Char)} {uri : Uri}

/-- The path is put behind the path of the base URL, and the query is kept unless it is empty. -/
structure Faithful (base : Url) (path : List Char) (query : Option (List Char)) (uri : Uri) :
    Prop where
  path_eq : uri.path = dropEnd '/' base.path ++ path
  query_eq : uri.query = query.filter (!·.isEmpty)

theorem queryAfter_queryText (hquery : ∀ q ∈ query, '#' ∉ q) :
    Uri.queryAfter (queryText query) = query.filter (!·.isEmpty) := by
  unfold queryText
  cases hfilter : query.filter (!·.isEmpty) with
  | none => rfl
  | some q =>
    have hmem : q ∈ query := (Option.filter_eq_some_iff.mp hfilter).1
    show some (q.takeWhile (· ≠ '#')) = some q
    rw [List.takeWhile_eq_self_iff.mpr]
    intro c hc
    have hne : c ≠ '#' := fun heq => hquery q hmem (heq ▸ hc)
    exact decide_eq_true hne

theorem faithful_of_targetUri {site : List Char} (hweb : Web base site)
    (hnoquery : base.query = none) (hnofragment : base.fragment = none)
    (hrooted : path.head? = some '/') (hclean : Uri.IsClean path query)
    (huri : targetUri base path query = .ok uri) : Faithful base path query uri := by
  obtain ⟨-, -, hparts⟩ := parts_of_targetUri hweb (startsSegment_of_rooted hrooted) huri
  have htail : base.tail = base.path := by simp [Url.tail, hnoquery, hnofragment]
  rw [htail] at hparts
  have hfront : (dropEnd '/' base.path ++ path).Disjoint pathEnds := by
    refine List.disjoint_append_left.mpr ⟨fun c hc => ?_, hclean.1⟩
    obtain ⟨n, hn⟩ := exists_append_dropEnd '/' base.path
    refine hweb.disjoint_path ?_
    rw [hn]
    exact List.mem_append_left _ hc
  have hmark : ∀ c ∈ (queryText query).head?, c ∈ pathEnds := by
    intro c hc
    rw [head?_queryText query c hc]
    decide
  obtain ⟨hpath, hquery⟩ := Uri.eq_of_parsePath hfront hmark hparts
  have hne : uri.pathText ≠ [] := by
    intro hnil
    rw [hpath] at hnil
    rw [(List.append_eq_nil_iff.mp hnil).2] at hrooted
    cases hrooted
  exact ⟨(Uri.path_eq_pathText hne).trans hpath, hquery.trans (queryAfter_queryText hclean.2)⟩

theorem lost_of_targetUri {site fragment : List Char} (hweb : Web base site)
    (hnoquery : base.query = none) (hfragment : base.fragment = some fragment)
    (hrooted : path.head? = some '/') (huri : targetUri base path query = .ok uri) :
    uri.path = base.path ∧ uri.query = none := by
  obtain ⟨-, -, hparts⟩ := parts_of_targetUri hweb (startsSegment_of_rooted hrooted) huri
  have htail : dropEnd '/' base.tail = base.path ++ '#' :: dropEnd '/' fragment := by
    rw [← dropEnd_append_cons (by decide)]
    simp [Url.tail, hnoquery, hfragment]
  rw [htail, List.append_assoc, List.append_assoc] at hparts
  have hmark : ∀ c ∈ ('#' :: dropEnd '/' fragment ++ (path ++ queryText query)).head?,
      c ∈ pathEnds := by
    intro c hc
    obtain rfl : '#' = c := Option.some.inj hc
    decide
  obtain ⟨hpath, hquery⟩ := Uri.eq_of_parsePath hweb.disjoint_path hmark hparts
  have hne : uri.pathText ≠ [] := by
    intro hnil
    have hhead := hweb.head?_path
    rw [← hpath, hnil] at hhead
    cases hhead
  exact ⟨(Uri.path_eq_pathText hne).trans hpath, hquery⟩

/-- What a pasted target says. -/
structure TargetLaw (base : Url) (path : List Char) (query : Option (List Char)) (uri : Uri) :
    Prop where
  /-- Everything comes through if the base URL has no fragment. -/
  faithful : base.fragment = none → Faithful base path query uri
  /-- Everything is lost behind a fragment. -/
  lost : base.fragment.isSome = true → uri.path = base.path ∧ uri.query = none

theorem targetLaw_of_web {site : List Char} (hweb : Web base site) (hnoquery : base.query = none)
    (hrooted : path.head? = some '/') (hclean : Uri.IsClean path query)
    (huri : targetUri base path query = .ok uri) : TargetLaw base path query uri := by
  refine ⟨fun h => faithful_of_targetUri hweb hnoquery h hrooted hclean huri, fun h => ?_⟩
  obtain ⟨fragment, hfragment⟩ := Option.isSome_iff_exists.mp h
  exact lost_of_targetUri hweb hnoquery hfragment hrooted huri

/-- **The path and the query of a target come through under a base URL without a fragment**, and
under one with a fragment they do not. -/
theorem targetLaw [Idna] (s : String) (base : Url) (hbase : parse s.toList = .ok base)
    (hproblem : Config.baseUrlProblem? s = none) (path : List Char) (query : Option (List Char))
    (hrooted : path.head? = some '/') (hclean : Uri.IsClean path query) (uri : Uri)
    (huri : targetUri base path query = .ok uri) : TargetLaw base path query uri := by
  obtain ⟨⟨site, hweb⟩, hnoquery⟩ := Config.web_of_baseUrlProblem? hbase hproblem
  exact targetLaw_of_web hweb hnoquery hrooted hclean huri

end Faithful

/-! A target under a base URL with everything but a fragment, and one under a base URL with it. -/

theorem targetLaw_userinfo :
    ∃ base r uri, parse "http://u:p@h:8080//v1//".toList = .ok base ∧
      Config.baseUrlProblem? "http://u:p@h:8080//v1//" = none ∧
      Uri.parse "//x/?a=1?b#c".toList = .ok r ∧ r.path.head? = some '/' ∧
      Uri.IsClean r.path r.query ∧ targetUri base r.path r.query = .ok uri ∧
      uri.text = "http://u:p@h:8080//v1//x/?a=1?b".toList ∧
      TargetLaw base r.path r.query uri := by
  let base : Url := ⟨"http".toList,
    some ⟨"u".toList, "p".toList, some (.name "h".toList), some 8080⟩, "//v1//".toList, none, none⟩
  let r : Uri := ⟨none, none, "//x/".toList, some "a=1?b".toList⟩
  let uri : Uri := ⟨some "http".toList, some "u:p@h:8080".toList, "//v1//x/".toList,
    some "a=1?b".toList⟩
  have hbase : parse "http://u:p@h:8080//v1//".toList = .ok base := by decide +kernel
  have hproblem : Config.baseUrlProblem? "http://u:p@h:8080//v1//" = none := by decide +kernel
  have hr : Uri.parse "//x/?a=1?b#c".toList = .ok r := by decide +kernel
  have huri : targetUri base r.path r.query = .ok uri := by decide +kernel
  have hclean := Uri.isClean_of_parse hr
  exact ⟨base, r, uri, hbase, hproblem, hr, rfl, hclean, huri, by decide +kernel,
    targetLaw _ base hbase hproblem r.path r.query rfl hclean uri huri⟩

theorem not_faithful_fragment :
    ∃ base r uri, parse "http://h/v1#f".toList = .ok base ∧
      Config.baseUrlProblem? "http://h/v1#f" = none ∧
      Uri.parse "/x?a=1".toList = .ok r ∧ r.path.head? = some '/' ∧
      targetUri base r.path r.query = .ok uri ∧ uri.text = "http://h/v1".toList ∧
      ¬ Faithful base r.path r.query uri := by
  let base : Url := ⟨"http".toList, some ⟨[], [], some (.name "h".toList), none⟩, "/v1".toList,
    none, some "f".toList⟩
  let r : Uri := ⟨none, none, "/x".toList, some "a=1".toList⟩
  let uri : Uri := ⟨some "http".toList, some "h".toList, "/v1".toList, none⟩
  have hlost : ¬ Faithful base r.path r.query uri := by
    intro hfaithful
    have hquery : (none : Option (List Char)) = some "a=1".toList := hfaithful.query_eq
    cases hquery
  exact ⟨base, r, uri, by decide +kernel, by decide +kernel, by decide +kernel, rfl,
    by decide +kernel, by decide +kernel, hlost⟩

end Gatehouse
