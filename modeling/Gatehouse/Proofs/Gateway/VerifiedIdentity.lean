import Gatehouse.Forwarding
import Mathlib.Tactic.SplitIfs

/-!
# Who a backend is told is calling

What a backend sees under the identity headers comes from the verified identity alone; what the
client wrote there, under any spelling and however often, is neither passed on nor otherwise felt.

* `Headers.ofWritten?` : headers from what a client wrote, names in letters of any case;
* `values_strip`, `values_apply` : the values of every name once the identity headers are set;
* `Forwarded` : the request that a backend sees, header by header, and `forwarded_of_outbound`;
* `Alike`, `alike_outbound` : two requests that differ only where the gateway writes are passed on
  alike;
* `identityLaw` : both for requests as their clients wrote them.
-/

namespace Gatehouse

open Gatehouse.Http Gatehouse.Text

/-! ## Headers as they are written -/

/-- Header lines as a client writes them. -/
abbrev Written := List (List Char × Bytes)

/-- The values written under a name, whatever the case of its letters. -/
def Written.values (name : List Char) (written : Written) : List Bytes :=
  (written.filter fun line => lower line.1 = name).map (·.2)

/-- A header from its written name and value, if they are a name and a value. -/
def Http.Header.ofWritten? (line : List Char × Bytes) : Option Header :=
  (headerName? line.1).bind fun name =>
    if isHeaderValue line.2 then some ⟨name, line.2⟩ else none

def Http.Headers.ofWritten? (written : Written) : Option Headers := written.mapM Header.ofWritten?

theorem Http.Header.eq_of_ofWritten? {line : List Char × Bytes} {h : Header}
    (hl : Header.ofWritten? line = some h) : h = ⟨lower line.1, line.2⟩ := by
  unfold Header.ofWritten? headerName? at hl
  obtain ⟨name, hname, hvalue⟩ := Option.bind_eq_some_iff.mp hl
  split_ifs at hname hvalue
  obtain rfl := Option.some.inj hname
  exact (Option.some.inj hvalue).symm

/-- Reading puts all values of a name together, whatever the case of its letters. -/
theorem Http.Headers.values_of_ofWritten? {written : Written} {headers : Headers}
    (h : Headers.ofWritten? written = some headers) (name : List Char) :
    Headers.values name headers = written.values name := by
  unfold Headers.ofWritten? at h
  induction written generalizing headers with
  | nil =>
    obtain rfl : [] = headers := by simpa using h
    rfl
  | cons line written ih =>
    rw [List.mapM_cons] at h
    obtain ⟨first, hfirst, h⟩ := Option.bind_eq_some_iff.mp h
    obtain ⟨rest, hrest, h⟩ := Option.bind_eq_some_iff.mp h
    obtain rfl := Option.some.inj h
    obtain rfl := Header.eq_of_ofWritten? hfirst
    have ih := ih hrest
    unfold Headers.values Written.values at ih ⊢
    by_cases hn : lower line.1 = name
    · simp [hn, ih]
    · simp [hn, ih]

/-- Written headers that differ only in lines for the headers in `owned` have the same values under
all others. -/
theorem Written.values_eq_of_filter_eq {owned : List (List Char)} {written written' : Written}
    (h : (written.filter fun line => lower line.1 ∉ owned) =
      written'.filter fun line => lower line.1 ∉ owned)
    {name : List Char} (hn : name ∉ owned) : written.values name = written'.values name := by
  have hfilter (lines : Written) : lines.values name =
      Written.values name (lines.filter fun line => lower line.1 ∉ owned) := by
    unfold Written.values
    rw [List.filter_filter]
    refine congrArg _ (List.filter_congr fun line _ => ?_)
    by_cases hl : lower line.1 = name
    · simp [hl, hn]
    · simp [hl]
  rw [hfilter written, h, ← hfilter written']

/-! ## The identity headers -/

namespace Identity

theorem values_strip (name : List Char) (headers : Headers) :
    Headers.values name (strip headers) =
      if name ∈ headerNames then [] else Headers.values name headers := by
  simp only [strip, headerNames, List.foldl_cons, List.foldl_nil, Headers.values_erase,
    List.mem_cons, List.not_mem_nil, or_false]
  split_ifs <;> simp_all

/-- What a backend sees under an identity header: its value once, or nothing when the value cannot
stand in a header. -/
def shown (value : String) : List Bytes :=
  if isHeaderValue (bytesOf value) then [bytesOf value] else []

theorem values_applyField (name : List Char) (headers : Headers) (field : List Char)
    (value : String) :
    Headers.values name (applyField headers field value).1 =
      if name = field then shown value else Headers.values name headers := by
  unfold applyField shown
  by_cases hv : isHeaderValue (bytesOf value) = true
  · simp [hv]
  · simp [hv]

theorem apply_fst (i : Identity) (headers : Headers) :
    (i.apply headers).1 =
      (applyField (applyField (applyField headers userIdHeader i.userId).1 emailHeader i.email).1
        roleHeader i.role).1 := rfl

/-- A verified identity shows its own values and nothing else under the identity headers. -/
theorem values_apply_of_mem (i : Identity) (headers : Headers) {field : List Char × String}
    (hf : field ∈ i.fields) : Headers.values field.1 (i.apply headers).1 = shown field.2 := by
  have hue : userIdHeader ≠ emailHeader := by decide
  have hur : userIdHeader ≠ roleHeader := by decide
  have her : emailHeader ≠ roleHeader := by decide
  unfold fields at hf
  rw [apply_fst, values_applyField, values_applyField, values_applyField]
  rcases List.mem_cons.mp hf with rfl | hf
  · rw [if_neg hur, if_neg hue, if_pos rfl]
  rcases List.mem_cons.mp hf with rfl | hf
  · rw [if_neg her, if_pos rfl]
  obtain rfl := List.mem_singleton.mp hf
  rw [if_pos rfl]

theorem values_apply_of_not_mem (i : Identity) (headers : Headers) {name : List Char}
    (hn : name ∉ headerNames) :
    Headers.values name (i.apply headers).1 = Headers.values name headers := by
  unfold headerNames at hn
  simp only [List.mem_cons, List.not_mem_nil, or_false, not_or] at hn
  obtain ⟨hu, he, hr⟩ := hn
  rw [apply_fst, values_applyField, values_applyField, values_applyField, if_neg hr, if_neg he,
    if_neg hu]

theorem map_fst_fields (i : Identity) : i.fields.map Prod.fst = headerNames := rfl

theorem apply_snd_eq (i : Identity) (headers headers' : Headers) :
    (i.apply headers).2 = (i.apply headers').2 := by
  have h (hs hs' : Headers) (name : List Char) (value : String) :
      (applyField hs name value).2 = (applyField hs' name value).2 := by
    unfold applyField
    dsimp only
    split_ifs <;> rfl
  unfold apply fields
  simp only [List.foldl_cons, List.foldl_nil]
  rw [h _ headers' userIdHeader, h _ (applyField headers' userIdHeader i.userId).1 emailHeader,
    h _ (applyField (applyField headers' userIdHeader i.userId).1 emailHeader i.email).1 roleHeader]

end Identity

/-! ## The request that a backend sees -/

/-- The headers that are the gateway's to write: the client's own say nothing. -/
def gatewayHeaders : List (List Char) := hostHeader :: Identity.headerNames

/-- The request `o` that a backend sees of `r`, header by header. -/
structure Forwarded (rules : ForwardingRules) (r : Request) (o : Outbound) : Prop where
  method_eq : o.method = r.method
  body_eq : o.body = r.body
  /-- A verified identity is shown under the identity headers, each value once. -/
  verified : ∀ i, r.identity = some i → ∀ field ∈ i.fields,
    Headers.values field.1 o.headers = Identity.shown field.2
  /-- Without one there are no identity headers, if they are to be stripped, -/
  anonymous : r.identity = none → rules.stripClientIdentity = true →
    ∀ name ∈ Identity.headerNames, Headers.values name o.headers = []
  /-- and otherwise they are those of the client. -/
  unverified : r.identity = none → rules.stripClientIdentity = false →
    ∀ name ∈ Identity.headerNames, Headers.values name o.headers = Headers.values name r.headers
  host_nil : Headers.values hostHeader o.headers = []
  /-- All other headers keep their values in their order. -/
  others : ∀ name ∉ gatewayHeaders, Headers.values name o.headers = Headers.values name r.headers

/-- Whether a request can be passed on depends on its target alone. -/
theorem outbound_eq (rules : ForwardingRules) (base : Url) (r : Request) :
    outbound rules base r =
      (targetUri base (stripPath rules.stripPrefix r.uri.path) r.uri.query).map fun uri =>
        (⟨r.method, uri, (outboundHeaders rules r).1, r.body⟩, (outboundHeaders rules r).2) := by
  unfold outbound
  cases targetUri base (stripPath rules.stripPrefix r.uri.path) r.uri.query with
  | error e => rfl
  | ok uri => rfl

theorem hostHeader_not_mem : hostHeader ∉ Identity.headerNames := by decide

theorem outboundHeaders_of_some (rules : ForwardingRules) {r : Request} {i : Identity}
    (hi : r.identity = some i) :
    outboundHeaders rules r = i.apply (Headers.erase hostHeader r.headers) := by
  unfold outboundHeaders
  rw [hi]

theorem outboundHeaders_of_none (rules : ForwardingRules) {r : Request} (hi : r.identity = none) :
    outboundHeaders rules r =
      (if rules.stripClientIdentity then Identity.strip (Headers.erase hostHeader r.headers)
        else Headers.erase hostHeader r.headers, []) := by
  unfold outboundHeaders
  rw [hi]

theorem values_outboundHeaders_of_not_mem (rules : ForwardingRules) (r : Request)
    {name : List Char} (hn : name ∉ Identity.headerNames) :
    Headers.values name (outboundHeaders rules r).1 =
      if name = hostHeader then [] else Headers.values name r.headers := by
  rw [← Headers.values_erase]
  cases hi : r.identity with
  | some i => rw [outboundHeaders_of_some rules hi, Identity.values_apply_of_not_mem i _ hn]
  | none =>
    rw [outboundHeaders_of_none rules hi]
    by_cases hs : rules.stripClientIdentity = true
    · rw [if_pos hs, Identity.values_strip, if_neg hn]
    · rw [if_neg hs]

theorem forwarded_of_outbound {rules : ForwardingRules} {base : Url} {r : Request} {o : Outbound}
    {events : List Event} (h : outbound rules base r = .ok (o, events)) : Forwarded rules r o := by
  rw [outbound_eq] at h
  obtain ⟨uri, rfl⟩ : ∃ uri, ⟨r.method, uri, (outboundHeaders rules r).1, r.body⟩ = o := by
    cases ht : targetUri base (stripPath rules.stripPrefix r.uri.path) r.uri.query with
    | error e =>
      rw [ht] at h
      cases h
    | ok uri =>
      rw [ht] at h
      exact ⟨uri, congrArg Prod.fst (Except.ok.inj h)⟩
  refine ⟨rfl, rfl, fun i hi field hf => ?_, fun hi hs name hn => ?_, fun hi hs name hn => ?_, ?_,
    fun name hn => ?_⟩
  · show Headers.values field.1 (outboundHeaders rules r).1 = _
    rw [outboundHeaders_of_some rules hi]
    exact i.values_apply_of_mem _ hf
  · show Headers.values name (outboundHeaders rules r).1 = _
    rw [outboundHeaders_of_none rules hi, if_pos hs, Identity.values_strip, if_pos hn]
  · show Headers.values name (outboundHeaders rules r).1 = _
    have hne : name ≠ hostHeader := fun he => hostHeader_not_mem (he ▸ hn)
    rw [outboundHeaders_of_none rules hi, hs, if_neg Bool.false_ne_true, Headers.values_erase,
      if_neg hne]
  · show Headers.values hostHeader (outboundHeaders rules r).1 = _
    rw [values_outboundHeaders_of_not_mem rules r hostHeader_not_mem, if_pos rfl]
  · show Headers.values name (outboundHeaders rules r).1 = _
    unfold gatewayHeaders at hn
    rw [List.mem_cons, not_or] at hn
    rw [values_outboundHeaders_of_not_mem rules r hn.2, if_neg hn.1]

/-! ## Two requests -/

/-- Two results of passing a request on that are the same: the same refusal, or the same request with
the same notices. The order of different headers says nothing. -/
def Alike : (x y : Except UriError (Outbound × List Event)) → Prop
  | .ok (a, es), .ok (b, fs) =>
    a.method = b.method ∧ a.uri = b.uri ∧ a.body = b.body ∧
      (∀ name, Headers.values name a.headers = Headers.values name b.headers) ∧ es = fs
  | .error e, .error f => e = f
  | _, _ => False

theorem values_outboundHeaders_of_mem {rules : ForwardingRules} {r s : Request}
    (hid : s.identity = r.identity)
    (hset : r.identity.isSome = true ∨ rules.stripClientIdentity = true) {name : List Char}
    (hn : name ∈ Identity.headerNames) :
    Headers.values name (outboundHeaders rules r).1 =
      Headers.values name (outboundHeaders rules s).1 := by
  cases hi : r.identity with
  | some i =>
    obtain ⟨field, hf, rfl⟩ := List.mem_map.mp (i.map_fst_fields.symm ▸ hn)
    rw [outboundHeaders_of_some rules hi, outboundHeaders_of_some rules (hid.trans hi),
      i.values_apply_of_mem _ hf, i.values_apply_of_mem _ hf]
  | none =>
    have hs : rules.stripClientIdentity = true := by simpa [hi] using hset
    rw [outboundHeaders_of_none rules hi, outboundHeaders_of_none rules (hid.trans hi), if_pos hs,
      if_pos hs, Identity.values_strip, Identity.values_strip, if_pos hn, if_pos hn]

theorem outboundHeaders_snd_eq (rules : ForwardingRules) {r s : Request}
    (hid : s.identity = r.identity) :
    (outboundHeaders rules r).2 = (outboundHeaders rules s).2 := by
  cases hi : r.identity with
  | some i =>
    rw [outboundHeaders_of_some rules hi, outboundHeaders_of_some rules (hid.trans hi)]
    exact i.apply_snd_eq _ _
  | none => rw [outboundHeaders_of_none rules hi, outboundHeaders_of_none rules (hid.trans hi)]

/-- Requests that differ only under the headers that are the gateway's to write are passed on alike,
where the gateway does write them. -/
theorem alike_outbound {rules : ForwardingRules} (base : Url) {r : Request} {headers : Headers}
    (hagree : ∀ name ∉ gatewayHeaders, Headers.values name r.headers = Headers.values name headers)
    (hset : r.identity.isSome = true ∨ rules.stripClientIdentity = true) :
    Alike (outbound rules base r) (outbound rules base { r with headers := headers }) := by
  have hvalues (name : List Char) : Headers.values name (outboundHeaders rules r).1 =
      Headers.values name (outboundHeaders rules { r with headers := headers }).1 := by
    by_cases hn : name ∈ Identity.headerNames
    · exact values_outboundHeaders_of_mem (r := r) (s := { r with headers := headers }) rfl hset hn
    rw [values_outboundHeaders_of_not_mem rules r hn, values_outboundHeaders_of_not_mem rules _ hn]
    by_cases hh : name = hostHeader
    · rw [if_pos hh, if_pos hh]
    have hg : name ∉ gatewayHeaders := by simp [gatewayHeaders, hh, hn]
    rw [if_neg hh, if_neg hh]
    exact hagree name hg
  rw [outbound_eq, outbound_eq]
  cases targetUri base (stripPath rules.stripPrefix r.uri.path) r.uri.query with
  | error e => rfl
  | ok uri => exact ⟨rfl, rfl, rfl, hvalues, outboundHeaders_snd_eq rules rfl⟩

/-! ## The law -/

/-- What the client of `r` can do about its identity by writing other headers in place of its own:
nothing. -/
structure IdentityLaw (rules : ForwardingRules) (base : Url) (r : Request) (headers : Headers) :
    Prop where
  /-- Where the gateway writes the identity headers, it makes no difference what the client wrote. -/
  alike : r.identity.isSome = true ∨ rules.stripClientIdentity = true →
    Alike (outbound rules base r) (outbound rules base { r with headers := headers })
  forwarded : ∀ o events, outbound rules base r = .ok (o, events) → Forwarded rules r o
  /-- No header keeps a request from being passed on. -/
  error_iff : ∀ e, outbound rules base r = .error e ↔
    targetUri base (stripPath rules.stripPrefix r.uri.path) r.uri.query = .error e

/-- **Identity cannot be spoofed.** Two clients write the same request, but for lines under the host
and the identity headers, in any spelling, number and order. -/
theorem identityLaw (rules : ForwardingRules) (base : Url) (r : Request) (headers : Headers)
    {written written' : Written} (hw : Headers.ofWritten? written = some r.headers)
    (hw' : Headers.ofWritten? written' = some headers)
    (hagree : ∀ name ∉ gatewayHeaders, written.values name = written'.values name) :
    IdentityLaw rules base r headers where
  alike := by
    refine alike_outbound base fun name hn => ?_
    rw [Headers.values_of_ofWritten? hw, Headers.values_of_ofWritten? hw', hagree name hn]
  forwarded o events h := forwarded_of_outbound h
  error_iff e := by
    rw [outbound_eq]
    cases targetUri base (stripPath rules.stripPrefix r.uri.path) r.uri.query with
    | error f =>
      constructor
      · intro h
        exact congrArg Except.error (Except.error.inj h)
      · intro h
        exact congrArg Except.error (Except.error.inj h)
    | ok uri => exact iff_of_false nofun nofun

/-! A client that claims to be someone else, in three spellings, and one that does not. -/

def pretender : Written :=
  [("Host".toList, bytesOf "b"), ("X-User-ID".toList, bytesOf "root"),
    ("x-user-id".toList, bytesOf "admin"), ("Accept".toList, bytesOf "a"),
    ("X-USER-ROLE".toList, bytesOf "admin")]

def honest : Written := [("Accept".toList, bytesOf "a")]

/-- What the pretender asks for, with the headers as they are read. Its role is no header value. -/
def pretended : Request where
  method := .get
  uri := ⟨none, none, "/api/users".toList, none⟩
  headers :=
    [⟨hostHeader, bytesOf "b"⟩, ⟨Identity.userIdHeader, bytesOf "root"⟩,
      ⟨Identity.userIdHeader, bytesOf "admin"⟩, ⟨"accept".toList, bytesOf "a"⟩,
      ⟨Identity.roleHeader, bytesOf "admin"⟩]
  body := []
  peer := none
  identity := some ⟨"u-1", "u@e", "bad\nrole"⟩

/-- The verified name goes out once, and the role, which cannot, not at all. -/
theorem identityLaw_pretender :
    Headers.ofWritten? pretender = some pretended.headers ∧
      Headers.ofWritten? honest = some [⟨"accept".toList, bytesOf "a"⟩] ∧
      IdentityLaw ⟨"/api".toList, true⟩ ⟨"http".toList, none, ['/'], none, none⟩ pretended
        [⟨"accept".toList, bytesOf "a"⟩] ∧
      (outboundHeaders ⟨"/api".toList, true⟩ pretended).1 =
        [⟨"accept".toList, bytesOf "a"⟩, ⟨Identity.userIdHeader, bytesOf "u-1"⟩,
          ⟨Identity.emailHeader, bytesOf "u@e"⟩] := by
  have hw : Headers.ofWritten? pretender = some pretended.headers := by decide +kernel
  have hw' : Headers.ofWritten? honest = some [⟨"accept".toList, bytesOf "a"⟩] := by decide +kernel
  have hagree : (pretender.filter fun line => lower line.1 ∉ gatewayHeaders) =
      honest.filter fun line => lower line.1 ∉ gatewayHeaders := by decide +kernel
  refine ⟨hw, hw', ?_, by decide +kernel⟩
  exact identityLaw _ _ pretended _ hw hw' fun _ hn => Written.values_eq_of_filter_eq hagree hn

end Gatehouse
