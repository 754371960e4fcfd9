import Gatehouse.Proofs.Gateway.OwnBreaker

/-!
# What the host of a target names

A target at which no service is belongs to the service that the first label of its host names:
`auth-service` names `auth`. The label may also go on after the name with a hyphen, as in
`auth-v2-service`. The services are gone through once and the first that is named in either way is
taken, so a name in the list can stand in the way of a longer one behind it.

* `firstLabel`, `NamedBy`, `namedBy_iff` : the services that a host names;
* `Belongs`, `exists_serviceOf?_iff` : a target belongs to a service by its place or by its host;
* `Leads` : a name goes on after another one with a hyphen;
* `HostLaw`, `hostLaw` : which service a label `n-service` leads to, in one order of the services
  and in all of them.
-/

namespace Gatehouse.Registry

open Gatehouse.Text

/-! ## Labels -/

def firstLabel (target : Url) : List Char := (pieces '.' (target.hostText?.getD [])).headD []

/-- The host of a target names a service: its first label is the name with `-service` behind it, or
starts with the name and a hyphen and ends with `-service`. -/
def NamedBy (target : Url) (service : String) : Prop :=
  firstLabel target = service.toList ++ "-service".toList ∨
    service.toList ++ ['-'] <+: firstLabel target ∧ "-service".toList <:+ firstLabel target

theorem beforeSuffix?_eq_some_iff {suffix s l : List Char} :
    beforeSuffix? suffix s = some l ↔ s = l ++ suffix := by
  unfold beforeSuffix?
  constructor
  · intro h
    split at h
    · rename_i hs
      obtain ⟨front, rfl⟩ := List.isSuffixOf_iff_suffix.mp hs
      rw [List.length_append, Nat.add_sub_cancel, List.take_left'] at h
      · rw [Option.some.inj h]
      · rfl
    · cases h
  · rintro rfl
    rw [if_pos (List.isSuffixOf_iff_suffix.mpr (List.suffix_append l suffix)), List.length_append,
      Nat.add_sub_cancel, List.take_left' rfl]

theorem hostLabel?_eq_some_iff {target : Url} {label : List Char} :
    hostLabel? target = some label ↔ firstLabel target = label ++ "-service".toList := by
  unfold hostLabel? firstLabel
  cases h : pieces '.' (target.hostText?.getD []) with
  | nil => exact absurd h (pieces_ne_nil '.' _)
  | cons first rest => exact beforeSuffix?_eq_some_iff

theorem labelNames_iff {label service : List Char} :
    labelNames label service = true ↔ label = service ∨ service ++ ['-'] <+: label := by
  simp [labelNames]

/-- Of two places of `c` in a text, one of them the last, one is the other or comes before it. -/
theorem eq_or_prefix_of_append_eq {c : Char} {s t rest last : List Char} (hlast : c ∉ last)
    (h : s ++ c :: rest = t ++ c :: last) : t = s ∨ s ++ [c] <+: t := by
  rcases split_split h with ⟨rfl, -, -⟩ | ⟨between, rfl, -⟩ | ⟨between, -, rfl⟩
  · exact .inl rfl
  · exact .inr ⟨between, (List.append_cons s c between).symm⟩
  · exact absurd (List.mem_append_right between List.mem_cons_self) hlast

theorem namedBy_iff {target : Url} {service : String} :
    NamedBy target service ↔
      ((hostLabel? target).any fun label => labelNames label service.toList) = true := by
  rw [Option.any_eq_true]
  constructor
  · rintro (h | ⟨⟨rest, hrest⟩, front, hfront⟩)
    · exact ⟨service.toList, hostLabel?_eq_some_iff.mpr h, labelNames_iff.mpr (.inl rfl)⟩
    · have hends : service.toList ++ '-' :: rest = front ++ '-' :: "service".toList := by
        rw [List.append_cons, hrest]
        exact hfront.symm
      exact ⟨front, hostLabel?_eq_some_iff.mpr hfront.symm,
        labelNames_iff.mpr (eq_or_prefix_of_append_eq (by decide) hends)⟩
  · rintro ⟨label, hlabel, hnames⟩
    rw [hostLabel?_eq_some_iff] at hlabel
    unfold NamedBy
    rw [hlabel]
    rcases labelNames_iff.mp hnames with rfl | hleads
    · exact .inl rfl
    · exact .inr ⟨hleads.trans (List.prefix_append _ _), List.suffix_append _ _⟩

instance (target : Url) (service : String) : Decidable (NamedBy target service) :=
  decidable_of_iff _ namedBy_iff.symm

/-! ## Targets -/

/-- The base URL of a service is the place that a target leads to. -/
def AtPlace [Idna] (base : String) (target : Url) : Prop :=
  ∃ u, Url.parse base.toList = .ok u ∧ sameOrigin u target = true

/-- A target belongs to a service by its place or by its host. Each service is given by its name and
its base URL. -/
def Belongs [Idna] (services : List (String × String)) (service : String) (target : Url) : Prop :=
  ∃ s ∈ services, s.1 = service ∧ (AtPlace s.2 target ∨ NamedBy target service)

theorem atPlace_iff [Idna] {base : String} {target : Url} :
    AtPlace base target ↔
      ((Url.parse base.toList).toOption.any fun u => sameOrigin u target) = true := by
  unfold AtPlace
  cases Url.parse base.toList with
  | error e => simp [Except.toOption]
  | ok u => simp [Except.toOption]

instance [Idna] (base : String) (target : Url) : Decidable (AtPlace base target) :=
  decidable_of_iff _ atPlace_iff.symm

instance [Idna] (services : List (String × String)) (service : String) (target : Url) :
    Decidable (Belongs services service target) :=
  inferInstanceAs (Decidable (∃ s ∈ services, _))

section OfServices
variable (services : List (String × String)) (settings : Breaker.Settings) (now : Moment)
  (target : Url)

/-- Among some services a target belongs to the first one at its place, or else to the first one
that its host names. -/
theorem serviceOf?_ofServices [Idna] :
    (ofServices services settings now).1.serviceOf? target =
      ((services.find? fun s => (Url.parse s.2.toList).toOption.any fun u => sameOrigin u target).or
        (services.find? fun s => (hostLabel? target).any fun l => labelNames l s.1.toList)).map
          Prod.fst := by
  unfold serviceOf?
  rw [entries_ofServices, List.find?_map, List.find?_map, Option.map_or, Option.map_or,
    Option.map_map, Option.map_map]
  rfl

variable {services settings now target}

theorem belongs_of_serviceOf? [Idna] {service : String}
    (h : (ofServices services settings now).1.serviceOf? target = some service) :
    Belongs services service target := by
  rw [serviceOf?_ofServices] at h
  obtain ⟨s, hs, rfl⟩ := Option.map_eq_some_iff.mp h
  rcases Option.or_eq_some_iff.mp hs with hs | ⟨-, hs⟩
  · have hfound := List.find?_some hs
    exact ⟨s, List.mem_of_find?_eq_some hs, rfl, .inl (atPlace_iff.mpr hfound)⟩
  · have hfound := List.find?_some hs
    exact ⟨s, List.mem_of_find?_eq_some hs, rfl, .inr (namedBy_iff.mpr hfound)⟩

theorem serviceOf?_eq_none_iff [Idna] :
    (ofServices services settings now).1.serviceOf? target = none ↔
      ∀ service, ¬ Belongs services service target := by
  rw [serviceOf?_ofServices, Option.map_eq_none_iff, Option.or_eq_none_iff, List.find?_eq_none,
    List.find?_eq_none]
  constructor
  · rintro ⟨hplace, hhost⟩ service ⟨s, hs, rfl, hat | hnamed⟩
    · exact hplace s hs (atPlace_iff.mp hat)
    · exact hhost s hs (namedBy_iff.mp hnamed)
  · intro h
    exact ⟨fun s hs hat => h s.1 ⟨s, hs, rfl, .inl (atPlace_iff.mpr hat)⟩,
      fun s hs hnamed => h s.1 ⟨s, hs, rfl, .inr (namedBy_iff.mpr hnamed)⟩⟩

/-! ## A label that is a name and `-service` -/

/-- `n` goes on after `s` with a hyphen. -/
def Leads (s n : String) : Prop := s.toList ++ ['-'] <+: n.toList

theorem Leads.ne {s n : String} (h : Leads s n) : s ≠ n := by
  rintro rfl
  have hlength := h.length_le
  rw [List.length_append, List.length_singleton] at hlength
  omega

theorem labelNames_toList_iff {n s : String} :
    labelNames n.toList s.toList = true ↔ s = n ∨ Leads s n := by
  rw [labelNames_iff, String.toList_inj, eq_comm]
  rfl

/-- No service in front of the one of this name has a name that this one goes on after. -/
def FirstNamed (services : List (String × String)) (n : String) : Prop :=
  ∀ before s after, services = before ++ s :: after → s.1 = n → ∀ t ∈ before, ¬ Leads t.1 n

section Label
variable (settings now)
variable [Idna] {n : String} (hplace : ∀ s ∈ services, ¬ AtPlace s.2 target)
  (hlabel : firstLabel target = n.toList ++ "-service".toList)
include hplace hlabel

theorem serviceOf?_of_label : (ofServices services settings now).1.serviceOf? target =
    (services.find? fun s => labelNames n.toList s.1.toList).map Prod.fst := by
  have hnone : (services.find? fun s =>
      (Url.parse s.2.toList).toOption.any fun u => sameOrigin u target) = none :=
    List.find?_eq_none.mpr fun s hs hat => hplace s hs (atPlace_iff.mpr hat)
  rw [serviceOf?_ofServices, hnone, Option.none_or, hostLabel?_eq_some_iff.mpr hlabel]
  rfl

/-- The first service that is named by its name or by a leading part of it answers. -/
theorem exists_first_of_label (hn : n ∈ services.map Prod.fst) : ∃ before s after,
    services = before ++ s :: after ∧ (s.1 = n ∨ Leads s.1 n) ∧
      (∀ t ∈ before, t.1 ≠ n ∧ ¬ Leads t.1 n) ∧
        (ofServices services settings now).1.serviceName target = s.1 := by
  obtain ⟨own, hown, rfl⟩ := List.mem_map.mp hn
  have hsome : (services.find? fun s => labelNames own.1.toList s.1.toList).isSome = true :=
    List.find?_isSome.mpr ⟨own, hown, labelNames_toList_iff.mpr (.inl rfl)⟩
  obtain ⟨s, hs⟩ := Option.isSome_iff_exists.mp hsome
  obtain ⟨hnames, before, after, hsplit, hbefore⟩ := List.find?_eq_some_iff_append.mp hs
  refine ⟨before, s, after, hsplit, labelNames_toList_iff.mp hnames, fun t ht => ?_, ?_⟩
  · have hnot := hbefore t ht
    rw [Bool.not_eq_true', ← Bool.not_eq_true, labelNames_toList_iff, not_or] at hnot
    exact hnot
  · unfold serviceName
    rw [serviceOf?_of_label settings now hplace hlabel, hs]
    rfl

/-- Among services with names of their own the label leads to its name exactly if that is first. -/
theorem serviceName_eq_iff (hnodup : (services.map Prod.fst).Nodup)
    (hn : n ∈ services.map Prod.fst) :
    (ofServices services settings now).1.serviceName target = n ↔ FirstNamed services n := by
  obtain ⟨before, s, after, hsplit, hnames, hbefore, hanswer⟩ :=
    exists_first_of_label settings now hplace hlabel hn
  rw [hanswer]
  constructor
  · intro hs before' s' after' hsplit' hs' t ht hleads
    have hmem : s ∈ before' := by
      rcases split_split (hsplit.symm.trans hsplit') with
        ⟨rfl, -, -⟩ | ⟨between, rfl, -⟩ | ⟨between, rfl, -⟩
      · exact absurd hleads (hbefore t ht).2
      · exact List.mem_append_right before List.mem_cons_self
      · exact absurd hleads (hbefore t (List.mem_append_left _ ht)).2
    rw [hsplit', List.map_append, List.nodup_append] at hnodup
    exact hnodup.2.2 s.1 (List.mem_map_of_mem hmem) s'.1 List.mem_cons_self (hs.trans hs'.symm)
  · intro hfirst
    by_contra hs
    have hleads := hnames.resolve_left hs
    obtain ⟨own, hown, hname⟩ := List.mem_map.mp hn
    obtain ⟨before', after', hsplit'⟩ := List.append_of_mem hown
    have hmem : s ∈ before' := by
      rcases split_split (hsplit.symm.trans hsplit') with
        ⟨-, rfl, -⟩ | ⟨between, rfl, -⟩ | ⟨between, rfl, -⟩
      · exact absurd hname hs
      · exact List.mem_append_right before List.mem_cons_self
      · exact absurd hname (hbefore own (List.mem_append_right _ List.mem_cons_self)).1
    exact hfirst before' own after' hsplit' hname s hmem hleads

end Label

/-! ## The law -/

/-- Which service a label leads to that is the name `n` and `-service`. -/
structure HostLaw [Idna] (services : List (String × String)) (settings : Breaker.Settings)
    (now : Moment) (target : Url) (n : String) : Prop where
  /-- It is the service of that name, or one whose name leads it. -/
  answer : ∃ s ∈ services, (ofServices services settings now).1.serviceName target = s.1 ∧
    (s.1 = n ∨ Leads s.1 n)
  /-- It is the service of that name exactly if none that leads it comes before it. -/
  eq_iff : (ofServices services settings now).1.serviceName target = n ↔ FirstNamed services n
  /-- It is so in every order of the services exactly if there is none that leads it. -/
  every_order_iff : (∀ services' : List (String × String), services'.Perm services →
    (ofServices services' settings now).1.serviceName target = n) ↔ ∀ s ∈ services, ¬ Leads s.1 n

/-- **The host label names the service**, unless a name that is a leading part of the label's comes
first. -/
theorem hostLaw [Idna] {n : String} (hnodup : (services.map Prod.fst).Nodup)
    (hplace : ∀ s ∈ services, ¬ AtPlace s.2 target)
    (hlabel : firstLabel target = n.toList ++ "-service".toList) (hn : n ∈ services.map Prod.fst)
    (settings : Breaker.Settings) (now : Moment) : HostLaw services settings now target n := by
  -- what holds of the services holds of them in any order
  have hfirst : ∀ services' : List (String × String), services'.Perm services →
      ((ofServices services' settings now).1.serviceName target = n ↔ FirstNamed services' n) :=
    fun services' hperm =>
      serviceName_eq_iff settings now (fun s hs => hplace s (hperm.mem_iff.mp hs)) hlabel
        ((hperm.map Prod.fst).nodup_iff.mpr hnodup) ((hperm.map Prod.fst).mem_iff.mpr hn)
  refine ⟨?_, hfirst services (.refl services), ?_, ?_⟩
  · obtain ⟨before, s, after, hsplit, hnames, -, hanswer⟩ :=
      exists_first_of_label settings now hplace hlabel hn
    refine ⟨s, ?_, hanswer, hnames⟩
    rw [hsplit]
    exact List.mem_append_right before List.mem_cons_self
  · intro h s hs hleads
    obtain ⟨own, hown, hname⟩ := List.mem_map.mp hn
    have hne : own ≠ s := by
      rintro rfl
      exact hleads.ne hname
    have hperm : (s :: services.erase s).Perm services := (List.perm_cons_erase hs).symm
    obtain ⟨before, after, hsplit⟩ := List.append_of_mem ((List.mem_erase_of_ne hne).mpr hown)
    refine (hfirst _ hperm).mp (h _ hperm) (s :: before) own after ?_ hname s List.mem_cons_self
      hleads
    rw [hsplit]
    rfl
  · intro h services' hperm
    refine (hfirst services' hperm).mpr ?_
    rintro before s after rfl - t ht
    exact h t (hperm.mem_iff.mp (List.mem_append_left _ ht))

end OfServices

/-! Two services, the name of one a leading part of the name of the other, and a target whose host
names the other. -/

def seats : List (String × String) :=
  [("seat", "http://10.0.0.1:3004"), ("seat-reservation", "http://10.0.0.2:3005")]

def toReservation : Url :=
  ⟨"http".toList, some ⟨[], [], some (.name "seat-reservation-service".toList), some 3004⟩,
    "/".toList, none, none⟩

/-- The label leads to one of the two, and which one it is depends on their order. -/
theorem hostLaw_reservation :
    (seats.map Prod.fst).Nodup ∧ (∀ s ∈ seats, ¬ AtPlace s.2 toReservation) ∧
      firstLabel toReservation = "seat-reservation".toList ++ "-service".toList ∧
      "seat-reservation" ∈ seats.map Prod.fst ∧
      HostLaw seats default 0 toReservation "seat-reservation" := by
  have hnodup : (seats.map Prod.fst).Nodup := by decide
  have hplace : ∀ s ∈ seats, ¬ AtPlace s.2 toReservation := by decide +kernel
  have hlabel : firstLabel toReservation = "seat-reservation".toList ++ "-service".toList := by
    decide +kernel
  exact ⟨hnodup, hplace, hlabel, by decide, hostLaw hnodup hplace hlabel (by decide) default 0⟩

theorem not_named_reservation :
    Url.parse "http://seat-reservation-service:3004".toList = .ok toReservation ∧
      (seats.map Prod.fst).Nodup ∧ (∀ s ∈ seats, ¬ AtPlace s.2 toReservation) ∧
      firstLabel toReservation = "seat-reservation".toList ++ "-service".toList ∧
      "seat-reservation" ∈ seats.map Prod.fst ∧
      (ofServices seats default 0).1.serviceName toReservation = "seat" ∧
      (ofServices seats.reverse default 0).1.serviceName toReservation = "seat-reservation" := by
  refine ⟨?_, by decide, ?_, ?_, by decide, ?_, ?_⟩
  · decide +kernel
  · decide +kernel
  · decide +kernel
  · decide +kernel
  · decide +kernel

end Gatehouse.Registry
