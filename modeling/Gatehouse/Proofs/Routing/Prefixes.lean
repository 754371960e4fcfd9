import Gatehouse.Forwarding
import Gatehouse.Proofs.Config.Valid
import Gatehouse.Proofs.Routing.Segments

/-!
# Prefixes of whole segments

A prefix is looked for in a path twice: a route asks whether a path lies under its prefix, and the
gateway takes its own prefix off the paths that it passes on. Both go by whole segments, and the
gateway takes its prefix off exactly the paths that a route with that prefix would take.

* `dropEnd_append_replicate`, `dropEnd_eq_self` : slashes at the end of a prefix;
* `stripPath_of_isUnder`, `stripPath_of_not_isUnder` : a path under a prefix, and any other path;
* `Config.Accepts` : a prefix that some valid configuration strips;
* `PrefixLaw`, `prefixLaw` : what a prefix matches, and what is left without it.
-/

namespace Gatehouse

open Gatehouse.Http Gatehouse.Routing Gatehouse.Text

namespace Text

theorem dropEnd_append_replicate (c : Char) (s : List Char) (n : Nat) :
    dropEnd c (s ++ .replicate n c) = dropEnd c s := by
  induction s with
  | nil =>
    rw [List.nil_append, dropEnd_nil]
    induction n with
    | zero => rfl
    | succ n ih =>
      rw [List.replicate_succ, dropEnd, ih]
      exact if_pos rfl
  | cons x s ih => rw [List.cons_append, dropEnd, dropEnd, ih]

theorem dropEnd_eq_self {c : Char} {s : List Char} (h : s.getLast? ≠ some c) : dropEnd c s = s := by
  obtain ⟨n, hn⟩ := exists_append_dropEnd c s
  cases n with
  | zero => exact (hn.trans (List.append_nil _)).symm
  | succ n =>
    rw [List.replicate_succ', ← List.append_assoc] at hn
    exact absurd (hn ▸ List.getLast?_concat) h

end Text

/-! ## Stripping -/

section Strip
variable {p path : List Char}

/-- From a path under a prefix it is taken off, and the root is left of the prefix itself. -/
theorem stripPath_of_isUnder (hp : p ≠ []) (h : isUnder p path = true) :
    path = p ∧ stripPath p path = ['/'] ∨
      p ++ stripPath p path = path ∧ (stripPath p path).head? = some '/' := by
  obtain ⟨rest, hrest, hstarts⟩ := (Option.any_eq_true _ _).mp h
  unfold stripPath
  rw [if_neg (by simpa using hp), hrest]
  obtain rfl := afterPrefix?_eq_some_iff.mp hrest
  cases rest with
  | nil => exact .inl ⟨List.append_nil p, rfl⟩
  | cons c rest =>
    obtain rfl : c = '/' := of_decide_eq_true hstarts
    exact .inr ⟨rfl, rfl⟩

/-- A path that does not lie under a prefix is kept. -/
theorem stripPath_of_not_isUnder (h : isUnder p path = false) : stripPath p path = path := by
  unfold stripPath
  split
  · rfl
  · unfold isUnder at h
    split
    · rename_i hrest
      rw [hrest] at h
      cases h
    · rename_i rest _ hrest
      rw [hrest] at h
      exact if_neg (by simpa using h)
    · rfl

theorem head?_stripPath (hroot : path.head? = some '/') : (stripPath p path).head? = some '/' := by
  by_cases hp : p = []
  · rw [hp]
    exact hroot
  · cases h : isUnder p path with
    | true =>
      rcases stripPath_of_isUnder hp h with ⟨-, hstrip⟩ | ⟨-, hhead⟩
      · rw [hstrip]
        rfl
      · exact hhead
    | false => rwa [stripPath_of_not_isUnder h]

end Strip

namespace Config

/-- A prefix that a valid configuration may have the gateway strip. -/
def Accepts [Idna] (p : List Char) : Prop :=
  ∃ c : Config, c.isValid = true ∧ c.proxy.stripPrefix.toList = p

theorem Accepts.getLast?_ne [Idna] {p : List Char} (h : Accepts p) (hp : p ≠ []) :
    p.getLast? ≠ some '/' := by
  obtain ⟨c, hvalid, rfl⟩ := h
  obtain ⟨-, -, -, -, -, -, hproxy, -⟩ := c.isValid_iff.1 hvalid
  unfold Proxy.problems Proxy.isStrippable at hproxy
  simp only [when_eq_nil_iff, Bool.not_eq_false', Bool.or_eq_true, List.isEmpty_iff,
    Bool.and_eq_true, decide_eq_true_eq] at hproxy
  exact (hproxy.resolve_left hp).2

end Config

/-! ## The law -/

/-- What a prefix, as it is written, matches, and what is left of a path without it. -/
structure PrefixLaw [Idna] (p : List Char) : Prop where
  /-- A prefix is trimmed of the slashes at its end, and of nothing else. -/
  trimmed : (∃ n, p = trimPrefix p ++ .replicate n '/') ∧ (trimPrefix p).getLast? ≠ some '/'
  /-- It matches the paths whose segments begin with those of the trimmed prefix. -/
  holds_iff : ∀ method path, (Condition.underPrefix p).holds method path = true ↔
    pieces '/' (trimPrefix p) <+: pieces '/' path
  /-- Slashes that are added at the end change nothing. -/
  slashes : ∀ n, Condition.underPrefix (p ++ .replicate n '/') = Condition.underPrefix p
  /-- As a prefix to be stripped it changes the paths that it matches, and no others. -/
  changed_iff : Config.Accepts p → p ≠ [] → ∀ method path,
    stripPath p path ≠ path ↔ (Condition.underPrefix p).holds method path = true
  /-- It is taken off such a path; of the prefix itself the root is left. -/
  stripped : Config.Accepts p → p ≠ [] → ∀ method path,
    (Condition.underPrefix p).holds method path = true →
      path = p ∧ stripPath p path = ['/'] ∨
        p ++ stripPath p path = path ∧ (stripPath p path).head? = some '/'
  /-- A rooted path stays rooted. -/
  rooted : ∀ path, path.head? = some '/' → (stripPath p path).head? = some '/'

theorem underPrefix_holds (p : List Char) (method : Method) (path : List Char) :
    (Condition.underPrefix p).holds method path = isUnder (trimPrefix p) path := by
  rw [Condition.underPrefix, Condition.holds]

/-- **Matching a prefix and stripping it agree, and go by whole segments**, for every prefix and
every path. -/
theorem prefixLaw [Idna] (p : List Char) : PrefixLaw p := by
  have htrim (ha : Config.Accepts p) (hp : p ≠ []) : trimPrefix p = p :=
    dropEnd_eq_self (ha.getLast?_ne hp)
  refine {
    trimmed := ⟨exists_append_dropEnd '/' p, getLast?_dropEnd '/' p⟩
    holds_iff := fun method path => by rw [underPrefix_holds, isUnder_iff]
    slashes := fun n => congrArg Condition.under (dropEnd_append_replicate '/' p n)
    changed_iff := ?_
    stripped := ?_
    rooted := fun _ hroot => head?_stripPath hroot }
  · intro ha hp method path
    rw [underPrefix_holds, htrim ha hp]
    cases h : isUnder p path with
    | true =>
      refine iff_of_true (fun heq => ?_) rfl
      rcases stripPath_of_isUnder hp h with ⟨hpath, hstrip⟩ | ⟨happend, -⟩
      · -- the prefix is not the root, because it does not end with a slash
        refine ha.getLast?_ne hp ?_
        rw [← hpath, ← heq, hstrip]
        rfl
      · rw [heq] at happend
        exact hp (List.append_left_eq_self.mp happend)
    | false => exact iff_of_false (not_not_intro (stripPath_of_not_isUnder h)) Bool.false_ne_true
  · intro ha hp method path h
    rw [underPrefix_holds, htrim ha hp] at h
    exact stripPath_of_isUnder hp h

/-- The prefix of a new configuration is one that is stripped: `/api` itself becomes the root, what
lies under it comes through without it, and `/apix` is left alone. -/
theorem prefixLaw_api :
    Config.Accepts "/api".toList ∧ "/api".toList ≠ [] ∧ PrefixLaw "/api".toList ∧
      stripPath "/api".toList "/api".toList = ['/'] ∧
      stripPath "/api".toList "/api//users".toList = "//users".toList ∧
      stripPath "/api".toList "/apix".toList = "/apix".toList := by
  refine ⟨⟨default, by decide +kernel, by decide +kernel⟩, by decide, prefixLaw _, ?_, ?_, ?_⟩
  · decide
  · decide
  · decide

end Gatehouse
