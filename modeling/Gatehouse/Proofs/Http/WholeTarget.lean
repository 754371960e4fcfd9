import Gatehouse.Http.Uri
import Gatehouse.Proofs.Url.Delimiters
import Mathlib.Data.List.TakeDrop
import Mathlib.Data.List.TakeWhile

/-!
# Whole targets

A target that is written with a scheme and an authority is read back part by part: the authority
ends at the first delimiter, and the path at the first question mark or number sign.

* `eq_of_parsePath` : the path and the query of what follows an authority;
* `parse_whole` : the parts of a whole target;
* `parse_written` : a whole target that is written from its parts;
* `IsClean`, `isClean_of_parse` : what does not stand in a path or in a query.
-/

namespace Gatehouse.Http.Uri

open Gatehouse.Text Gatehouse.Url

theorem span_append {p : Char → Bool} {front rest : List Char} (hfront : ∀ c ∈ front, p c = true)
    (hrest : ∀ c ∈ rest.head?, p c = false) : (front ++ rest).span p = (front, rest) := by
  rw [List.span_eq_takeWhile_dropWhile, List.takeWhile_append_of_pos hfront,
    List.dropWhile_append_of_pos hfront]
  cases rest with
  | nil => simp
  | cons c rest => simp [hrest c rfl]

/-- What holds no delimiter ends where the first one stands. -/
theorem span_of_disjoint {p : Char → Bool} {marks : List Char} (hp : ∀ c, p c = true ↔ c ∉ marks)
    {front rest : List Char} (hfront : front.Disjoint marks)
    (hrest : ∀ c ∈ rest.head?, c ∈ marks) : (front ++ rest).span p = (front, rest) := by
  refine span_append (fun c hc => (hp c).mpr fun hm => hfront hc hm) fun c hc => ?_
  rw [← Bool.not_eq_true, hp, not_not]
  exact hrest c hc

theorem fst_span_all (p : Char → Bool) (s : List Char) : ∀ c ∈ (s.span p).1, p c = true := by
  rw [List.span_eq_takeWhile_dropWhile]
  exact fun c hc => List.mem_takeWhile_imp hc

/-! ## The path and the query -/

theorem path_eq_pathText {u : Uri} (h : u.pathText ≠ []) : u.path = u.pathText := by
  unfold Uri.path
  rw [if_neg]
  intro hno
  exact h (List.isEmpty_iff.mp hno.1)

/-- The query that follows a path, up to the fragment. -/
def queryAfter : List Char → Option (List Char)
  | '?' :: s => some (s.takeWhile (· ≠ '#'))
  | _ => none

theorem eq_of_parseQuery {s query : List Char} (h : parseQuery s = .ok query) :
    query = s.takeWhile (· ≠ '#') := by
  simp only [parseQuery] at h
  split at h
  · exact (Except.ok.inj h).symm
  · cases h

theorem eq_of_parsePath_span {s path : List Char} {query : Option (List Char)}
    (h : parsePath s = .ok (path, query)) :
    path = (s.span fun c => c ≠ '?' ∧ c ≠ '#').1 ∧
      query = queryAfter (s.span fun c => c ≠ '?' ∧ c ≠ '#').2 := by
  unfold parsePath at h
  split at h
  rename_i front rest hspan
  rw [hspan]
  split at h
  · split at h
    · rename_i t
      obtain ⟨q, hq, hpair⟩ := exists_of_map_eq_ok h
      cases hpair
      exact ⟨rfl, congrArg some (eq_of_parseQuery hq)⟩
    · rename_i hmark
      cases h
      refine ⟨rfl, ?_⟩
      unfold queryAfter
      split
      · rename_i t hquery
        exact (hmark t hquery).elim
      · rfl
  · cases h

theorem eq_of_parsePath {front rest path : List Char} {query : Option (List Char)}
    (hfront : front.Disjoint pathEnds) (hrest : ∀ c ∈ rest.head?, c ∈ pathEnds)
    (h : parsePath (front ++ rest) = .ok (path, query)) :
    path = front ∧ query = queryAfter rest := by
  have hspan : (front ++ rest).span (fun c => c ≠ '?' ∧ c ≠ '#') = (front, rest) :=
    span_of_disjoint (by simp [pathEnds]) hfront hrest
  have hparts := eq_of_parsePath_span h
  rwa [hspan] at hparts

/-- Neither a path nor the query after it holds what would end it. -/
def IsClean (path : List Char) (query : Option (List Char)) : Prop :=
  path.Disjoint pathEnds ∧ ∀ q ∈ query, '#' ∉ q

theorem isClean_of_parsePath {s path : List Char} {query : Option (List Char)}
    (h : parsePath s = .ok (path, query)) : IsClean path query := by
  obtain ⟨rfl, rfl⟩ := eq_of_parsePath_span h
  refine ⟨fun c hc hm => ?_, fun q hq hmem => ?_⟩
  · have hc' := fst_span_all _ s c hc
    simp only [pathEnds, List.mem_cons, List.not_mem_nil, or_false] at hm
    rcases hm with rfl | rfl <;> simp at hc'
  · unfold queryAfter at hq
    split at hq
    · cases hq
      have hhash := List.mem_takeWhile_imp hmem
      simp at hhash
    · cases hq

/-! ## Whole targets -/

theorem splitScheme_web {scheme : List Char} (hs : scheme = "http".toList ∨ scheme = "https".toList)
    (rest : List Char) :
    splitScheme (scheme ++ "://".toList ++ rest) = .ok (some (scheme, rest)) := by
  have hchars : scheme.all isSchemeChar = true := by rcases hs with rfl | rfl <;> decide
  have hlower : lower scheme = scheme := by rcases hs with rfl | rfl <;> decide
  have hspan : (scheme ++ "://".toList ++ rest).span isSchemeChar =
      (scheme, "://".toList ++ rest) := by
    rw [List.append_assoc]
    refine span_append (List.all_eq_true.mp hchars) fun c hc => ?_
    cases hc
    decide
  unfold splitScheme
  rw [hspan]
  simp only [hlower, if_pos hs]
  rfl

theorem eq_of_splitAuthority {site rest authority after : List Char}
    (hsite : site.Disjoint authorityEnds) (hrest : ∀ c ∈ rest.head?, c ∈ authorityEnds)
    (h : splitAuthority (site ++ rest) = .ok (authority, after)) :
    authority = site ∧ after = rest := by
  have hspan : (site ++ rest).span (fun c => c ≠ '/' ∧ c ≠ '?' ∧ c ≠ '#') = (site, rest) :=
    span_of_disjoint (by simp [authorityEnds]) hsite hrest
  unfold splitAuthority at h
  rw [hspan] at h
  obtain ⟨scan, -, h⟩ := exists_of_bind_eq_ok h
  split at h
  · cases h
    exact ⟨rfl, rfl⟩
  · cases h

/-- A whole target is an authority and what comes after it. -/
theorem parse_web {scheme site : List Char} (hs : scheme = "http".toList ∨ scheme = "https".toList)
    (hsite : site ≠ []) (rest : List Char) :
    parse (scheme ++ "://".toList ++ (site ++ rest)) =
      if maxLength < byteLength (scheme ++ "://".toList ++ (site ++ rest)) then .error .tooLong
      else (splitAuthority (site ++ rest)).bind fun (authority, rest) =>
        if authority.isEmpty then .error .invalidFormat
        else (parsePath rest).map fun (path, query) => ⟨some scheme, some authority, path, query⟩ := by
  have hne : (site ++ rest).isEmpty = false := by simp [hsite]
  have hwhole : parse (scheme ++ "://".toList ++ (site ++ rest)) =
      if maxLength < byteLength (scheme ++ "://".toList ++ (site ++ rest)) then .error .tooLong
      else parseWhole (scheme ++ "://".toList ++ (site ++ rest)) := by
    rcases hs with rfl | rfl <;> rfl
  rw [hwhole]
  unfold parseWhole
  rw [splitScheme_web hs]
  simp only [bind, Except.bind, hne, Bool.false_eq_true, if_false]
  rfl

/-- The scheme and the authority of a whole target are the written ones, whatever comes after
them. -/
theorem parse_whole {scheme site rest : List Char} {u : Uri}
    (hs : scheme = "http".toList ∨ scheme = "https".toList) (hsite : IsHostText site)
    (hrest : ∀ c ∈ rest.head?, c ∈ authorityEnds)
    (h : parse (scheme ++ "://".toList ++ (site ++ rest)) = .ok u) :
    u.scheme = some scheme ∧ u.authority = some site ∧
      parsePath rest = .ok (u.pathText, u.query) := by
  rw [parse_web hs hsite.2] at h
  split at h
  · cases h
  · obtain ⟨⟨authority, after⟩, hauthority, hpath⟩ := exists_of_bind_eq_ok h
    obtain ⟨rfl, rfl⟩ := eq_of_splitAuthority hsite.1 hrest hauthority
    dsimp only at hpath
    split at hpath
    · cases hpath
    · obtain ⟨⟨path, query⟩, hparts, hu⟩ := exists_of_map_eq_ok hpath
      cases hu
      exact ⟨rfl, rfl, hparts⟩

/-! ## Targets that are written -/

/-- An authority is read up to the first delimiter, whatever comes after it. -/
theorem splitAuthority_append {site rest : List Char} (hsite : site.Disjoint authorityEnds)
    (hrest : ∀ c ∈ rest.head?, c ∈ authorityEnds) :
    splitAuthority (site ++ rest) = (splitAuthority site).map fun parts => (parts.1, rest) := by
  have hspan (t : List Char) (ht : ∀ c ∈ t.head?, c ∈ authorityEnds) :
      (site ++ t).span (fun c => c ≠ '/' ∧ c ≠ '?' ∧ c ≠ '#') = (site, t) :=
    span_of_disjoint (by simp [authorityEnds]) hsite ht
  have halone := hspan [] (by simp)
  rw [List.append_nil] at halone
  unfold splitAuthority
  rw [hspan rest hrest, halone]
  dsimp only
  cases site.foldlM AuthorityScan.step ⟨0, false, false, false, false⟩ with
  | error e => rfl
  | ok scan =>
    show (if scan.isComplete = true then _ else _) =
      Except.map _ (if scan.isComplete = true then _ else _)
    split_ifs <;> rfl

/-- A text that is an authority as it stands. -/
def IsAuthority (site : List Char) : Prop := splitAuthority site = .ok (site, [])

instance (site : List Char) : Decidable (IsAuthority site) :=
  inferInstanceAs (Decidable (splitAuthority site = .ok (site, [])))

theorem isAuthority_of_parse {scheme site rest : List Char} {u : Uri}
    (hs : scheme = "http".toList ∨ scheme = "https".toList) (hsite : IsHostText site)
    (hrest : ∀ c ∈ rest.head?, c ∈ authorityEnds)
    (h : parse (scheme ++ "://".toList ++ (site ++ rest)) = .ok u) : IsAuthority site := by
  rw [parse_web hs hsite.2, splitAuthority_append hsite.1 hrest] at h
  split at h
  · cases h
  · obtain ⟨parts, hmap, -⟩ := exists_of_bind_eq_ok h
    obtain ⟨⟨authority, after⟩, halone, -⟩ := exists_of_map_eq_ok hmap
    have hnone : ∀ c ∈ ([] : List Char).head?, c ∈ authorityEnds := by simp
    rw [← List.append_nil site] at halone
    obtain ⟨rfl, rfl⟩ := eq_of_splitAuthority hsite.1 hnone halone
    rwa [List.append_nil] at halone

/-- A whole target that is written from its parts is read as these parts, unless it is too long. -/
theorem parse_written {scheme site rest path : List Char} {query : Option (List Char)}
    (hs : scheme = "http".toList ∨ scheme = "https".toList) (hsite : IsHostText site)
    (hauthority : IsAuthority site) (hrest : ∀ c ∈ rest.head?, c ∈ authorityEnds)
    (hparts : parsePath rest = .ok (path, query)) :
    parse (scheme ++ "://".toList ++ (site ++ rest)) =
      if maxLength < byteLength (scheme ++ "://".toList ++ (site ++ rest)) then .error .tooLong
      else .ok ⟨some scheme, some site, path, query⟩ := by
  unfold IsAuthority at hauthority
  rw [parse_web hs hsite.2, splitAuthority_append hsite.1 hrest, hauthority]
  simp only [Except.map, Except.bind, hparts, List.isEmpty_iff, hsite.2, if_false]

/-- A path and a query that are written one after the other, with a fragment that is dropped. -/
theorem parsePath_written {path : List Char} {query fragment : Option (List Char)}
    (hpath : path.Disjoint pathEnds) (hchars : path.all isPathChar = true)
    (hquery : ∀ q ∈ query, q.all isQueryChar = true) :
    parsePath (path ++ (query.map ('?' :: ·)).getD [] ++ (fragment.map ('#' :: ·)).getD []) =
      .ok (path, query) := by
  have hspan (rest : List Char) (hrest : ∀ c ∈ rest.head?, c ∈ pathEnds) :
      (path ++ rest).span (fun c => c ≠ '?' ∧ c ≠ '#') = (path, rest) :=
    span_of_disjoint (by simp [pathEnds]) hpath hrest
  rw [List.append_assoc]
  unfold parsePath
  cases query with
  | none =>
    cases fragment with
    | none =>
      rw [hspan _ (by simp)]
      simp [hchars]
    | some f =>
      rw [hspan _ (by simp [pathEnds])]
      simp [hchars]
  | some q =>
    have hq := hquery q rfl
    have htake : (q ++ (fragment.map ('#' :: ·)).getD []).takeWhile (· ≠ '#') = q := by
      have hnumber : ∀ c ∈ q, decide (c ≠ '#') = true := by
        rintro c hc
        refine decide_eq_true ?_
        rintro rfl
        exact absurd (List.all_eq_true.mp hq _ hc) (by decide)
      rw [List.takeWhile_append_of_pos hnumber]
      cases fragment <;> simp
    rw [hspan _ (by simp [pathEnds])]
    simp only [hchars, if_true, Option.map_some, Option.getD_some, List.cons_append]
    unfold parseQuery
    rw [htake]
    simp only [hq, if_true]
    rfl

/-! ## Targets of requests -/

theorem parts_of_parseAuthorityOnly {other : UriError} {s : List Char} {u : Uri}
    (h : parseAuthorityOnly other s = .ok u) : u.pathText = [] ∧ u.query = none := by
  unfold parseAuthorityOnly at h
  obtain ⟨⟨authority, rest⟩, -, hu⟩ := exists_of_bind_eq_ok h
  dsimp only at hu
  split at hu
  · cases hu
    exact ⟨rfl, rfl⟩
  · cases hu

theorem isClean_of_parseAuthorityOnly {other : UriError} {s : List Char} {u : Uri}
    (h : parseAuthorityOnly other s = .ok u) : IsClean u.pathText u.query := by
  obtain ⟨hpath, hquery⟩ := parts_of_parseAuthorityOnly h
  rw [hpath, hquery]
  exact ⟨List.disjoint_nil_left _, fun q hq => by cases hq⟩

theorem isClean_of_parseWhole {s : List Char} {u : Uri} (h : parseWhole s = .ok u) :
    IsClean u.pathText u.query := by
  unfold parseWhole at h
  obtain ⟨split, -, hafter⟩ := exists_of_bind_eq_ok h
  split at hafter
  · exact isClean_of_parseAuthorityOnly hafter
  · split at hafter
    · cases hafter
    · obtain ⟨⟨authority, after⟩, -, hpath⟩ := exists_of_bind_eq_ok hafter
      dsimp only at hpath
      split at hpath
      · cases hpath
      · obtain ⟨⟨path, query⟩, hparts, hu⟩ := exists_of_bind_eq_ok hpath
        cases hu
        exact isClean_of_parsePath hparts

theorem isClean_of_parse {s : List Char} {u : Uri} (h : parse s = .ok u) :
    IsClean u.path u.query := by
  have htext : IsClean u.pathText u.query := by
    unfold parse at h
    split at h
    · cases h
    · split at h
      · cases h
      · cases h
        exact ⟨by simp [pathEnds], fun q hq => by cases hq⟩
      · obtain ⟨⟨path, query⟩, hparts, hu⟩ := exists_of_map_eq_ok h
        cases hu
        exact isClean_of_parsePath hparts
      · exact isClean_of_parseAuthorityOnly h
      · exact isClean_of_parseWhole h
  refine ⟨?_, htext.2⟩
  unfold path
  split
  · simp [pathEnds]
  · exact htext.1

end Gatehouse.Http.Uri
