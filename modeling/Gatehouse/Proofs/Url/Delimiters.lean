import Gatehouse.Url.Parser
import Mathlib.Data.List.Basic

/-!
# Delimiters of a URL

The authority of a URL ends at a slash, a question mark or a number sign, and its path at a question
mark or a number sign. In a URL that was read, none of these stands in the part that it would end.

* `disjoint_percentEncode`, `isHostText_of_parseHost` : encoded text and hosts hold no delimiters;
* `isHostText_of_readAuthority` : nor does an authority;
* `rootedPath_spec` : a path from the root starts with a slash and holds no question or number sign;
* `Web`, `web_of_parse` : what is known of a URL of the web;
* `Web.dropEnd_text` : its text without the slashes at the end.
-/

namespace Gatehouse

theorem exists_of_bind_eq_ok {ε α β : Type} {x : Except ε α} {f : α → Except ε β} {y : β}
    (h : (x >>= f) = .ok y) : ∃ a, x = .ok a ∧ f a = .ok y := by
  cases x with
  | error e => cases h
  | ok a => exact ⟨a, rfl, h⟩

theorem exists_of_map_eq_ok {ε α β : Type} {x : Except ε α} {f : α → β} {y : β}
    (h : x.map f = .ok y) : ∃ a, x = .ok a ∧ f a = y := by
  cases x with
  | error e => cases h
  | ok a => exact ⟨a, rfl, Except.ok.inj h⟩

namespace Url

open Gatehouse.Net Gatehouse.Text

def authorityEnds : List Char := ['/', '?', '#']

def pathEnds : List Char := ['?', '#']

/-! ## Numbers and addresses -/

theorem disjoint_digits {base : Nat} (hbase : 1 < base) {marks : List Char}
    (hmarks : ∀ d < base, Nat.digitChar d ∉ marks) (n : Nat) :
    (Nat.toDigits base n).Disjoint marks := by
  induction n using Nat.strongRecOn with
  | ind n ih =>
    rw [Nat.toDigits_eq_if hbase]
    split
    · rename_i hn
      exact List.singleton_disjoint.mpr (hmarks n hn)
    · rename_i hn
      have hlt : n / base < n := Nat.div_lt_self (by omega) hbase
      exact List.disjoint_append_left.mpr
        ⟨ih _ hlt, List.singleton_disjoint.mpr (hmarks _ (Nat.mod_lt _ (by omega)))⟩

theorem disjoint_decimal (n : Nat) : (decimal n).Disjoint authorityEnds :=
  disjoint_digits (by decide) (by decide) n

theorem disjoint_hexText (n : Nat) : (hexText n).Disjoint authorityEnds :=
  disjoint_digits (by decide) (by decide) n

theorem disjoint_joined {separator marks : List Char} (hs : separator.Disjoint marks)
    {parts : List (List Char)} (hparts : ∀ p ∈ parts, p.Disjoint marks) :
    (joined separator parts).Disjoint marks := by
  induction parts with
  | nil => exact List.disjoint_nil_left marks
  | cons p parts ih =>
    rw [List.forall_mem_cons] at hparts
    cases parts with
    | nil => exact hparts.1
    | cons q parts =>
      have hjoined : joined separator (p :: q :: parts) =
          p ++ separator ++ joined separator (q :: parts) := rfl
      rw [hjoined, List.disjoint_append_left, List.disjoint_append_left]
      exact ⟨⟨hparts.1, hs⟩, ih hparts.2⟩

theorem disjoint_dotted (a b c d : Nat) : (dotted a b c d).Disjoint authorityEnds := by
  refine disjoint_joined (by simp [authorityEnds]) fun p hp => ?_
  obtain ⟨n, -, rfl⟩ := List.mem_map.mp hp
  exact disjoint_decimal n

theorem disjoint_piecesText (pieces : List Nat) : (piecesText pieces).Disjoint authorityEnds := by
  have hpart : ∀ ps : List Nat, (joined [':'] (ps.map hexText)).Disjoint authorityEnds := by
    intro ps
    refine disjoint_joined (by simp [authorityEnds]) fun p hp => ?_
    obtain ⟨n, -, rfl⟩ := List.mem_map.mp hp
    exact disjoint_hexText n
  unfold piecesText
  split
  split
  · simp only [List.disjoint_append_left]
    exact ⟨⟨hpart _, by simp [authorityEnds]⟩, hpart _⟩
  · exact hpart _

/-! ## Encoded text -/

def escapeChars : List Char := "%0123456789ABCDEF".toList

theorem mem_escapeChars_of_mem_percentByte {b : UInt8} {c : Char} (h : c ∈ percentByte b) :
    c ∈ escapeChars := by
  have hdigit : ∀ n < 16, (hexDigit n).toUpper ∈ escapeChars := by decide
  have hb : b.toNat < 256 := b.toNat_lt
  unfold percentByte at h
  simp only [List.mem_cons, List.not_mem_nil, or_false] at h
  obtain rfl | rfl | rfl := h
  · decide
  · exact hdigit _ (by omega)
  · exact hdigit _ (by omega)

/-- What a set has is not in the text that it encodes. -/
theorem disjoint_percentEncode {set : Char → Bool} {marks : List Char}
    (hmarks : marks.all (fun c => set c && !escapeChars.contains c) = true) (s : List Char) :
    (percentEncode set s).Disjoint marks := by
  intro c hc hm
  have hmark := List.all_eq_true.mp hmarks c hm
  rw [Bool.and_eq_true, Bool.not_eq_true', ← Bool.not_eq_true, List.contains_iff_mem] at hmark
  obtain ⟨hset, hescape⟩ := hmark
  obtain ⟨x, -, hx⟩ := List.mem_flatMap.mp hc
  cases hsx : set x with
  | true =>
    rw [hsx, if_pos rfl] at hx
    obtain ⟨b, -, hb⟩ := List.mem_flatMap.mp hx
    exact hescape (mem_escapeChars_of_mem_percentByte hb)
  | false =>
    rw [hsx, if_neg Bool.false_ne_true, List.mem_singleton] at hx
    rw [← hx, hset] at hsx
    cases hsx

/-! ## Authorities -/

theorem disjoint_splitUserinfo {special : Bool} {s username password rest : List Char}
    (h : splitUserinfo special s = .ok (username, password, rest)) :
    username.Disjoint authorityEnds ∧ password.Disjoint authorityEnds := by
  have hencoded : ∀ t, (percentEncode inUserinfoSet t).Disjoint authorityEnds :=
    disjoint_percentEncode (by decide)
  have hnone : ([] : List Char).Disjoint authorityEnds := List.disjoint_nil_left _
  unfold splitUserinfo at h
  split at h
  split at h
  · cases h
    exact ⟨hnone, hnone⟩
  · split at h
    · cases h
    · cases h
      exact ⟨hnone, hnone⟩
  · split at h
    cases h
    exact ⟨hencoded _, hencoded _⟩

/-- The text of a host that can stand in an authority. -/
def IsHostText (s : List Char) : Prop := s.Disjoint authorityEnds ∧ s ≠ []

theorem isHostText_address (ip : Ip) : IsHostText (Host.address ip).text := by
  cases ip with
  | v4 a b c d =>
    refine ⟨disjoint_dotted a b c d, ?_⟩
    show decimal a ++ ['.'] ++ joined ['.'] ([b, c, d].map decimal) ≠ []
    simp
  | v6 pieces =>
    refine ⟨?_, List.cons_ne_nil _ _⟩
    show ('[' :: piecesText pieces ++ [']']).Disjoint authorityEnds
    rw [List.cons_append, List.disjoint_cons_left, List.disjoint_append_left]
    exact ⟨by decide, disjoint_piecesText pieces, List.singleton_disjoint.mpr (by decide)⟩

theorem isHostText_of_map {x : Except ParseError Ip} {host : Host}
    (h : x.map Host.address = .ok host) : IsHostText host.text := by
  cases x with
  | error e => cases h
  | ok ip =>
    cases h
    exact isHostText_address ip

theorem isHostText_of_parseHost [Idna] {s : List Char} {host : Host} (h : parseHost s = .ok host) :
    IsHostText host.text := by
  unfold parseHost at h
  split at h
  · unfold parseBracketed at h
    split at h
    · exact isHostText_of_map h
    · cases h
  · split at h
    · cases h
    · split at h
      · cases h
      · split_ifs at h with hforbidden hempty hnumber
        · exact isHostText_of_map h
        · cases h
          refine ⟨fun c hc hm => hforbidden ?_, fun hnil => hempty ?_⟩
          · have hall : authorityEnds.all isForbiddenInDomain = true := by decide
            exact List.any_eq_true.mpr ⟨c, hc, List.all_eq_true.mp hall c hm⟩
          · exact List.isEmpty_iff.mpr hnil

theorem isHostText_of_parts {username password : List Char} {host : Host}
    (hu : username.Disjoint authorityEnds) (hp : password.Disjoint authorityEnds)
    (hh : IsHostText host.text) (port : Option Nat) :
    IsHostText (Authority.mk username password (some host) port).text := by
  have hinfo : (Authority.mk username password (some host) port).userinfoText.Disjoint
      authorityEnds := by
    unfold Authority.userinfoText
    split
    · exact List.disjoint_nil_left _
    · simp only [List.disjoint_append_left]
      refine ⟨⟨hu, ?_⟩, List.singleton_disjoint.mpr (by decide)⟩
      split
      · exact List.disjoint_nil_left _
      · exact List.disjoint_cons_left.mpr ⟨by decide, hp⟩
  have hport : ((port.map fun p => ':' :: decimal p).getD []).Disjoint authorityEnds := by
    cases port with
    | none => exact List.disjoint_nil_left _
    | some p => exact List.disjoint_cons_left.mpr ⟨by decide, disjoint_decimal p⟩
  refine ⟨?_, ?_⟩
  · unfold Authority.text
    simp only [List.disjoint_append_left]
    exact ⟨⟨hinfo, hh.1⟩, hport⟩
  · simp [Authority.text, hh.2]

theorem isHostText_of_readAuthority [Idna] {scheme s rest : List Char} {a : Authority}
    (hs : isSpecial scheme = true) (h : readAuthority scheme s = .ok (a, rest)) :
    IsHostText a.text := by
  unfold readAuthority at h
  simp only [hs, if_true] at h
  obtain ⟨⟨username, password, t⟩, huser, h⟩ := exists_of_bind_eq_ok h
  obtain ⟨hu, hp⟩ := disjoint_splitUserinfo huser
  simp only at h
  split at h
  · cases h
  · obtain ⟨host?, hhost, h⟩ := exists_of_bind_eq_ok h
    obtain ⟨host, hparse, rfl⟩ := exists_of_map_eq_ok hhost
    have htext := isHostText_of_parseHost hparse
    -- with a port in the text or without one, the rest of the reading only fills in the port
    split at h
    all_goals
      obtain ⟨⟨port, t'⟩, -, h⟩ := exists_of_bind_eq_ok h
      simp only [Option.isNone_some, Bool.false_eq_true, false_and, if_false] at h
      cases h
      exact isHostText_of_parts hu hp htext _

/-! ## Paths -/

theorem mem_resolveDots {acc segs : List (List Char)} {s : List Char}
    (h : s ∈ resolveDots false acc segs) : s = [] ∨ s ∈ acc ∨ s ∈ segs := by
  induction segs generalizing acc with
  | nil =>
    rw [resolveDots, List.mem_reverse] at h
    exact .inr (.inl h)
  | cons t segs ih =>
    rw [resolveDots] at h
    simp only [Bool.false_and, Bool.false_eq_true, if_false] at h
    split at h
    · rcases ih h with h | h | h
      · exact .inl h
      · split at h
        · rcases List.mem_cons.mp h with h | h
          · exact .inl h
          · exact .inr (.inl (List.mem_of_mem_tail h))
        · exact .inr (.inl (List.mem_of_mem_tail h))
      · exact .inr (.inr (List.mem_cons_of_mem t h))
    · split at h
      · rcases ih h with h | h | h
        · exact .inl h
        · split at h
          · rcases List.mem_cons.mp h with h | h
            · exact .inl h
            · exact .inr (.inl h)
          · exact .inr (.inl h)
        · exact .inr (.inr (List.mem_cons_of_mem t h))
      · rcases ih h with h | h | h
        · exact .inl h
        · rcases List.mem_cons.mp h with rfl | h
          · exact .inr (.inr List.mem_cons_self)
          · exact .inr (.inl h)
        · exact .inr (.inr (List.mem_cons_of_mem t h))

theorem resolveDots_ne_nil {segs : List (List Char)} (h : segs ≠ []) (acc : List (List Char)) :
    resolveDots false acc segs ≠ [] := by
  induction segs generalizing acc with
  | nil => contradiction
  | cons t segs ih =>
    rw [resolveDots]
    simp only [Bool.false_and, Bool.false_eq_true, if_false]
    cases segs with
    | nil =>
      simp only [resolveDots, List.isEmpty_nil, if_true]
      split
      · simp
      · split <;> simp
    | cons u segs =>
      have hne : u :: segs ≠ [] := List.cons_ne_nil u segs
      split
      · exact ih hne _
      · split
        · exact ih hne _
        · exact ih hne _

/-- A path from the root, under any scheme but `file`. -/
theorem rootedPath_spec {scheme : List Char} (hfile : scheme ≠ "file".toList) (s : List Char) :
    (rootedPath scheme s).head? = some '/' ∧ (rootedPath scheme s).Disjoint pathEnds := by
  have hencoded : ∀ t, (percentEncode inPathSet t).Disjoint pathEnds :=
    disjoint_percentEncode (by decide)
  unfold rootedPath
  simp only [if_neg hfile, decide_eq_false hfile]
  have hne : (segments (isSpecial scheme) s).map (percentEncode inPathSet) ≠ [] := by
    rw [Ne, List.map_eq_nil_iff]
    exact pieces_ne_nil '/' _
  refine ⟨?_, fun c hc hm => ?_⟩
  · obtain ⟨p, ps, hparts⟩ := List.exists_cons_of_ne_nil (resolveDots_ne_nil hne [])
    rw [hparts]
    rfl
  · obtain ⟨part, hpart, hc⟩ := List.mem_flatMap.mp hc
    rcases List.mem_cons.mp hc with rfl | hc
    · exact absurd hm (by decide)
    · rcases mem_resolveDots hpart with rfl | h | h
      · cases hc
      · cases h
      · obtain ⟨t, -, rfl⟩ := List.mem_map.mp h
        exact hencoded t hc hm

/-! ## URLs of the web -/

/-- A URL of the web, whose authority and path can be told apart in its text. -/
structure Web (u : Url) (site : List Char) : Prop where
  scheme : u.scheme = "http".toList ∨ u.scheme = "https".toList
  authority : u.authority.map Authority.text = some site
  isHostText : IsHostText site
  head?_path : u.path.head? = some '/'
  disjoint_path : u.path.Disjoint pathEnds

theorem scheme_of_parseAfterScheme [Idna] {scheme s : List Char} {u : Url}
    (h : parseAfterScheme scheme s = .ok u) : u.scheme = scheme := by
  simp only [parseAfterScheme] at h
  split at h
  · obtain ⟨_, -, h⟩ := exists_of_bind_eq_ok h
    cases h
    rfl
  · split at h
    · obtain ⟨_, -, h⟩ := exists_of_bind_eq_ok h
      cases h
      rfl
    · split at h
      · obtain ⟨_, -, h⟩ := exists_of_bind_eq_ok h
        cases h
        rfl
      · cases h
        rfl
      · cases h
        rfl

theorem web_of_parse [Idna] {s : List Char} {u : Url} (h : parse s = .ok u)
    (hs : u.scheme = "http".toList ∨ u.scheme = "https".toList) :
    ∃ site, Web u site := by
  unfold parse at h
  split at h
  · rename_i scheme rest hsplit
    have hscheme := scheme_of_parseAfterScheme h
    have hspecial : isSpecial scheme = true := by
      rw [← hscheme]
      rcases hs with hs | hs <;> rw [hs] <;> decide
    have hfile : scheme ≠ "file".toList := by
      rw [← hscheme]
      rcases hs with hs | hs <;> rw [hs] <;> decide
    simp only [parseAfterScheme, if_neg hfile, hspecial, if_true] at h
    obtain ⟨⟨a, t⟩, ha, h⟩ := exists_of_bind_eq_ok h
    cases h
    have hpath := rootedPath_spec hfile (dropSlash true t)
    have hafter : pathAfterAuthority scheme t = rootedPath scheme (dropSlash true t) := by
      simp [pathAfterAuthority, hspecial]
    exact ⟨a.text, hs, rfl, isHostText_of_readAuthority hspecial ha, hafter ▸ hpath.1,
      hafter ▸ hpath.2⟩
  · cases h

/-- What follows the authority of a URL. -/
def tail (u : Url) : List Char :=
  u.path ++ (u.query.map ('?' :: ·)).getD [] ++ (u.fragment.map ('#' :: ·)).getD []

theorem Web.text_eq {u : Url} {site : List Char} (h : Web u site) :
    u.text = u.scheme ++ "://".toList ++ (site ++ u.tail) := by
  obtain ⟨a, ha, rfl⟩ := Option.map_eq_some_iff.mp h.authority
  simp [text, authorityText, ha, tail]

theorem Web.dropEnd_text {u : Url} {site : List Char} (h : Web u site) :
    dropEnd '/' u.text = u.scheme ++ "://".toList ++ (site ++ dropEnd '/' u.tail) := by
  have hlast := List.dropLast_append_getLast h.isHostText.2
  have hslash : site.getLast h.isHostText.2 ≠ '/' := by
    intro heq
    refine h.isHostText.1 (List.getLast_mem h.isHostText.2) ?_
    rw [heq]
    decide
  rw [h.text_eq, ← hlast, List.append_assoc _ [_], List.singleton_append, ← List.append_assoc,
    dropEnd_append_cons hslash, List.append_assoc, List.append_assoc _ [_], List.singleton_append]

theorem Web.head?_dropEnd_tail {u : Url} {site : List Char} (h : Web u site) :
    ∀ c ∈ (dropEnd '/' u.tail).head?, c = '/' := by
  intro c hc
  obtain ⟨n, hn⟩ := exists_append_dropEnd '/' u.tail
  obtain ⟨path, hpath⟩ := List.head?_eq_some_iff.mp h.head?_path
  obtain ⟨s, hs⟩ := List.head?_eq_some_iff.mp hc
  rw [hs, tail, hpath] at hn
  exact (List.cons.inj hn).1.symm

end Url

end Gatehouse
