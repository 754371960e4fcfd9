import Gatehouse.Proofs.Gateway.AdminKey
import Gatehouse.Proofs.Url.Escapes
import Gatehouse.Proofs.Url.PastedPath
import Mathlib.Data.Bool.AllAny

/-!
# The name of a service in the path of a reset

The path of a reset has the name of a service between two slashes, and the service is found by what
the segment denotes. A name that is pasted into the path as it is comes out as that segment exactly
when it is plain: nothing in it ends a segment or the path, nothing is ignored, nothing is an
escape, and it is no dot segment.

* `IsPlain` : a plain name;
* `resetUrl_of_isPlain` : a plain name is found in its own segment;
* `isPlain_of_resetUrl` : no other name is found in any segment;
* `ofPath_resetUrl_iff` : which names are found.
-/

namespace Gatehouse

open Gatehouse.Text

/-! ## Lengths -/

namespace Text

theorem eq_or_byteLength_lt {s t : List Char} (h : s.Sublist t) :
    s = t ∨ byteLength s < byteLength t := by
  induction h with
  | slnil => exact .inl rfl
  | cons c h ih =>
    have hc := c.utf8Size_pos
    rw [byteLength]
    rcases ih with rfl | hlt
    · exact .inr (by omega)
    · exact .inr (by omega)
  | cons_cons c h ih =>
    rw [byteLength, byteLength]
    rcases ih with rfl | hlt
    · exact .inl rfl
    · exact .inr (by omega)

theorem byteLength_le_of_sublist {s t : List Char} (h : s.Sublist t) :
    byteLength s ≤ byteLength t := by
  rcases eq_or_byteLength_lt h with rfl | hlt
  · exact Nat.le_refl _
  · exact Nat.le_of_lt hlt

theorem byteLength_map {f : Char → Char} (hf : ∀ c, (f c).utf8Size = c.utf8Size) (s : List Char) :
    byteLength (s.map f) = byteLength s := by
  induction s with
  | nil => rfl
  | cons c s ih => rw [List.map_cons, byteLength, byteLength, hf, ih]

theorem of_mem_pieces {c : Char} {s p : List Char} (h : p ∈ pieces c s) : p.Sublist s ∧ c ∉ p := by
  induction s generalizing p with
  | nil =>
    obtain rfl := List.mem_singleton.mp h
    exact ⟨.slnil, List.not_mem_nil⟩
  | cons x s ih =>
    by_cases hx : x = c
    · rw [pieces, if_pos hx] at h
      rcases List.mem_cons.mp h with rfl | h
      · exact ⟨List.nil_sublist _, List.not_mem_nil⟩
      · exact ⟨(ih h).1.cons x, (ih h).2⟩
    · obtain ⟨q, qs, hq, hs⟩ := pieces_cons_of_ne hx s
      rw [hs] at h
      rcases List.mem_cons.mp h with rfl | h
      · have hfirst := ih (hq ▸ List.mem_cons_self)
        exact ⟨hfirst.1.cons_cons x, by simp [Ne.symm hx, hfirst.2]⟩
      · have hlater := ih (hq ▸ List.mem_cons_of_mem q h)
        exact ⟨hlater.1.cons x, hlater.2⟩

theorem pieces_append_of_not_mem {c : Char} {s t p : List Char} {ps : List (List Char)}
    (hs : c ∉ s) (ht : pieces c t = p :: ps) : pieces c (s ++ t) = (s ++ p) :: ps := by
  induction s with
  | nil => exact ht
  | cons x s ih =>
    rw [List.mem_cons, not_or] at hs
    rw [List.cons_append, pieces, if_neg (Ne.symm hs.1), ih hs.2]
    rfl

end Text

namespace Url

/-- A text that denotes a name has as many bytes as the name, and more if it has an escape. -/
theorem byteLength_le_of_percentDecode {p name : List Char} (h : percentDecode p = utf8 name) :
    byteLength name ≤ byteLength p ∧ (hasEscape p = true → byteLength name < byteLength p) := by
  have hlength := length_percentDecode p
  rwa [h, length_utf8] at hlength

theorem pieces_slashed {segs : List (List Char)} (h : ∀ s ∈ segs, '/' ∉ s) :
    pieces '/' (slashed segs) = [] :: segs := by
  induction segs with
  | nil => rfl
  | cons s segs ih =>
    obtain ⟨hs, hrest⟩ := List.forall_mem_cons.mp h
    have hpieces := pieces_append_of_not_mem hs (ih hrest)
    rw [List.append_nil] at hpieces
    show pieces '/' ('/' :: (s ++ slashed segs)) = _
    rw [pieces, if_pos rfl, hpieces]

/-- A slash in the place of every backslash. -/
def forwardSlashes (s : List Char) : List Char := s.map fun c => if c = '\\' then '/' else c

theorem segments_special (s : List Char) : segments true s = pieces '/' (forwardSlashes s) := rfl

theorem byteLength_forwardSlashes (s : List Char) :
    byteLength (forwardSlashes s) = byteLength s := by
  refine byteLength_map (fun c => ?_) s
  split_ifs with hc
  · rw [hc]
    rfl
  · rfl

/-- A segment is a part of the text between two slashes, encoded. -/
theorem of_mem_encodedSegments {s t : List Char} (h : s ∈ encodedSegments t) :
    ∃ p, p.Sublist (forwardSlashes t) ∧ '/' ∉ p ∧ percentEncode inPathSet p = s := by
  obtain ⟨p, hp, hs⟩ := List.mem_map.mp h
  rw [segments_special] at hp
  exact ⟨p, (of_mem_pieces hp).1, (of_mem_pieces hp).2, hs⟩

theorem slash_not_mem_percentEncode {set : Char → Bool} {s : List Char} (h : '/' ∉ s) :
    '/' ∉ percentEncode set s := by
  intro hslash
  rcases mem_percentEncode hslash with hescape | hmem
  · exact absurd hescape (by decide)
  · exact h hmem.1

theorem not_mem_encodedSegments {s t : List Char} (h : s ∈ encodedSegments t) : '/' ∉ s := by
  obtain ⟨p, -, hp, rfl⟩ := of_mem_encodedSegments h
  exact slash_not_mem_percentEncode hp

theorem forwardSlashes_of_not_mem {s : List Char} (h : '/' ∉ forwardSlashes s) :
    '/' ∉ s ∧ '\\' ∉ s ∧ forwardSlashes s = s := by
  have hback : '\\' ∉ s := fun hm => h (List.mem_map.mpr ⟨_, hm, if_pos rfl⟩)
  have hsame : forwardSlashes s = s := by
    unfold forwardSlashes
    conv => rhs; rw [← List.map_id s]
    refine List.map_congr_left fun c hc => if_neg ?_
    rintro rfl
    exact hback hc
  exact ⟨hsame ▸ h, hback, hsame⟩

/-- A part of a text that denotes the whole of what the text is a part of has no room for anything
else. -/
theorem eq_of_percentDecode {t p name : List Char} (ht : t.Sublist name)
    (hp : p.Sublist (forwardSlashes t)) (hname : percentDecode p = utf8 name) :
    t = name ∧ p = forwardSlashes t ∧ hasEscape p = false := by
  have hlength := byteLength_le_of_percentDecode hname
  have hpart := byteLength_le_of_sublist hp
  have hwidth := byteLength_le_of_sublist ht
  rw [byteLength_forwardSlashes] at hpart
  refine ⟨(eq_or_byteLength_lt ht).resolve_right fun hlt => ?_,
    (eq_or_byteLength_lt hp).resolve_right fun hlt => ?_, Bool.eq_false_iff.mpr fun hescape => ?_⟩
  · omega
  · rw [byteLength_forwardSlashes] at hlt
    omega
  · have hmore := hlength.2 hescape
    omega

theorem splitTail_of_disjoint {special : Bool} {s : List Char} (h : s.Disjoint pathEnds) :
    splitTail special s = (s, none, none) := by
  have happend : splitTail special (s ++ []) = _ := splitTail_append h []
  rw [List.append_nil] at happend
  rw [happend]
  show (s ++ [], _) = _
  rw [List.append_nil]
  rfl

theorem fst_splitTail_append (special : Bool) (s t : List Char) :
    s.Disjoint pathEnds ∨
      ∃ front rest, s = front ++ rest ∧ rest ≠ [] ∧ (splitTail special (s ++ t)).1 = front := by
  have hsplit := List.takeWhile_append_dropWhile (p := fun c => !pathEnds.contains c) (l := s)
  generalize hfront : s.takeWhile (fun c => !pathEnds.contains c) = front at hsplit
  generalize hrest : s.dropWhile (fun c => !pathEnds.contains c) = rest at hsplit
  have hplain : front.Disjoint pathEnds := by
    intro c hc hm
    rw [← hfront] at hc
    simpa [hm] using List.mem_takeWhile_imp hc
  cases rest with
  | nil =>
    rw [List.append_nil] at hsplit
    exact .inl (hsplit ▸ hplain)
  | cons e rest =>
    have hstop := List.head?_dropWhile_not (fun c => !pathEnds.contains c) s
    rw [hrest, List.head?_cons] at hstop
    have hend : e = '?' ∨ e = '#' := by simpa [pathEnds, or_iff_not_imp_left] using hstop
    refine .inr ⟨front, e :: rest, hsplit.symm, List.cons_ne_nil _ _, ?_⟩
    rw [← hsplit, List.append_assoc, splitTail_append hplain]
    have hnil : ∀ t, (splitTail special (e :: t)).1 = [] := by
      intro t
      rcases hend with rfl | rfl
      · unfold splitTail
        rw [cut?, if_neg (by decide)]
        cases cut? '#' t <;> rfl
      · rfl
    show front ++ (splitTail special (e :: (rest ++ t))).1 = front
    rw [hnil, List.append_nil]

end Url

open Gatehouse.Url

/-! ## Names -/

/-- What does not stand for itself in a segment of a path: what ends the segment or the path, and
what is ignored. -/
def reserved : List Char := ['/', '\\', '?', '#', '\t', '\n', '\r']

/-- A name that stands for itself in a segment of a path. -/
structure IsPlain (name : List Char) : Prop where
  marks : ∀ c ∈ name, c ∉ reserved
  escape : hasEscape name = false
  dots : name ≠ ['.'] ∧ name ≠ ['.', '.']

theorem isPlain_iff {name : List Char} : IsPlain name ↔
    (name.all fun c => !reserved.contains c) = true ∧ hasEscape name = false ∧
      name ≠ ['.'] ∧ name ≠ ['.', '.'] := by
  have hmarks : (name.all fun c => !reserved.contains c) = true ↔ ∀ c ∈ name, c ∉ reserved := by
    simp [List.all_eq_true]
  rw [hmarks]
  exact ⟨fun h => ⟨h.1, h.2, h.3⟩, fun h => ⟨h.1, h.2.1, h.2.2⟩⟩

instance (name : List Char) : Decidable (IsPlain name) := decidable_of_iff _ isPlain_iff.symm

theorem percentDecode_of_isPlain {name : List Char} (h : IsPlain name) :
    percentDecode (percentEncode inPathSet name) = utf8 name := by
  rw [percentDecode_percentEncode keepsEscapes_inPathSet, percentDecode_of_not_hasEscape h.escape]

theorem isName_percentEncode {name : List Char} (h : IsPlain name) :
    IsName (percentEncode inPathSet name) := by
  have hdecode := percentDecode_of_isPlain h
  refine ⟨?_, ?_⟩
  · rw [Bool.eq_false_iff]
    intro hdot
    rw [percentDecode_of_isSingleDot hdot] at hdecode
    exact h.dots.1 (utf8_injective hdecode.symm)
  · rw [Bool.eq_false_iff]
    intro hdot
    rw [percentDecode_of_isDoubleDot hdot] at hdecode
    exact h.dots.2 (utf8_injective hdecode.symm)

theorem encodedSegments_of_isPlain {name : List Char} (h : IsPlain name) :
    encodedSegments name = [percentEncode inPathSet name] := by
  have hslash : '/' ∉ name := fun hm => h.marks _ hm (by decide)
  have hsame : forwardSlashes name = name := by
    refine (List.map_congr_left fun c hc => if_neg ?_).trans (List.map_id' name)
    rintro rfl
    exact h.marks _ hc (by decide)
  unfold encodedSegments
  rw [segments_special, hsame, pieces_eq_singleton_iff.mpr ⟨rfl, hslash⟩]
  rfl

namespace Resource

/-- What stands behind the address and its slash in the path of a reset. -/
def resetText (name : List Char) : List Char :=
  "admin/breakers".toList ++ '/' :: (name ++ '/' :: "reset".toList)

theorem resetPath_eq_cons (name : List Char) : resetPath name = '/' :: resetText name := by
  rw [resetPath_eq]
  have hfront : "admin/breakers".toList = "admin".toList ++ '/' :: "breakers".toList := by decide
  unfold resetText
  rw [hfront]
  simp only [List.append_assoc, List.cons_append]

/-- The URL for the reset of a service whose name is pasted into it. -/
def resetUrl (scheme : List Char) (a : Authority) (name : List Char) : Url :=
  pasted scheme a ((resetText name).filter fun c => !isLineBlank c)

theorem filter_resetText (name : List Char) :
    (resetText name).filter (fun c => !isLineBlank c) =
      resetText (name.filter fun c => !isLineBlank c) := by
  have hfront : "admin/breakers".toList.filter (fun c => !isLineBlank c) = "admin/breakers".toList := by
    decide
  have hback : ('/' :: "reset".toList).filter (fun c => !isLineBlank c) = '/' :: "reset".toList := by
    decide
  unfold resetText
  rw [List.filter_append, List.filter_cons_of_pos (by decide), List.filter_append, hfront, hback]

theorem encodedSegments_reset (s : List Char) :
    encodedSegments ("admin/breakers".toList ++ '/' :: s) =
      "admin".toList :: "breakers".toList :: encodedSegments s := by
  have hfront : encodedSegments "admin/breakers".toList = ["admin".toList, "breakers".toList] := by
    decide
  rw [encodedSegments_append, hfront]
  rfl

theorem slashed_reset (segment : List Char) :
    slashed ["admin".toList, "breakers".toList, segment, "reset".toList] = resetPath segment := by
  rw [resetPath_eq]
  simp only [slashed, List.flatMap_cons, List.flatMap_nil, List.append_nil, List.cons_append]

/-- A segment in the path of a reset is one of those that the path was resolved from. -/
theorem of_slashed_eq_resetPath {tail segment : List Char} (hne : segment ≠ [])
    (hslash : '/' ∉ segment)
    (h : slashed (resolveDots false []
      ("admin".toList :: "breakers".toList :: encodedSegments tail)) = resetPath segment) :
    resolveDots false [] ("admin".toList :: "breakers".toList :: encodedSegments tail) =
        ["admin".toList, "breakers".toList, segment, "reset".toList] ∧
      segment ∈ "admin".toList :: "breakers".toList :: encodedSegments tail := by
  have hfree : ∀ s ∈ resolveDots false []
      ("admin".toList :: "breakers".toList :: encodedSegments tail), '/' ∉ s := by
    intro s hs
    rcases mem_resolveDots hs with rfl | hs | hs
    · exact List.not_mem_nil
    · cases hs
    · rcases List.mem_cons.mp hs with rfl | hs
      · decide
      · rcases List.mem_cons.mp hs with rfl | hs
        · decide
        · exact not_mem_encodedSegments hs
  have hout := congrArg (pieces '/') h
  rw [pieces_slashed hfree, pieces_eq_five_iff.mpr
    ⟨by decide, by decide, hslash, by decide, resetPath_eq segment⟩] at hout
  have hsegments := (List.cons.inj hout).2
  refine ⟨hsegments, ?_⟩
  have hmem : segment ∈ resolveDots false []
      ("admin".toList :: "breakers".toList :: encodedSegments tail) := by
    rw [hsegments]
    simp
  rcases mem_resolveDots hmem with hnil | hacc | hmem
  · exact absurd hnil hne
  · cases hacc
  · exact hmem

section Plain
variable {scheme : List Char} (hweb : scheme = "http".toList ∨ scheme = "https".toList)
include hweb

/-- The path of the URL for a reset goes on after its first two segments as `s` goes on up to the
query. -/
theorem path_resetUrl (a : Authority) (name : List Char) :
    (resetUrl scheme a name).path = slashed (resolveDots false []
      ("admin".toList :: "breakers".toList :: encodedSegments
        (splitTail true ((name.filter fun c => !isLineBlank c) ++ '/' :: "reset".toList)).1)) := by
  unfold resetUrl pasted
  rw [filter_resetText]
  generalize (name.filter fun c => !isLineBlank c) = clean
  have hfront : ("admin/breakers".toList ++ ['/']).Disjoint pathEnds := by
    have hall : ∀ c ∈ "admin/breakers".toList ++ ['/'], c ∉ pathEnds :=
      List.all_iff_forall_prop.mp (by decide)
    exact fun c hc hm => hall c hc hm
  have htext : resetText clean =
      ("admin/breakers".toList ++ ['/']) ++ (clean ++ '/' :: "reset".toList) := by
    unfold resetText
    rw [List.append_assoc, List.singleton_append]
  rw [htext, splitTail_append hfront, rootedPath_web hweb, List.append_assoc,
    List.singleton_append, encodedSegments_reset]

/-- **A plain name is found in its own segment**, encoded, and nothing else comes into the URL. -/
theorem resetUrl_of_isPlain (a : Authority) {name : List Char} (h : IsPlain name) :
    resetUrl scheme a name =
      ⟨scheme, some a, resetPath (percentEncode inPathSet name), none, none⟩ := by
  have hclean : (name.filter fun c => !isLineBlank c) = name := by
    rw [List.filter_eq_self]
    intro c hc
    have hreserved := h.marks c hc
    simp only [reserved, List.mem_cons, not_or] at hreserved
    simp [isLineBlank, hreserved]
  have htext : (resetText name).Disjoint pathEnds := by
    have hends : ∀ c ∈ pathEnds, c ∉ "admin/breakers".toList ∧ c ∉ '/' :: "reset".toList ∧
        c ∈ reserved := List.all_iff_forall_prop.mp (by decide)
    intro c hc hm
    obtain ⟨hfront, hback, hreserved⟩ := hends c hm
    unfold resetText at hc
    rw [List.mem_append, List.mem_cons, List.mem_append] at hc
    rcases hc with hc | rfl | hc | hc
    · exact hfront hc
    · exact hback List.mem_cons_self
    · exact h.marks c hc hreserved
    · exact hback hc
  have hpath : rootedPath scheme (resetText name) = resetPath (percentEncode inPathSet name) := by
    have hnames : ∀ s ∈ ["admin".toList, "breakers".toList, percentEncode inPathSet name,
        "reset".toList], IsName s := by
      simp only [List.forall_mem_cons]
      exact ⟨by decide, by decide, isName_percentEncode h, by decide, by simp⟩
    have hback : encodedSegments "reset".toList = ["reset".toList] := by decide
    unfold resetText
    rw [rootedPath_web hweb, encodedSegments_reset, encodedSegments_append,
      encodedSegments_of_isPlain h, hback, List.singleton_append, resolveDots_of_isName hnames,
      List.reverse_nil, List.nil_append, slashed_reset]
  unfold resetUrl pasted
  rw [filter_resetText, hclean, splitTail_of_disjoint htext, hpath]

/-- **Only a plain name is found in a segment**, whatever URL comes of the name. -/
theorem isPlain_of_resetUrl (a : Authority) {name segment : List Char} (hne : segment ≠ [])
    (hslash : '/' ∉ segment) (hpath : (resetUrl scheme a name).path = resetPath segment)
    (hname : percentDecode segment = utf8 name) : IsPlain name := by
  rw [path_resetUrl hweb] at hpath
  generalize hclean : (name.filter fun c => !isLineBlank c) = clean at hpath
  generalize htail : (splitTail true (clean ++ '/' :: "reset".toList)).1 = tail at hpath
  obtain ⟨hout, hmem⟩ := of_slashed_eq_resetPath hne hslash hpath
  have hsub : clean.Sublist name := hclean ▸ List.filter_sublist
  have hfixed : segment ∈ ["admin".toList, "breakers".toList, "reset".toList] → IsPlain name := by
    intro hfixed
    have hall : ∀ s ∈ ["admin".toList, "breakers".toList, "reset".toList],
        percentDecode s = utf8 s ∧ IsPlain s := by decide
    obtain ⟨hself, hplain⟩ := hall segment hfixed
    rwa [← utf8_injective (hself.symm.trans hname)]
  simp only [List.mem_cons] at hmem
  rcases hmem with hmem | hmem | hmem
  · exact hfixed (by simp [hmem])
  · exact hfixed (by simp [hmem])
  rcases fst_splitTail_append true clean ('/' :: "reset".toList) with
    hdisjoint | ⟨front, rest, rfl, hrest, hfront⟩
  · have hwhole : tail = clean ++ '/' :: "reset".toList := by
      rw [← htail, splitTail_append hdisjoint]
      rfl
    have hreset : encodedSegments "reset".toList = ["reset".toList] := by decide
    rw [hwhole, encodedSegments_append, hreset, List.mem_append] at hmem
    rcases hmem with hmem | hmem
    · obtain ⟨p, hpsub, hpslash, rfl⟩ := of_mem_encodedSegments hmem
      rw [percentDecode_percentEncode keepsEscapes_inPathSet] at hname
      obtain ⟨rfl, rfl, hescape⟩ := eq_of_percentDecode hsub hpsub hname
      obtain ⟨hforward, hback, hsame⟩ := forwardSlashes_of_not_mem hpslash
      rw [hsame] at hescape
      refine ⟨fun c hc hm => ?_, hescape, ?_⟩
      · have hline := List.filter_eq_self.mp hclean c hc
        simp only [reserved, List.mem_cons, List.not_mem_nil, or_false] at hm
        rcases hm with rfl | rfl | rfl | rfl | rfl | rfl | rfl
        · exact hforward hc
        · exact hback hc
        · exact hdisjoint hc (by decide)
        · exact hdisjoint hc (by decide)
        · exact absurd hline (by decide)
        · exact absurd hline (by decide)
        · exact absurd hline (by decide)
      · -- what a dot segment leaves of the path has no four segments
        rw [hwhole] at hout
        constructor
        · rintro rfl
          exact absurd (congrArg List.length hout) (by decide)
        · rintro rfl
          exact absurd (congrArg List.length hout) (by decide)
    · exact hfixed (List.mem_cons_of_mem _ (List.mem_cons_of_mem _ hmem))
  · -- what stands behind the path is missing from the name
    obtain rfl : front = tail := hfront.symm.trans htail
    obtain ⟨p, hpsub, -, rfl⟩ := of_mem_encodedSegments hmem
    rw [percentDecode_percentEncode keepsEscapes_inPathSet] at hname
    have hfrontsub := (List.sublist_append_left front rest).trans hsub
    obtain ⟨rfl, -⟩ := eq_of_percentDecode hfrontsub hpsub hname
    have hlength := hsub.length_le
    rw [List.length_append] at hlength
    exact absurd (List.length_pos_iff.mpr hrest) (by omega)

/-- **A name is found exactly when it is plain**: then the path of the URL is that of the reset of
what the name denotes. -/
theorem ofPath_resetUrl_iff (a : Authority) {name : String} (hne : name.toList ≠ []) :
    (∃ segment, ofPath true (resetUrl scheme a name.toList).path = .reset segment ∧
      textOf? (percentDecode segment) = some name) ↔ IsPlain name.toList := by
  simp only [ofPath_eq_reset_iff, textOf?_eq_some_iff]
  constructor
  · rintro ⟨segment, ⟨-, hsegment, hslash, hpath⟩, hname⟩
    exact isPlain_of_resetUrl hweb a hsegment hslash hpath hname
  · intro h
    have hdecode := percentDecode_of_isPlain h
    have hslash : '/' ∉ name.toList := fun hm => h.marks _ hm (by decide)
    refine ⟨percentEncode inPathSet name.toList, ⟨trivial, ?_, slash_not_mem_percentEncode hslash, ?_⟩,
      hdecode⟩
    · intro hnil
      rw [hnil] at hdecode
      exact hne (utf8_injective hdecode.symm)
    · rw [resetUrl_of_isPlain hweb a h]

end Plain

end Resource

end Gatehouse
