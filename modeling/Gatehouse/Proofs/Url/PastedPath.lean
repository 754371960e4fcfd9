import Gatehouse.Proofs.Routing.Segments
import Gatehouse.Proofs.Http.WholeTarget
import Mathlib.Tactic.SplitIfs

/-!
# A path that is pasted behind an address

The text of a URL is pasted together from an address, a slash and whatever is to be the path, and is
then read as a whole. The scheme and the authority are read before the slash; so they are those of
the address, whatever comes after it, and the rest is read as if it stood alone.

* `trim_append_cons`, `splitScheme?_append_cons`, `splitTail_append`, `readAuthority_append` : each
  step of the reading, of a text with something behind it;
* `climb`, `resolveDots_append` : what dot segments leave of the segments in front of others;
* `Front`, `front_of_parse` : an address in front of a path.
-/

namespace Gatehouse

open Gatehouse.Text

namespace Text

theorem pieces_append (c : Char) (s t : List Char) :
    pieces c (s ++ c :: t) = pieces c s ++ pieces c t := by
  induction s with
  | nil => simp [pieces]
  | cons x s ih =>
    by_cases hx : x = c
    · rw [List.cons_append, pieces, pieces, if_pos hx, if_pos hx, ih, List.cons_append]
    · obtain ⟨p, ps, hp, hs⟩ := pieces_cons_of_ne hx s
      rw [List.cons_append, pieces, if_neg hx, ih, hp, hs]
      rfl

theorem trimEnd_of_getLast? {p : Char → Bool} {s : List Char}
    (h : ∀ c ∈ s.getLast?, p c = false) : trimEnd p s = s := by
  have hreverse : s.reverse.dropWhile p = s.reverse := by
    cases hs : s.reverse with
    | nil => rfl
    | cons c t =>
      have hlast : s.getLast? = some c := by rw [← List.head?_reverse, hs, List.head?_cons]
      exact List.dropWhile_cons_of_neg (by rw [h c hlast]; exact Bool.false_ne_true)
  unfold trimEnd
  rw [hreverse, List.reverse_reverse]

theorem cut?_append {c : Char} {s : List Char} (h : c ∉ s) (t : List Char) :
    cut? c (s ++ t) = (cut? c t).map fun p => (s ++ p.1, p.2) := by
  induction s with
  | nil => simp
  | cons x s ih =>
    rw [List.mem_cons, not_or] at h
    rw [List.cons_append, cut?, if_neg (Ne.symm h.1), ih h.2, Option.map_map]
    rfl

theorem cut?_eq_none_iff {c : Char} {s : List Char} : cut? c s = none ↔ c ∉ s := by
  induction s with
  | nil => simp [cut?]
  | cons x s ih =>
    rw [cut?, List.mem_cons, not_or]
    by_cases hx : x = c
    · simp [hx]
    · rw [if_neg hx, Option.map_eq_none_iff, ih]
      exact (and_iff_right (Ne.symm hx)).symm

end Text

namespace Url

/-! ## The ends, the scheme and the tail -/

theorem trim_append_cons (front : List Char) {rest : List Char}
    (h : ∀ c ∈ rest.getLast?, isEdgeBlank c = false) :
    trim isEdgeBlank (front ++ '/' :: rest) = front.dropWhile isEdgeBlank ++ '/' :: rest := by
  have hdrop : (front ++ '/' :: rest).dropWhile isEdgeBlank =
      front.dropWhile isEdgeBlank ++ '/' :: rest := by
    rw [List.dropWhile_append]
    split
    · rename_i hempty
      rw [List.isEmpty_iff.mp hempty]
      rfl
    · rfl
  unfold trim
  rw [hdrop]
  refine trimEnd_of_getLast? fun c hc => ?_
  rw [List.getLast?_append, List.getLast?_cons] at hc
  cases hrest : rest.getLast? with
  | none =>
    rw [hrest] at hc
    obtain rfl := Option.some.inj hc
    decide
  | some d =>
    rw [hrest] at hc
    obtain rfl := Option.some.inj hc
    exact h _ hrest

theorem schemeRest?_append_cons {acc s x scheme w : List Char}
    (h : schemeRest? acc (s ++ '/' :: x) = some (scheme, w)) :
    ∃ r, w = r ++ '/' :: x ∧ ∀ y, schemeRest? acc (s ++ '/' :: y) = some (scheme, r ++ '/' :: y) := by
  induction s generalizing acc with
  | nil =>
    have hslash : (Char.isAlphanum '/' || '/' = '+' || '/' = '-' || '/' = '.') = false := by decide
    rw [List.nil_append, schemeRest?, if_neg (by decide), hslash] at h
    cases h
  | cons c s ih =>
    rw [List.cons_append, schemeRest?] at h
    by_cases hc : c = ':'
    · rw [if_pos hc] at h
      cases h
      refine ⟨s, rfl, fun y => ?_⟩
      rw [List.cons_append, schemeRest?, if_pos hc]
    · rw [if_neg hc] at h
      split at h
      · rename_i hchar
        obtain ⟨r, hw, hr⟩ := ih h
        refine ⟨r, hw, fun y => ?_⟩
        rw [List.cons_append, schemeRest?, if_neg hc, if_pos hchar, hr]
      · cases h

theorem splitScheme?_append_cons {s x scheme w : List Char}
    (h : splitScheme? (s ++ '/' :: x) = some (scheme, w)) :
    ∃ r, w = r ++ '/' :: x ∧ ∀ y, splitScheme? (s ++ '/' :: y) = some (scheme, r ++ '/' :: y) := by
  cases s with
  | nil =>
    have hslash : isLetter '/' = false := by decide
    rw [List.nil_append, splitScheme?, hslash] at h
    cases h
  | cons c s =>
    rw [List.cons_append, splitScheme?] at h
    split at h
    · rename_i hletter
      rw [← List.cons_append] at h
      obtain ⟨r, hw, hr⟩ := schemeRest?_append_cons h
      refine ⟨r, hw, fun y => ?_⟩
      rw [List.cons_append, splitScheme?, if_pos hletter, ← List.cons_append, hr]
    · cases h

theorem splitTail_append {special : Bool} {s : List Char} (h : s.Disjoint pathEnds)
    (t : List Char) :
    splitTail special (s ++ t) = (s ++ (splitTail special t).1, (splitTail special t).2) := by
  have hhash : '#' ∉ s := fun hm => h hm (by decide)
  have hquestion : '?' ∉ s := fun hm => h hm (by decide)
  unfold splitTail
  rw [cut?_append hhash]
  cases cut? '#' t with
  | none =>
    simp only [Option.map_none, cut?_append hquestion]
    cases cut? '?' t with
    | none => rfl
    | some p => rfl
  | some p =>
    simp only [Option.map_some, cut?_append hquestion]
    cases cut? '?' p.1 with
    | none => rfl
    | some q => rfl

/-- A URL without a query and a fragment is written without question marks and number signs. -/
theorem disjoint_of_splitTail {special : Bool} {s front : List Char}
    (h : splitTail special s = (front, none, none)) : s.Disjoint pathEnds ∧ front = s := by
  unfold splitTail at h
  cases hhash : cut? '#' s with
  | some p =>
    simp only [hhash] at h
    split at h <;> cases h
  | none =>
    simp only [hhash] at h
    split at h
    · cases h
    · rename_i hquestion
      cases h
      have hmarks : ∀ c ∈ pathEnds, c ∉ s := by
        simp only [pathEnds, List.forall_mem_cons]
        exact ⟨cut?_eq_none_iff.mp hquestion, cut?_eq_none_iff.mp hhash, by simp⟩
      exact ⟨fun c hc hm => hmarks c hm hc, rfl⟩

/-! ## The authority -/

section Authority
variable {front : List Char} {d : Char}

/-- A text in which nothing ends the authority of a URL with a special scheme. -/
def NoEnd (s : List Char) : Prop := ∀ c ∈ s, endsAuthority true c = false

theorem eq_of_cutLastAt? {s a b : List Char} (h : cutLastAt? s = some (a, b)) :
    s = a ++ '@' :: b := by
  induction s generalizing a b with
  | nil => cases h
  | cons c s ih =>
    rw [cutLastAt?] at h
    split at h
    · rename_i a' b' hcut
      cases h
      rw [ih hcut, List.cons_append]
    · split_ifs at h with hc
      cases h
      rw [hc, List.nil_append]

theorem splitUserinfo_append (hfront : NoEnd front) (hd : endsAuthority true d = true) :
    (∃ e, ∀ s, splitUserinfo true (front ++ d :: s) = .error e) ∨
      ∃ username password rest, NoEnd rest ∧
        ∀ s, splitUserinfo true (front ++ d :: s) = .ok (username, password, rest ++ d :: s) := by
  have hspan (s : List Char) : (front ++ d :: s).span (fun c => !endsAuthority true c) =
      (front, d :: s) := by
    refine Http.Uri.span_append (fun c hc => by simp [hfront c hc]) fun c hc => ?_
    obtain rfl := Option.some.inj hc
    simp [hd]
  unfold splitUserinfo
  simp only [hspan]
  cases hcut : cutLastAt? front with
  | none => exact .inr ⟨[], [], front, hfront, fun s => rfl⟩
  | some parts =>
    obtain ⟨info, rest⟩ := parts
    have hrest : NoEnd rest := fun c hc => hfront c (by
      rw [eq_of_cutLastAt? hcut]
      exact List.mem_append_right _ (List.mem_cons_of_mem _ hc))
    cases info with
    | nil =>
      cases rest with
      | nil => exact .inl ⟨_, fun s => rfl⟩
      | cons c rest => exact .inr ⟨[], [], c :: rest, hrest, fun s => rfl⟩
    | cons c info => exact .inr ⟨_, _, rest, hrest, fun s => rfl⟩

/-- The text of a host ends where the authority does, or at a colon in front of a port. -/
theorem splitHostText_append (hfront : NoEnd front) (hd : endsAuthority true d = true)
    (brackets : Bool) :
    ∃ host port, (port = [] ∨ ∃ digits, port = ':' :: digits ∧ NoEnd digits) ∧
      ∀ s, splitHostText true brackets (front ++ d :: s) = (host, port ++ d :: s) := by
  induction front generalizing brackets with
  | nil =>
    refine ⟨[], [], .inl rfl, fun s => ?_⟩
    show splitHostText true brackets (d :: s) = _
    rw [splitHostText, if_pos (.inr hd)]
    rfl
  | cons c front ih =>
    obtain ⟨hc, hrest⟩ := List.forall_mem_cons.mp hfront
    by_cases hcolon : c = ':' ∧ (!brackets) = true
    · refine ⟨[], c :: front, .inr ⟨front, by rw [hcolon.1], hrest⟩, fun s => ?_⟩
      rw [List.cons_append, splitHostText, if_pos (.inl hcolon)]
    · obtain ⟨host, port, hport, hread⟩ :=
        ih hrest (if c = '[' then true else if c = ']' then false else brackets)
      refine ⟨c :: host, port, hport, fun s => ?_⟩
      have hgoes : ¬ ((c = ':' ∧ (!brackets) = true) ∨ endsAuthority true c = true) := by
        rw [hc]
        exact not_or.mpr ⟨hcolon, Bool.false_ne_true⟩
      rw [List.cons_append, splitHostText, if_neg hgoes]
      simp only [hread s]

theorem readPort_append (hfront : NoEnd front) (hd : endsAuthority true d = true) (port : Nat)
    (any : Bool) :
    (∃ e, ∀ s, readPort port any (front ++ d :: s) = .error e) ∨
      ∃ p, ∀ s, readPort port any (front ++ d :: s) = .ok (p, d :: s) := by
  have hends {c : Char} : endsAuthority true c = true ↔ c = '/' ∨ c = '\\' ∨ c = '?' ∨ c = '#' := by
    unfold endsAuthority
    simp only [Bool.or_eq_true, Bool.and_eq_true, decide_eq_true_iff, true_and]
    tauto
  induction front generalizing port any with
  | nil =>
    have hdigit : d.isDigit = false := by
      rcases hends.mp hd with rfl | rfl | rfl | rfl <;> decide
    refine .inr ⟨if any then some port else none, fun s => ?_⟩
    show readPort port any (d :: s) = _
    rw [readPort, hdigit, if_neg Bool.false_ne_true, if_pos (hends.mp hd)]
  | cons c front ih =>
    obtain ⟨hc, hrest⟩ := List.forall_mem_cons.mp hfront
    have hmark : ¬ (c = '/' ∨ c = '\\' ∨ c = '?' ∨ c = '#') := by
      rw [← hends, hc]
      exact Bool.false_ne_true
    simp only [List.cons_append, readPort, if_neg hmark]
    split_ifs
    · exact .inl ⟨_, fun s => rfl⟩
    · exact ih hrest _ _
    · exact .inl ⟨_, fun s => rfl⟩

/-- An authority has a host that can stand in a text. -/
def HasHost (a : Authority) : Prop := ∃ host, a.host = some host ∧ IsHostText host.text

/-- **An authority is read before what ends it**, whatever comes after. -/
theorem readAuthority_append [Idna] {scheme : List Char} (hspecial : isSpecial scheme = true)
    (hfront : NoEnd front) (hd : endsAuthority true d = true) :
    (∃ e, ∀ s, readAuthority scheme (front ++ d :: s) = .error e) ∨
      ∃ a, HasHost a ∧
        ∀ s, readAuthority scheme (front ++ d :: s) = .ok (a, d :: s) := by
  have hcolon : d ≠ ':' := by
    rintro rfl
    revert hd
    decide
  unfold readAuthority
  simp only [hspecial, if_true, bind, Except.bind, pure, Except.pure]
  rcases splitUserinfo_append hfront hd with ⟨e, huser⟩ | ⟨username, password, rest, hrest, huser⟩
  · exact .inl ⟨e, fun s => by simp only [huser s]⟩
  · obtain ⟨host, port, hport, hhost⟩ := splitHostText_append hrest hd false
    simp only [huser, hhost]
    cases hempty : host.isEmpty with
    | true => exact .inl ⟨_, fun s => rfl⟩
    | false =>
      cases hname : parseHost host with
      | error e => exact .inl ⟨e, fun s => rfl⟩
      | ok name =>
        have hhas : ∃ host, some name = some host ∧ IsHostText host.text :=
          ⟨name, rfl, isHostText_of_parseHost hname⟩
        simp only [Bool.false_eq_true, if_false, Except.map, Option.isNone_some, false_and]
        rcases hport with rfl | ⟨digits, rfl, hdigits⟩
        · refine .inr ⟨⟨username, password, some name,
            if none = schemePort? scheme then none else none⟩, hhas, fun s => ?_⟩
          rw [List.nil_append]
          split
          · rename_i heq
            exact absurd (List.cons.inj heq).1 hcolon
          · rfl
        · rcases readPort_append hdigits hd 0 false with ⟨e, hread⟩ | ⟨p, hread⟩
          · exact .inl ⟨e, fun s => by simp only [List.cons_append, hread s]⟩
          · exact .inr ⟨⟨username, password, some name,
              if p = schemePort? scheme then none else p⟩, hhas,
              fun s => by simp only [List.cons_append, hread s]⟩

end Authority

/-! ## The path -/

theorem segments_append (special : Bool) (s t : List Char) :
    segments special (s ++ '/' :: t) = segments special s ++ segments special t := by
  unfold segments
  cases special with
  | false => exact pieces_append '/' s t
  | true =>
    have hmap : (s ++ '/' :: t).map (fun c => if c = '\\' then '/' else c) =
        s.map (fun c => if c = '\\' then '/' else c) ++
          '/' :: t.map fun c => if c = '\\' then '/' else c := by
      rw [List.map_append, List.map_cons, if_neg (by decide)]
    simp only [if_true, hmap]
    exact pieces_append '/' _ _

theorem slashed_append (a b : List (List Char)) : slashed (a ++ b) = slashed a ++ slashed b :=
  List.flatMap_append

theorem slashed_eq_nil_iff {a : List (List Char)} : slashed a = [] ↔ a = [] := by
  cases a with
  | nil => exact iff_of_true rfl rfl
  | cons s a => exact iff_of_false (List.cons_ne_nil _ _) (List.cons_ne_nil _ _)

/-- The segments so far, in reverse, once one more has come that is not the last. -/
def climb (acc : List (List Char)) (s : List Char) : List (List Char) :=
  if isDoubleDot s then acc.tail else if isSingleDot s then acc else s :: acc

theorem resolveDots_append {back : List (List Char)} (hback : back ≠ [])
    (acc front : List (List Char)) :
    resolveDots false acc (front ++ back) = resolveDots false (front.foldl climb acc) back := by
  induction front generalizing acc with
  | nil => rfl
  | cons s front ih =>
    have hmore : (front ++ back).isEmpty = false := by simp [hback]
    rw [List.cons_append, resolveDots, hmore, List.foldl_cons, ← ih]
    simp only [Bool.false_and, Bool.false_eq_true, if_false]
    unfold climb
    split_ifs <;> rfl

/-- A segment that means itself. -/
def IsName (s : List Char) : Prop := isSingleDot s = false ∧ isDoubleDot s = false

instance (s : List Char) : Decidable (IsName s) :=
  inferInstanceAs (Decidable (isSingleDot s = false ∧ isDoubleDot s = false))

theorem resolveDots_of_isName {segs : List (List Char)} (h : ∀ s ∈ segs, IsName s)
    (acc : List (List Char)) : resolveDots false acc segs = acc.reverse ++ segs := by
  induction segs generalizing acc with
  | nil => rw [resolveDots, List.append_nil]
  | cons s segs ih =>
    obtain ⟨⟨hsingle, hdouble⟩, hrest⟩ := List.forall_mem_cons.mp h
    rw [resolveDots, hsingle, hdouble]
    simp only [Bool.false_and, Bool.false_eq_true, if_false]
    rw [ih hrest, List.reverse_cons, List.append_assoc, List.singleton_append]

/-- The segments of a path under a scheme of the web, encoded. -/
def encodedSegments (s : List Char) : List (List Char) :=
  (segments true s).map (percentEncode inPathSet)

theorem encodedSegments_append (s t : List Char) :
    encodedSegments (s ++ '/' :: t) = encodedSegments s ++ encodedSegments t := by
  unfold encodedSegments
  rw [segments_append, List.map_append]

theorem encodedSegments_ne_nil (s : List Char) : encodedSegments s ≠ [] := by
  unfold encodedSegments
  rw [Ne, List.map_eq_nil_iff]
  exact pieces_ne_nil '/' _

section Web
variable {scheme : List Char} (hweb : scheme = "http".toList ∨ scheme = "https".toList)
include hweb

theorem isSpecial_web : isSpecial scheme = true := by
  rcases hweb with rfl | rfl <;> decide

theorem ne_file_web : scheme ≠ "file".toList := by
  rcases hweb with rfl | rfl <;> decide

theorem rootedPath_web (s : List Char) :
    rootedPath scheme s = slashed (resolveDots false [] (encodedSegments s)) := by
  unfold rootedPath encodedSegments
  simp only [isSpecial_web hweb, if_neg (ne_file_web hweb), decide_eq_false (ne_file_web hweb)]

/-- Segments in front of a path that leave nothing of themselves there leave nothing of themselves
anywhere. -/
theorem rootedPath_append {front p : List Char} (hnames : ∀ s ∈ encodedSegments p, IsName s)
    (h : rootedPath scheme (front ++ '/' :: p) = rootedPath scheme p) (s : List Char) :
    rootedPath scheme (front ++ '/' :: s) = rootedPath scheme s := by
  have hroot : (encodedSegments front).foldl climb [] = [] := by
    rw [rootedPath_web hweb, rootedPath_web hweb, encodedSegments_append,
      resolveDots_append (encodedSegments_ne_nil p), resolveDots_of_isName hnames,
      resolveDots_of_isName hnames, List.reverse_nil, List.nil_append, slashed_append,
      List.append_left_eq_self, slashed_eq_nil_iff, List.reverse_eq_nil_iff] at h
    exact h
  rw [rootedPath_web hweb, rootedPath_web hweb, encodedSegments_append,
    resolveDots_append (encodedSegments_ne_nil s), hroot]

theorem pathAfterAuthority_cons {d : Char} (hd : d = '/' ∨ d = '\\') (s : List Char) :
    pathAfterAuthority scheme (d :: s) = rootedPath scheme s := by
  unfold pathAfterAuthority dropSlash
  simp only [isSpecial_web hweb, true_and]
  rw [if_neg (by simp), if_pos hd]

/-! ## An address in front of a path -/

/-- A path that comes out as a path only if it stands behind an address: its segments are names, no
character of it is ignored, and it does not come out by itself when it is read as an authority. -/
structure IsProbe [Idna] (scheme p : List Char) : Prop where
  last : ∀ c ∈ p.getLast?, isEdgeBlank c = false
  filter_eq : (p.filter fun c => !isLineBlank c) = p
  dropWhile_eq : (p.dropWhile fun c => c = '/' || c = '\\') = p
  names : ∀ s ∈ encodedSegments p, IsName s
  not_authority : ∀ a rest, readAuthority scheme p = .ok (a, rest) →
    pathAfterAuthority scheme rest ≠ rootedPath scheme p

/-- What ends an authority in an address, or the slash behind the address does. -/
theorem exists_end [Idna] {p after : List Char} (hp : IsProbe scheme p)
    (hends : ∀ c ∈ after.head?, c = '/' ∨ c = '\\') :
    ∃ (d : Char) (back : List Char → List Char), (d = '/' ∨ d = '\\') ∧
      (∀ s, after ++ '/' :: s = d :: back s) ∧
      (rootedPath scheme (back p) = rootedPath scheme p →
        ∀ s, rootedPath scheme (back s) = rootedPath scheme s) := by
  cases after with
  | nil => exact ⟨'/', id, .inl rfl, fun s => rfl, fun _ s => rfl⟩
  | cons d after =>
    exact ⟨d, fun s => after ++ '/' :: s, hends d rfl, fun s => rfl, rootedPath_append hweb hp.names⟩

omit hweb in
/-- A text without a query or a fragment ends where an authority does, or at a slash. -/
theorem exists_site {r : List Char} (hr : r.Disjoint pathEnds) :
    ∃ site after, r = site ++ after ∧ NoEnd site ∧ ∀ c ∈ after.head?, c = '/' ∨ c = '\\' := by
  have hsplit := List.takeWhile_append_dropWhile (p := fun c => !endsAuthority true c) (l := r)
  refine ⟨_, _, hsplit.symm, fun c hc => ?_, fun e he => ?_⟩
  · simpa using List.mem_takeWhile_imp hc
  · have hstop := List.head?_dropWhile_not (fun c => !endsAuthority true c) r
    rw [Option.mem_def.mp he] at hstop
    have hmem : e ∈ r := (List.dropWhile_suffix _).subset (List.mem_of_mem_head? he)
    have hquestion : e ≠ '?' := by
      rintro rfl
      exact hr hmem (by decide)
    have hnumber : e ≠ '#' := by
      rintro rfl
      exact hr hmem (by decide)
    simpa [endsAuthority, hquestion, hnumber, or_iff_not_imp_left] using hstop

/-- An authority in a text with a path behind it, where there may be more than two slashes in front
of the authority. -/
theorem readAuthority_front [Idna] {r p rest : List Char} {a : Authority} (hp : IsProbe scheme p)
    (hr : r.Disjoint pathEnds)
    (h : readAuthority scheme ((r ++ '/' :: p).dropWhile fun c => c = '/' || c = '\\') =
      .ok (a, rest))
    (hpath : pathAfterAuthority scheme rest = rootedPath scheme p) :
    HasHost a ∧ ∀ s, ∃ rest,
      readAuthority scheme ((r ++ '/' :: s).dropWhile fun c => c = '/' || c = '\\') =
        .ok (a, rest) ∧ pathAfterAuthority scheme rest = rootedPath scheme s := by
  cases hdrop : r.dropWhile fun c => c = '/' || c = '\\' with
  | nil =>
    rw [List.dropWhile_append, hdrop, List.isEmpty_nil, if_pos rfl,
      List.dropWhile_cons_of_pos (by decide), hp.dropWhile_eq] at h
    exact absurd hpath (hp.not_authority a rest h)
  | cons c r' =>
    have hr' : (c :: r').Disjoint pathEnds := by
      intro x hx
      rw [← hdrop] at hx
      exact hr ((List.dropWhile_suffix _).subset hx)
    obtain ⟨site, after, hsplit, hnoEnd, hends⟩ := exists_site hr'
    obtain ⟨d, back, hd, hback, hpaths⟩ := exists_end hweb hp hends
    have hread (s : List Char) : (r ++ '/' :: s).dropWhile (fun c => c = '/' || c = '\\') =
        site ++ d :: back s := by
      rw [List.dropWhile_append, hdrop, ← hback s, ← List.append_assoc, ← hsplit]
      rfl
    have hend : endsAuthority true d = true := by rcases hd with rfl | rfl <;> decide
    rw [hread p] at h
    rcases readAuthority_append (isSpecial_web hweb) hnoEnd hend with ⟨e, herror⟩ | ⟨b, hhost, hok⟩
    · rw [herror] at h
      cases h
    · rw [hok] at h
      cases h
      rw [pathAfterAuthority_cons hweb hd] at hpath
      refine ⟨hhost, fun s => ⟨d :: back s, ?_, ?_⟩⟩
      · rw [hread s, hok]
      · rw [pathAfterAuthority_cons hweb hd]
        exact hpaths hpath s

end Web

/-- The URL of an address with a path behind it, which was cleaned of what is ignored. -/
def pasted (scheme : List Char) (a : Authority) (s : List Char) : Url :=
  ⟨scheme, some a, rootedPath scheme (splitTail true s).1, (splitTail true s).2.1,
    (splitTail true s).2.2⟩

/-- Whatever path is pasted behind `front`, the URL has this scheme and this authority. -/
structure Front [Idna] (front scheme : List Char) (a : Authority) : Prop where
  web : scheme = "http".toList ∨ scheme = "https".toList
  host : HasHost a
  parse_eq : ∀ s, (∀ c ∈ s.getLast?, isEdgeBlank c = false) →
    parse (front ++ '/' :: s) = .ok (pasted scheme a (s.filter fun c => !isLineBlank c))

/-- **One path tells for all**: when it comes out as it is behind an address, whatever is pasted
behind the address comes out as if it stood alone. -/
theorem front_of_parse [Idna] {front p : List Char} {u : Url} (hp : IsProbe u.scheme p)
    (hweb : u.scheme = "http".toList ∨ u.scheme = "https".toList)
    (h : parse (front ++ '/' :: p) = .ok u) (hpath : u.path = rootedPath u.scheme p)
    (hquery : u.query = none) (hfragment : u.fragment = none) :
    ∃ a, u.authority = some a ∧ Front front u.scheme a := by
  unfold parse at h
  rw [trim_append_cons front hp.last, List.filter_append, List.filter_cons_of_pos (by decide),
    hp.filter_eq] at h
  split at h
  · rename_i scheme w hsplit
    obtain ⟨r, rfl, hr⟩ := splitScheme?_append_cons hsplit
    have hscheme := scheme_of_parseAfterScheme h
    rw [hscheme] at hp hweb hpath
    have hspecial := isSpecial_web hweb
    have hfile := ne_file_web hweb
    simp only [parseAfterScheme, if_neg hfile, hspecial, if_true] at h
    generalize hparts : splitTail true (r ++ '/' :: p) = parts at h
    obtain ⟨path, query, fragment⟩ := parts
    obtain ⟨⟨a, rest⟩, ha, hu⟩ := exists_of_bind_eq_ok h
    cases hu
    obtain rfl : query = none := hquery
    obtain rfl : fragment = none := hfragment
    obtain ⟨hplain, rfl⟩ := disjoint_of_splitTail hparts
    have hrplain : r.Disjoint pathEnds := (List.disjoint_append_left.mp hplain).1
    obtain ⟨hhost, hread⟩ := readAuthority_front hweb hp hrplain ha hpath
    refine ⟨a, rfl, hweb, hhost, fun s hs => ?_⟩
    unfold parse
    rw [trim_append_cons front hs, List.filter_append, List.filter_cons_of_pos (by decide), hr]
    generalize (s.filter fun c => !isLineBlank c) = s
    obtain ⟨rest, hauthority, hrooted⟩ := hread (splitTail true s).1
    have htail : splitTail true (r ++ '/' :: s) =
        (r ++ '/' :: (splitTail true s).1, (splitTail true s).2) := by
      have hslash : ['/'].Disjoint pathEnds := List.singleton_disjoint.mpr (by decide)
      have hcons : splitTail true ('/' :: s) = ('/' :: (splitTail true s).1, (splitTail true s).2) :=
        splitTail_append hslash s
      rw [splitTail_append hrplain, hcons]
    simp only [parseAfterScheme, if_neg hfile, hspecial, if_true, htail, hauthority]
    unfold pasted
    rw [← hrooted]
    rfl
  · cases h

end Url

end Gatehouse
