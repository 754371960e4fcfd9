import Gatehouse.Routing.Condition
import Mathlib.Data.List.Basic

/-!
# Segments of a path

A path falls into segments at its slashes, and a text falls into pieces at any character.

* `pieces_eq_singleton_iff`, `pieces_eq_cons_cons_iff` : a text from its pieces;
* `isUnder_iff` : a path lies under a prefix when its first segments are those of the prefix;
* `byteLength_le_iff` : which of two prefixes of one text is the longer one.
-/

namespace Gatehouse

open Gatehouse.Http Gatehouse.Text

namespace Text

theorem pieces_cons_of_ne {c x : Char} (h : x ≠ c) (s : List Char) :
    ∃ p ps, pieces c s = p :: ps ∧ pieces c (x :: s) = (x :: p) :: ps := by
  cases hs : pieces c s with
  | nil => exact absurd hs (pieces_ne_nil c s)
  | cons p ps => exact ⟨p, ps, rfl, by simp [pieces, h, hs]⟩

theorem pieces_append_cons {c : Char} {p : List Char} (h : c ∉ p) (s : List Char) :
    pieces c (p ++ c :: s) = p :: pieces c s := by
  induction p with
  | nil => simp [pieces]
  | cons x p ih =>
    rw [List.mem_cons, not_or] at h
    rw [List.cons_append, pieces, if_neg (Ne.symm h.1), ih h.2]

theorem pieces_eq_singleton_iff {c : Char} {s p : List Char} :
    pieces c s = [p] ↔ s = p ∧ c ∉ p := by
  induction s generalizing p with
  | nil =>
    constructor
    · intro h
      obtain rfl : [] = p := List.singleton_inj.mp h
      exact ⟨rfl, List.not_mem_nil⟩
    · rintro ⟨rfl, -⟩
      rfl
  | cons x s ih =>
    by_cases hx : x = c
    · constructor
      · intro h
        simp [pieces, hx, pieces_ne_nil] at h
      · rintro ⟨rfl, hc⟩
        exact absurd List.mem_cons_self (hx ▸ hc)
    · obtain ⟨q, qs, hq, hs⟩ := pieces_cons_of_ne hx s
      rw [hs]
      constructor
      · intro h
        obtain ⟨rfl, rfl⟩ := List.cons.inj h
        obtain ⟨rfl, hc⟩ := ih.mp hq
        exact ⟨rfl, by simp [Ne.symm hx, hc]⟩
      · rintro ⟨rfl, hc⟩
        have hrest := ih.mpr ⟨rfl, fun hmem => hc (List.mem_cons_of_mem x hmem)⟩
        obtain ⟨rfl, rfl⟩ := List.cons.inj (hq.symm.trans hrest)
        rfl

theorem pieces_eq_cons_cons_iff {c : Char} {s p q : List Char} {ps : List (List Char)} :
    pieces c s = p :: q :: ps ↔ ∃ t, s = p ++ c :: t ∧ c ∉ p ∧ pieces c t = q :: ps := by
  constructor
  · induction s generalizing p with
    | nil => intro h; simp [pieces] at h
    | cons x s ih =>
      intro h
      by_cases hx : x = c
      · rw [pieces, if_pos hx] at h
        obtain ⟨rfl, hs⟩ := List.cons.inj h
        exact ⟨s, by rw [hx]; rfl, List.not_mem_nil, hs⟩
      · obtain ⟨p', qs, hp, hs⟩ := pieces_cons_of_ne hx s
        rw [hs] at h
        obtain ⟨rfl, rfl⟩ := List.cons.inj h
        obtain ⟨t, rfl, hc, ht⟩ := ih hp
        exact ⟨t, rfl, by simp [Ne.symm hx, hc], ht⟩
  · rintro ⟨t, rfl, hc, ht⟩
    rw [pieces_append_cons hc, ht]

theorem byteLength_append (s t : List Char) :
    byteLength (s ++ t) = byteLength s + byteLength t := by
  induction s with
  | nil => simp [byteLength]
  | cons c s ih =>
    rw [List.cons_append, byteLength, byteLength, ih]
    omega

/-- Of two prefixes of one text the one with more characters has more bytes. -/
theorem byteLength_le_iff {p q s : List Char} (hp : p <+: s) (hq : q <+: s) :
    byteLength p ≤ byteLength q ↔ p.length ≤ q.length := by
  constructor
  · intro hbytes
    by_contra hlength
    obtain ⟨r, rfl⟩ := List.prefix_of_prefix_length_le hq hp (by omega)
    cases r with
    | nil => simp at hlength
    | cons c r =>
      have hc := c.utf8Size_pos
      rw [byteLength_append, byteLength] at hbytes
      omega
  · intro hlength
    obtain ⟨r, rfl⟩ := List.prefix_of_prefix_length_le hp hq hlength
    rw [byteLength_append]
    omega

end Text

namespace Routing

/-- A path lies under a prefix when its first segments are the segments of the prefix. -/
theorem isUnder_iff (p path : List Char) :
    isUnder p path = true ↔ pieces '/' p <+: pieces '/' path := by
  induction p generalizing path with
  | nil =>
    cases path with
    | nil => simp [isUnder, afterPrefix?, startsSegment, pieces]
    | cons b s =>
      by_cases hb : b = '/'
      · simp [isUnder, afterPrefix?, startsSegment, pieces, hb]
      · obtain ⟨q, qs, -, hs⟩ := pieces_cons_of_ne hb s
        rw [hs]
        simp [isUnder, afterPrefix?, startsSegment, hb, pieces]
  | cons a p ih =>
    cases path with
    | nil =>
      by_cases ha : a = '/'
      · simp [isUnder, afterPrefix?, pieces, ha, pieces_ne_nil]
      · obtain ⟨q, qs, -, hp⟩ := pieces_cons_of_ne ha p
        rw [hp]
        simp [isUnder, afterPrefix?, pieces]
    | cons b s =>
      have hunder : isUnder (a :: p) (b :: s) = true ↔ a = b ∧ isUnder p s = true := by
        by_cases hab : a = b
        · simp [isUnder, afterPrefix?, hab]
        · simp [isUnder, afterPrefix?, hab]
      rw [hunder, ih]
      by_cases ha : a = '/' <;> by_cases hb : b = '/'
      · simp [pieces, ha, hb]
      · obtain ⟨q, qs, -, hs⟩ := pieces_cons_of_ne hb s
        rw [hs]
        simp [pieces, ha, Ne.symm hb]
      · obtain ⟨q, qs, -, hp⟩ := pieces_cons_of_ne ha p
        rw [hp]
        simp [pieces, ha, hb]
      · obtain ⟨q, qs, hq, hp⟩ := pieces_cons_of_ne ha p
        obtain ⟨t, ts, ht, hs⟩ := pieces_cons_of_ne hb s
        rw [hp, hs, hq, ht]
        simp only [List.cons_prefix_cons, List.cons.injEq, and_assoc]

theorem prefix_of_isUnder {p path : List Char} (h : isUnder p path = true) : p <+: path := by
  obtain ⟨rest, hrest, -⟩ := (Option.any_eq_true _ _).mp h
  exact ⟨rest, (afterPrefix?_eq_some_iff.mp hrest).symm⟩

end Routing

end Gatehouse
