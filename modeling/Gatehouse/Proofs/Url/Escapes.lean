import Gatehouse.Proofs.Routing.Segments
import Gatehouse.Proofs.Url.Delimiters
import Mathlib.Tactic.SplitIfs

/-!
# Escapes

A percent sign with two hexadecimal digits stands for a byte, any other character for its encoding.
So what a text denotes is the text itself exactly when no escape stands in it, and encoding a part
of it changes nothing of what it denotes.

* `Text.textOf?_eq_some_iff`, `Text.length_utf8` : text and its bytes;
* `hasEscape` : an escape stands in a text;
* `percentDecode_of_not_hasEscape`, `length_percentDecode_lt` : what a text without escapes denotes,
  and one with some;
* `percentDecode_percentEncode` : what an encoded text denotes;
* `percentDecode_of_isSingleDot`, `percentDecode_of_isDoubleDot` : what dot segments denote.
-/

namespace Gatehouse

/-! ## Text and its bytes -/

namespace Text

def utf8 (s : List Char) : Bytes := s.flatMap String.utf8EncodeChar

theorem utf8_cons (c : Char) (s : List Char) : utf8 (c :: s) = String.utf8EncodeChar c ++ utf8 s :=
  List.flatMap_cons

theorem length_utf8 (s : List Char) : (utf8 s).length = byteLength s := by
  induction s with
  | nil => rfl
  | cons c s ih =>
    rw [utf8_cons, List.length_append, ih, String.length_utf8EncodeChar]
    rfl

theorem toArray_bytesOf (s : String) : (⟨(bytesOf s).toArray⟩ : ByteArray) = s.toByteArray := by
  rw [← String.utf8Encode_toList]
  exact ByteArray.ext (List.data_toByteArray ..).symm

theorem textOf?_eq_some_iff {bs : Bytes} {s : String} : textOf? bs = some s ↔ bs = bytesOf s := by
  unfold textOf? String.fromUTF8?
  constructor
  · intro h
    split_ifs at h
    have hbytes : (⟨bs.toArray⟩ : ByteArray) = s.toByteArray := by
      rw [← Option.some.inj h]
      rfl
    rw [← toArray_bytesOf] at hbytes
    simpa using hbytes
  · rintro rfl
    rw [toArray_bytesOf, dif_pos s.isValidUTF8]
    rfl

theorem utf8_injective {s t : List Char} (h : utf8 s = utf8 t) : s = t := by
  have hbytes (s : List Char) : bytesOf (.ofList s) = utf8 s := by
    unfold bytesOf
    rw [String.toList_ofList]
    rfl
  have hs := textOf?_eq_some_iff.mpr (hbytes s).symm
  have ht := textOf?_eq_some_iff.mpr (hbytes t).symm
  rw [h, ht] at hs
  exact String.ofList_injective (Option.some.inj hs).symm

end Text

namespace Url

open Gatehouse.Text

/-! ## Escapes in a text -/

/-- Whether a text starts with two hexadecimal digits. -/
def startsWithByte : List Char → Bool
  | a :: b :: _ => (hexValue? a).isSome && (hexValue? b).isSome
  | _ => false

/-- Whether an escape stands in a text. -/
def hasEscape : List Char → Bool
  | [] => false
  | c :: s => (c = '%' && startsWithByte s) || hasEscape s

/-- A text starts with an escape, or with a character that denotes itself. -/
theorem percentDecode_cons (c : Char) (s : List Char) :
    (∃ a b t x y, c = '%' ∧ s = a :: b :: t ∧ hexValue? a = some x ∧ hexValue? b = some y ∧
        percentDecode (c :: s) = .ofNat (16 * x + y) :: percentDecode t) ∨
      (c = '%' && startsWithByte s) = false ∧
        percentDecode (c :: s) = String.utf8EncodeChar c ++ percentDecode s := by
  by_cases hc : c = '%'
  · subst hc
    match s with
    | [] => exact .inr ⟨rfl, rfl⟩
    | [a] => exact .inr ⟨rfl, rfl⟩
    | a :: b :: t =>
      cases ha : hexValue? a with
      | none =>
        refine .inr ⟨by simp [startsWithByte, ha], ?_⟩
        rw [percentDecode, ha]
      | some x =>
        cases hb : hexValue? b with
        | none =>
          refine .inr ⟨by simp [startsWithByte, hb], ?_⟩
          rw [percentDecode, ha, hb]
        | some y =>
          refine .inl ⟨a, b, t, x, y, rfl, rfl, ha, hb, ?_⟩
          rw [percentDecode, ha, hb]
  · refine .inr ⟨by simp [hc], ?_⟩
    rw [percentDecode]
    rintro a b t rfl
    exact absurd rfl hc

theorem percentDecode_of_not_hasEscape {s : List Char} (h : hasEscape s = false) :
    percentDecode s = utf8 s := by
  induction s with
  | nil => rfl
  | cons c s ih =>
    rw [hasEscape, Bool.or_eq_false_iff] at h
    rcases percentDecode_cons c s with ⟨a, b, t, x, y, rfl, rfl, ha, hb, -⟩ | ⟨-, hdecode⟩
    · simp [startsWithByte, ha, hb] at h
    · rw [hdecode, ih h.2, utf8_cons]

/-- No text denotes more bytes than it has, and one with an escape denotes fewer. -/
theorem length_percentDecode (s : List Char) : (percentDecode s).length ≤ byteLength s ∧
    (hasEscape s = true → (percentDecode s).length < byteLength s) := by
  induction hn : s.length using Nat.strongRecOn generalizing s with
  | ind n ih =>
    cases s with
    | nil => exact ⟨Nat.le_refl _, fun h => nomatch h⟩
    | cons c s =>
      rw [byteLength]
      rcases percentDecode_cons c s with ⟨a, b, t, x, y, rfl, rfl, -, -, hdecode⟩ | ⟨hnone, hdecode⟩
      · have hrest := (ih t.length (by simp at hn; omega) t rfl).1
        have ha := a.utf8Size_pos
        have hb := b.utf8Size_pos
        have hless : (percentDecode ('%' :: a :: b :: t)).length <
            '%'.utf8Size + byteLength (a :: b :: t) := by
          rw [hdecode, List.length_cons, byteLength, byteLength]
          omega
        exact ⟨Nat.le_of_lt hless, fun _ => hless⟩
      · have hrest := ih s.length (by simp at hn; omega) s rfl
        rw [hdecode, List.length_append, String.length_utf8EncodeChar, hasEscape, hnone,
          Bool.false_or]
        exact ⟨Nat.add_le_add_left hrest.1 _, fun h => Nat.add_lt_add_left (hrest.2 h) _⟩

/-! ## Escapes that encoding puts in -/

theorem hexValue?_hexDigit_toUpper : ∀ n < 16, hexValue? (hexDigit n).toUpper = some n := by decide

theorem percentDecode_percentByte (b : UInt8) (s : List Char) :
    percentDecode (percentByte b ++ s) = b :: percentDecode s := by
  have hb : b.toNat < 256 := b.toNat_lt
  have hhigh := hexValue?_hexDigit_toUpper (b.toNat / 16) (by omega)
  have hlow := hexValue?_hexDigit_toUpper (b.toNat % 16) (by omega)
  have hbyte : UInt8.ofNat (16 * (b.toNat / 16) + b.toNat % 16) = b := by
    rw [Nat.div_add_mod]
    exact UInt8.ofNat_toNat
  show percentDecode ('%' :: _ :: _ :: s) = _
  rw [percentDecode, hhigh, hlow]
  simp only [hbyte]

theorem percentDecode_flatMap_percentByte (bs : Bytes) (s : List Char) :
    percentDecode (bs.flatMap percentByte ++ s) = bs ++ percentDecode s := by
  induction bs with
  | nil => rfl
  | cons b bs ih =>
    rw [List.flatMap_cons, List.append_assoc, percentDecode_percentByte, ih, List.cons_append]

section Encode
variable {set : Char → Bool}

theorem percentEncode_cons_of_mem {c : Char} (h : set c = true) (s : List Char) :
    percentEncode set (c :: s) =
      (String.utf8EncodeChar c).flatMap percentByte ++ percentEncode set s := by
  unfold percentEncode
  rw [List.flatMap_cons, h, if_pos rfl]

theorem percentEncode_cons_of_not_mem {c : Char} (h : set c = false) (s : List Char) :
    percentEncode set (c :: s) = c :: percentEncode set s := by
  unfold percentEncode
  rw [List.flatMap_cons, h, if_neg Bool.false_ne_true]
  rfl

theorem mem_percentEncode {s : List Char} {c : Char} (h : c ∈ percentEncode set s) :
    c ∈ escapeChars ∨ c ∈ s ∧ set c = false := by
  obtain ⟨x, hx, hc⟩ := List.mem_flatMap.mp h
  cases hset : set x with
  | true =>
    rw [hset, if_pos rfl] at hc
    obtain ⟨b, -, hb⟩ := List.mem_flatMap.mp hc
    exact .inl (mem_escapeChars_of_mem_percentByte hb)
  | false =>
    rw [hset, if_neg Bool.false_ne_true, List.mem_singleton] at hc
    exact .inr ⟨hc ▸ hx, hc ▸ hset⟩

/-- What is encoded starts with a percent sign. -/
theorem head?_percentEncode_of_mem {c : Char} (h : set c = true) (s : List Char) :
    (percentEncode set (c :: s)).head? = some '%' := by
  rw [percentEncode_cons_of_mem h]
  obtain ⟨b, bs, hbytes⟩ := List.exists_cons_of_ne_nil (l := String.utf8EncodeChar c) (by
    rw [← List.length_pos_iff, String.length_utf8EncodeChar]
    exact c.utf8Size_pos)
  rw [hbytes]
  rfl

/-- A set that leaves percent signs and hexadecimal digits as they are, so that encoding touches no
escape. -/
def KeepsEscapes (set : Char → Bool) : Prop :=
  set '%' = false ∧ ∀ c, (hexValue? c).isSome = true → set c = false

theorem startsWithByte_percentEncode (hset : KeepsEscapes set) (s : List Char) :
    startsWithByte (percentEncode set s) = startsWithByte s := by
  have hpercent : hexValue? '%' = none := by decide
  have hkeeps {c : Char} (hc : set c = true) : hexValue? c = none := by
    rw [← Option.not_isSome_iff_eq_none]
    intro hsome
    rw [hset.2 c hsome] at hc
    cases hc
  match s with
  | [] => rfl
  | a :: s =>
    cases ha : set a with
    | true =>
      obtain ⟨t, ht⟩ := List.head?_eq_some_iff.mp (head?_percentEncode_of_mem ha s)
      rw [ht]
      cases t <;> cases s <;> simp [startsWithByte, hpercent, hkeeps ha]
    | false =>
      rw [percentEncode_cons_of_not_mem ha]
      match s with
      | [] => rfl
      | b :: s =>
        cases hb : set b with
        | true =>
          obtain ⟨t, ht⟩ := List.head?_eq_some_iff.mp (head?_percentEncode_of_mem hb s)
          rw [ht]
          simp [startsWithByte, hpercent, hkeeps hb]
        | false =>
          rw [percentEncode_cons_of_not_mem hb]
          rfl

/-- **An encoded text denotes what the text denotes.** -/
theorem percentDecode_percentEncode (hset : KeepsEscapes set) (s : List Char) :
    percentDecode (percentEncode set s) = percentDecode s := by
  induction hn : s.length using Nat.strongRecOn generalizing s with
  | ind n ih =>
    cases s with
    | nil => rfl
    | cons c s =>
      rcases percentDecode_cons c s with ⟨a, b, t, x, y, rfl, rfl, ha, hb, hdecode⟩ | ⟨hnone, hdecode⟩
      · rw [hdecode, ← ih t.length (by simp at hn; omega) t rfl,
          percentEncode_cons_of_not_mem hset.1,
          percentEncode_cons_of_not_mem (hset.2 a (by rw [ha]; rfl)),
          percentEncode_cons_of_not_mem (hset.2 b (by rw [hb]; rfl)), percentDecode, ha, hb]
      · have hrest := ih s.length (by simp at hn; omega) s rfl
        rw [hdecode, ← hrest]
        cases hc : set c with
        | true => rw [percentEncode_cons_of_mem hc, percentDecode_flatMap_percentByte]
        | false =>
          rw [← startsWithByte_percentEncode hset] at hnone
          rw [percentEncode_cons_of_not_mem hc]
          rcases percentDecode_cons c (percentEncode set s) with
            ⟨a, b, t, x, y, hpercent, ht, ha, hb, -⟩ | ⟨-, h⟩
          · simp [hpercent, ht, startsWithByte, ha, hb] at hnone
          · exact h

end Encode

/-! ## Characters of ASCII -/

/-- What holds of the characters of ASCII one by one. -/
theorem of_ascii {p : Char → Prop} (h : ∀ n < 128, p (Char.ofNat n)) {c : Char}
    (hc : c.toNat < 128) : p c := by
  rw [← Char.ofNat_toNat c]
  exact h _ hc

theorem toNat_lt_of_hexValue? {c : Char} (h : (hexValue? c).isSome = true) : c.toNat < 128 := by
  have hbound {d : Char} (hd : c ≤ d) (hlt : d.toNat < 128) : c.toNat < 128 :=
    Nat.lt_of_le_of_lt (UInt32.le_iff_toNat_le.mp hd) hlt
  unfold hexValue? at h
  split_ifs at h with hdigit hsmall hlarge
  · exact hbound hdigit.2 (by decide)
  · exact hbound hsmall.2 (by decide)
  · exact hbound hlarge.2 (by decide)
  · cases h

theorem keepsEscapes_inPathSet : KeepsEscapes inPathSet := by
  have hall : ∀ n < 128, (hexValue? (Char.ofNat n)).isSome = true →
      inPathSet (Char.ofNat n) = false := by decide
  exact ⟨by decide, fun c hc =>
    of_ascii (p := fun c => (hexValue? c).isSome = true → inPathSet c = false) hall
      (toNat_lt_of_hexValue? hc) hc⟩

theorem toNat_le_toNat_toLower (c : Char) : c.toNat ≤ c.toLower.toNat := by
  unfold Char.toLower
  split
  · rename_i h
    have hupper : c.val.toNat ≤ 90 := UInt32.le_iff_toNat_le.mp h.2
    show c.val.toNat ≤ (c.val + 32).toNat
    rw [UInt32.toNat_add, Nat.mod_eq_of_lt]
    · exact Nat.le_add_right ..
    · exact Nat.lt_of_le_of_lt (Nat.add_le_add_right hupper _) (by decide)
  · exact Nat.le_refl _

/-- A text of which the first character is known but for its case. -/
theorem exists_of_lower_cons {d : Char} {s t : List Char} (h : lower s = d :: t)
    (hd : d.toNat < 128) :
    ∃ c rest, s = c :: rest ∧ (c = d ∨ c = d.toUpper) ∧ lower rest = t := by
  obtain ⟨c, rest, rfl, rfl, ht⟩ := List.map_eq_cons_iff.mp h
  have hall : ∀ n < 128, Char.ofNat n = (Char.ofNat n).toLower ∨
      Char.ofNat n = (Char.ofNat n).toLower.toUpper := by decide
  exact ⟨c, rest, rfl, of_ascii (p := fun c => c = c.toLower ∨ c = c.toLower.toUpper) hall
    (Nat.lt_of_le_of_lt (toNat_le_toNat_toLower c) hd), ht⟩

/-! ## Dot segments -/

theorem isSingleDot_iff {s : List Char} :
    isSingleDot s = true ↔ lower s = ['.'] ∨ lower s = "%2e".toList := by
  unfold isSingleDot
  rw [Bool.or_eq_true, decide_eq_true_iff, decide_eq_true_iff]

/-- A dot denotes itself, whether it is escaped or not. -/
theorem percentDecode_dot_append {s : List Char} (h : isSingleDot s = true) (rest : List Char) :
    percentDecode (s ++ rest) = utf8 ['.'] ++ percentDecode rest := by
  rcases isSingleDot_iff.mp h with h | h
  · obtain ⟨c, t, rfl, hc, ht⟩ := exists_of_lower_cons h (by decide)
    obtain rfl := List.map_eq_nil_iff.mp ht
    obtain rfl : c = '.' := hc.elim id id
    rfl
  · obtain ⟨c, t, rfl, hc, ht⟩ := exists_of_lower_cons h (by decide)
    obtain ⟨d, u, rfl, hd, hu⟩ := exists_of_lower_cons ht (by decide)
    obtain ⟨e, v, rfl, he, hv⟩ := exists_of_lower_cons hu (by decide)
    obtain rfl := List.map_eq_nil_iff.mp hv
    obtain rfl : c = '%' := hc.elim id id
    obtain rfl : d = '2' := hd.elim id id
    rcases he with rfl | rfl
    · rfl
    · rfl

theorem percentDecode_of_isSingleDot {s : List Char} (h : isSingleDot s = true) :
    percentDecode s = utf8 ['.'] := by
  rw [← List.append_nil s, percentDecode_dot_append h]
  rfl

theorem percentDecode_of_isDoubleDot {s : List Char} (h : isDoubleDot s = true) :
    percentDecode s = utf8 ['.', '.'] := by
  have hdots : ∃ u v, s = u ++ v ∧ isSingleDot u = true ∧ isSingleDot v = true := by
    have hsplit : ∀ p q : List Char, lower s = p ++ q →
        (p = ['.'] ∨ p = "%2e".toList) → (q = ['.'] ∨ q = "%2e".toList) →
        ∃ u v, s = u ++ v ∧ isSingleDot u = true ∧ isSingleDot v = true := by
      intro p q hpq hp hq
      obtain ⟨u, v, rfl, rfl, rfl⟩ := List.map_eq_append_iff.mp hpq
      exact ⟨u, v, rfl, isSingleDot_iff.mpr hp, isSingleDot_iff.mpr hq⟩
    unfold isDoubleDot at h
    simp only [Bool.or_eq_true, decide_eq_true_iff] at h
    rcases h with ((h | h) | h) | h
    · exact hsplit ['.'] ['.'] h (.inl rfl) (.inl rfl)
    · exact hsplit "%2e".toList ['.'] h (.inr rfl) (.inl rfl)
    · exact hsplit ['.'] "%2e".toList h (.inl rfl) (.inr rfl)
    · exact hsplit "%2e".toList "%2e".toList h (.inr rfl) (.inr rfl)
  obtain ⟨u, v, rfl, hu, hv⟩ := hdots
  rw [percentDecode_dot_append hu, percentDecode_of_isSingleDot hv]
  rfl

end Url

end Gatehouse
