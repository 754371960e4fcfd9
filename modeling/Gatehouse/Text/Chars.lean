/-!
# Lists of characters

Text is taken apart as a list of characters. This file has the cuts that the rest of the library
is built from.

* `dropEnd c s` : `s` without its trailing `c`s;
* `pieces c s` : the pieces of `s` between the occurrences of `c`, always at least one;
* `cut? c s` : the text before the first `c` and the text after it;
* `after? c s`, `afterPrefix? p s` : what follows `c`, or `p`, at the front of `s`;
* `trim p s` : `s` without the characters in `p` at its two ends;
* `lower`, `upper` : letter case of ASCII letters, every other character kept;
* `hexValue?`, `hexDigit`, `hexText` : hexadecimal digits.
-/

namespace Gatehouse.Text

/-- `s` without the characters `c` at its end. -/
def dropEnd (c : Char) : List Char → List Char
  | [] => []
  | x :: s =>
    match dropEnd c s with
    | [] => if x = c then [] else [x]
    | y :: r => x :: y :: r

theorem dropEnd_nil (c : Char) : dropEnd c [] = [] := rfl

theorem exists_append_dropEnd (c : Char) (s : List Char) :
    ∃ n, s = dropEnd c s ++ List.replicate n c := by
  induction s with
  | nil => exact ⟨0, rfl⟩
  | cons x s ih =>
    obtain ⟨n, hn⟩ := ih
    rw [dropEnd]
    split
    · rename_i h
      rw [h, List.nil_append] at hn
      by_cases hx : x = c
      · exact ⟨n + 1, by rw [if_pos hx, List.nil_append, List.replicate_succ, ← hn, hx]⟩
      · exact ⟨n, by rw [if_neg hx, ← hn]; rfl⟩
    · rename_i y r h
      exact ⟨n, by rw [List.cons_append, ← h, ← hn]⟩

theorem getLast?_dropEnd (c : Char) (s : List Char) : (dropEnd c s).getLast? ≠ some c := by
  induction s with
  | nil => simp [dropEnd]
  | cons x s ih =>
    cases h : dropEnd c s with
    | nil => by_cases hx : x = c <;> simp [dropEnd, h, hx]
    | cons y r => simpa [dropEnd, h] using ih

/-- What stands in front of another character is kept. -/
theorem dropEnd_append_cons {c d : Char} (h : d ≠ c) (front s : List Char) :
    dropEnd c (front ++ d :: s) = front ++ d :: dropEnd c s := by
  induction front with
  | nil =>
    rw [List.nil_append, List.nil_append, dropEnd]
    cases dropEnd c s with
    | nil => exact if_neg h
    | cons y r => rfl
  | cons x front ih =>
    rw [List.cons_append, dropEnd, ih]
    cases front with
    | nil => rfl
    | cons y front => rfl

/-- The pieces between the occurrences of `c`. -/
def pieces (c : Char) : List Char → List (List Char)
  | [] => [[]]
  | x :: s =>
    if x = c then [] :: pieces c s
    else
      match pieces c s with
      | [] => [[x]]
      | p :: ps => (x :: p) :: ps

theorem pieces_ne_nil (c : Char) (s : List Char) : pieces c s ≠ [] := by
  cases s with
  | nil => simp [pieces]
  | cons x s =>
    unfold pieces
    split
    · simp
    · split <;> simp

/-- The text before the first `c` and the text after it. -/
def cut? (c : Char) : List Char → Option (List Char × List Char)
  | [] => none
  | x :: s => if x = c then some ([], s) else (cut? c s).map fun (a, b) => (x :: a, b)

/-- What follows `c` at the front of `s`. -/
def after? (c : Char) : List Char → Option (List Char)
  | [] => none
  | x :: s => if x = c then some s else none

def afterPrefix? : (p s : List Char) → Option (List Char)
  | [], s => some s
  | _ :: _, [] => none
  | a :: p, b :: s => if a = b then afterPrefix? p s else none

theorem afterPrefix?_eq_some_iff {p s r : List Char} : afterPrefix? p s = some r ↔ s = p ++ r := by
  induction p generalizing s with
  | nil => simp [afterPrefix?, eq_comm]
  | cons a p ih =>
    cases s with
    | nil => simp [afterPrefix?]
    | cons b s =>
      by_cases h : a = b
      · subst h; simp [afterPrefix?, ih]
      · simp [afterPrefix?, h, Ne.symm h]

/-- `s` without the characters in `p` at its end. -/
def trimEnd (p : Char → Bool) (s : List Char) : List Char :=
  (s.reverse.dropWhile p).reverse

def trim (p : Char → Bool) (s : List Char) : List Char :=
  trimEnd p (s.dropWhile p)

def lower (s : List Char) : List Char := s.map Char.toLower

def upper (s : List Char) : List Char := s.map Char.toUpper

def isLetter (c : Char) : Bool := c.isAlpha

/-- How many bytes the characters of `s` take in UTF-8. -/
def byteLength : List Char → Nat
  | [] => 0
  | c :: s => c.utf8Size + byteLength s

def hexValue? (c : Char) : Option Nat :=
  if '0' ≤ c ∧ c ≤ '9' then some (c.toNat - 48)
  else if 'a' ≤ c ∧ c ≤ 'f' then some (c.toNat - 87)
  else if 'A' ≤ c ∧ c ≤ 'F' then some (c.toNat - 55)
  else none

/-- The value of a digit below `base`, for a base up to sixteen. -/
def digitValue? (base : Nat) (c : Char) : Option Nat :=
  (hexValue? c).filter (· < base)

def digitsValue (base : Nat) (digits : List Nat) : Nat :=
  digits.foldl (fun n d => n * base + d) 0

/-- The number written by `s` in digits below `base`; nothing when `s` is empty or has another
character. -/
def number? (base : Nat) (s : List Char) : Option Nat :=
  if s.isEmpty then none else (s.mapM (digitValue? base)).map (digitsValue base)

def decimal (n : Nat) : List Char := Nat.toDigits 10 n

/-- The decimal text of a number that may be negative. -/
def signedDecimal (n : Int) : List Char :=
  if n < 0 then '-' :: decimal n.natAbs else decimal n.natAbs

def hexDigit (n : Nat) : Char := Nat.digitChar n

def hexText (n : Nat) : List Char := Nat.toDigits 16 n

/-- `s` padded with zeros at the front to at least `width` characters. -/
def padZero (width : Nat) (s : List Char) : List Char :=
  List.replicate (width - s.length) '0' ++ s

end Gatehouse.Text
