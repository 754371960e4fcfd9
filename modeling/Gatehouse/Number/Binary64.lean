import Gatehouse.Text.Chars

/-!
# Binary64 numbers

A binary64 number is kept by its bits, so that two of them are compared exactly.

* `Binary64.ofRatio` : the nearest binary64 number to a fraction, ties to the even neighbour;
* `Binary64.ofDecimal` : the same for a decimal `m * 10 ^ e`;
* `Binary64.ofText?` : a decimal text, `inf` and `nan` included;
* `Binary64.magnitude?`, `Binary64.toRat` : a finite number as `m * 2 ^ k`, and its exact value;
* `Binary64.shortest` : the fewest decimal digits that read back as the same number;
* `Binary64.positional`, `Binary64.compact` : its two written forms.
-/

namespace Gatehouse.Number

open Gatehouse.Text

/-- A binary64 number, by its sign bit, eleven exponent bits and fifty-two fraction bits. -/
structure Binary64 where
  bits : UInt64
  deriving DecidableEq, Repr, Inhabited

namespace Binary64

/-- The lowest of the exponent bits, fifty-two places up. It is also the leading bit of a normal
significand, which is not written. -/
def leadingBit : Nat := 0x10000000000000

/-- The sign bit of a negative number, sixty-three places up. -/
def signBit : Nat := 0x8000000000000000

/-- The bits of positive infinity, which are above those of every finite number. -/
def infinityBits : Nat := 0x7ff * leadingBit

def signBits (negative : Bool) : Nat := if negative then signBit else 0

def infinity (negative : Bool) : Binary64 := ⟨.ofNat (signBits negative + infinityBits)⟩

def notANumber (negative : Bool) : Binary64 :=
  ⟨.ofNat (signBits negative + infinityBits + leadingBit / 2)⟩

def zero (negative : Bool) : Binary64 := ⟨.ofNat (signBits negative)⟩

def unsignedBits (x : Binary64) : Nat := x.bits.toNat % signBit

def isNegative (x : Binary64) : Bool := signBit ≤ x.bits.toNat

def isNaN (x : Binary64) : Bool := infinityBits < x.unsignedBits

def isFinite (x : Binary64) : Bool := x.unsignedBits < infinityBits

def isPositive (x : Binary64) : Bool := !x.isNaN && !x.isNegative && x.unsignedBits != 0

/-- The magnitude of a finite number as `m * 2 ^ k`. -/
def magnitude? (x : Binary64) : Option (Nat × Int) :=
  if x.isFinite then
    let e : Nat := x.unsignedBits / leadingBit
    let f : Nat := x.unsignedBits % leadingBit
    some (if e = 0 then (f, -1074) else (f + leadingBit, (e : Int) - 1075))
  else none

/-- The exact value of a finite number; zero for the others. -/
def toRat (x : Binary64) : Rat :=
  match x.magnitude? with
  | some (m, k) => (if x.isNegative then -(m : Rat) else m) * (2 : Rat) ^ k
  | none => 0

def toFloat (x : Binary64) : Float := .ofBits x.bits

/-- The nearest integer to `n / d`, a half going to the even neighbour. -/
def roundHalfEven (n d : Nat) : Nat :=
  let q := n / d
  let r := n % d
  if 2 * r < d then q else if d < 2 * r then q + 1 else q + q % 2

/-- `n / d` divided by `2 ^ k`, again as a fraction. -/
def descale (n d : Nat) (k : Int) : Nat × Nat :=
  if k < 0 then (n <<< k.natAbs, d) else (n, d <<< k.natAbs)

/-- The exponent `k` for which `n / d` is between `2 ^ 52` and `2 ^ 53` times `2 ^ k`, but no less
than the least exponent of the format. -/
def exponentOf (n d : Nat) : Int :=
  let k : Int := (n.log2 : Int) - d.log2 - 52
  let (a, b) := descale n d k
  max (if a / b < leadingBit then k - 1 else k) (-1074)

/-- The nearest binary64 number to `n / d`, ties going to the even neighbour. -/
def ofRatio (negative : Bool) (n d : Nat) : Binary64 :=
  if n = 0 then zero negative
  else
    let k := exponentOf n d
    let (a, b) := descale n d k
    let bits := (k + 1074).toNat * leadingBit + roundHalfEven a b
    ⟨.ofNat (signBits negative + min bits infinityBits)⟩

/-- The nearest binary64 number to `m * 10 ^ e`. -/
def ofDecimal (negative : Bool) (m : Nat) (e : Int) : Binary64 :=
  if m = 0 then zero negative
  else if 0 ≤ e then
    if 400 < e then infinity negative else ofRatio negative (m * Nat.pow 10 e.natAbs) 1
  else if (decimal m).length + e < -400 then zero negative
  else ofRatio negative m (Nat.pow 10 e.natAbs)

def ofInt (n : Int) : Binary64 := ofDecimal (n < 0) n.natAbs 0

/-- The digits at the front of `s`, and the rest. -/
def spanDigits (s : List Char) : List Char × List Char := s.span Char.isDigit

/-- An exponent part `e5`, `E-3` or nothing, up to the end of the text. -/
def exponentPart? : List Char → Option Int
  | [] => some 0
  | c :: s =>
    if c = 'e' ∨ c = 'E' then
      match s with
      | '-' :: s => (number? 10 s).map fun n => -(n : Int)
      | '+' :: s => (number? 10 s).map fun n => (n : Int)
      | s => (number? 10 s).map fun n => (n : Int)
    else none

/-- An unsigned decimal text: digits with an optional point among them, at least one digit, and an
optional exponent. -/
def ofUnsigned? (negative : Bool) (s : List Char) : Option Binary64 :=
  let word := lower s
  if word = ['i', 'n', 'f'] ∨ word = ['i', 'n', 'f', 'i', 'n', 'i', 't', 'y'] then
    some (infinity negative)
  else if word = ['n', 'a', 'n'] then some (notANumber negative)
  else
    let (whole, rest) := spanDigits s
    let (fraction, rest) :=
      match rest with
      | '.' :: r => spanDigits r
      | r => ([], r)
    match number? 10 (whole ++ fraction), exponentPart? rest with
    | some m, some e => some (ofDecimal negative m (e - fraction.length))
    | _, _ => none

/-- The number that a decimal text denotes, rounded to nearest. -/
def ofText? : List Char → Option Binary64
  | '-' :: s => ofUnsigned? true s
  | '+' :: s => ofUnsigned? false s
  | s => ofUnsigned? false s

/-! ## Shortest digits -/

/-- Whether `n / d` is at least `10 ^ e`. -/
def atLeastPow (n d : Nat) (e : Int) : Bool :=
  if 0 ≤ e then d * Nat.pow 10 e.natAbs ≤ n else d ≤ n * Nat.pow 10 e.natAbs

/-- The exponent `e` with `10 ^ e ≤ n / d < 10 ^ (e + 1)`. -/
def decimalExponent (n d : Nat) : Int :=
  let e := ((n.log2 : Int) - d.log2) * 30103 / 100000
  if atLeastPow n d (e + 1) then e + 1 else if atLeastPow n d e then e else e - 1

/-- The point of the grid of multiples of `10 ^ p` that is nearest to `v / d`, among the two
neighbours of `v / d` that lie between `lo / d` and `hi / d`. -/
def gridPoint? (lo v hi d : Nat) (closed : Bool) (p : Int) : Option Nat :=
  let s := Nat.pow 10 p.natAbs
  let (lo, v, hi, d) :=
    if 0 ≤ p then (lo, v, hi, d * s) else (lo * s, v * s, hi * s, d)
  let q := v / d
  let below := if closed then lo ≤ q * d else lo < q * d
  let above := if closed then (q + 1) * d ≤ hi else (q + 1) * d < hi
  if below && above then
    some (if 2 * (v % d) < d ∨ (2 * (v % d) = d ∧ q % 2 = 0) then q else q + 1)
  else if below then some q
  else if above then some (q + 1)
  else none

/-- The first of the grids of `n`, `n + 1`, … digits that has a point in the interval. -/
def firstGrid (lo v hi d : Nat) (closed : Bool) (e : Int) : Nat → Int → Nat × Int
  | 0, _ => (0, 0)
  | fuel + 1, n =>
    let p := e - (n - 1)
    match gridPoint? lo v hi d closed p with
    | some q => (q, p)
    | none => firstGrid lo v hi d closed e fuel (n + 1)

/-- `q * 10 ^ p` with the zeros at the end of `q` moved into the exponent. -/
def stripZeros : Nat → Nat → Int → Nat × Int
  | 0, q, p => (q, p)
  | fuel + 1, q, p => if q % 10 = 0 then stripZeros fuel (q / 10) (p + 1) else (q, p)

/-- The decimal `q * 10 ^ p` with the fewest digits that reads back as `m * 2 ^ k`, the nearest such
one when there are two. -/
def shortest (m : Nat) (k : Int) : Nat × Int :=
  if m = 0 then (0, 0)
  else
    let lo := if m = leadingBit ∧ -1074 < k then 4 * m - 1 else 4 * m - 2
    let (unit, d) := descale 1 1 (2 - k)
    let (q, p) := firstGrid (lo * unit) (4 * m * unit) ((4 * m + 2) * unit) d (m % 2 = 0)
      (decimalExponent (4 * m * unit) d) 17 1
    stripZeros 20 q p

/-- The digits `s` with a point before the `n`-th of them, zeros filling the gaps. -/
def placePoint (s : List Char) (n : Int) : List Char :=
  if n ≤ 0 then '0' :: '.' :: List.replicate n.natAbs '0' ++ s
  else if (s.length : Int) ≤ n then s ++ List.replicate (n.natAbs - s.length) '0' ++ ['.', '0']
  else s.take n.natAbs ++ '.' :: s.drop n.natAbs

def special (x : Binary64) : List Char :=
  if x.isNaN then ['N', 'a', 'N']
  else if x.isNegative then ['-', 'i', 'n', 'f']
  else ['i', 'n', 'f']

/-- The shortest digits with a point and no exponent, at least one digit on each side of the
point. -/
def positional (x : Binary64) : List Char :=
  match x.magnitude? with
  | none => x.special
  | some (m, k) =>
    let (q, p) := shortest m k
    let s := decimal q
    (if x.isNegative then ['-'] else []) ++ placePoint s (s.length + p)

/-- The shortest digits, with a point where the number is at least `10 ^ -5` and below `10 ^ 16`,
and with an exponent elsewhere. -/
def compact (x : Binary64) : List Char :=
  match x.magnitude? with
  | none => x.special
  | some (m, k) =>
    let (q, p) := shortest m k
    let s := decimal q
    let n : Int := s.length + p
    (if x.isNegative then ['-'] else []) ++
      if m = 0 then ['0', '.', '0']
      else if -5 < n ∧ n ≤ 16 then placePoint s n
      else
        match s with
        | [c] => c :: 'e' :: signedDecimal (n - 1)
        | c :: r => c :: '.' :: r ++ 'e' :: signedDecimal (n - 1)
        | [] => []

def hexBits (x : Binary64) : List Char := padZero 16 (hexText x.bits.toNat)

end Binary64

end Gatehouse.Number
