import Gatehouse.Text.Chars

/-!
# Names beyond ASCII

A label of a host that has characters beyond ASCII is written with ASCII characters alone: `xn--`,
the ASCII characters of the label, a hyphen, and the places and code points of the others as a
number of variable base.

Only the writing is done here. Which characters are mapped to others first, and which are refused,
is not decided by it.
-/

namespace Gatehouse.Url.Punycode

open Gatehouse.Text

/-- The digit of a value below thirty-six: a letter, then a numeral. -/
def digit (n : Nat) : Char := .ofNat (if n < 26 then 97 + n else 22 + n)

/-- How often `delta` exceeds what one digit holds, as the base of the last step. -/
def biasOf (steps : Nat) : Nat → Nat → Nat
  | 0, _ => steps
  | fuel + 1, delta =>
    if 455 < delta then biasOf (steps + 36) fuel (delta / 35) else steps + 36 * delta / (delta + 38)

/-- The bias for the next number, after one of size `delta` when `count` characters are placed. -/
def adapt (delta count : Nat) (first : Bool) : Nat :=
  let delta := if first then delta / 700 else delta / 2
  biasOf 0 8 (delta + delta / count)

/-- A number in digits of variable base, the least one first. -/
def numeral (bias : Nat) : Nat → Nat → Nat → List Char
  | 0, _, _ => []
  | fuel + 1, k, q =>
    let t := if k ≤ bias then 1 else if bias + 26 ≤ k then 26 else k - bias
    if q < t then [digit q]
    else digit (t + (q - t) % (36 - t)) :: numeral bias fuel (k + 36) ((q - t) / (36 - t))

/-- What is known between two characters: the distance walked since the last one was placed, the
bias, how many are placed, and what has been written. -/
structure Progress where
  delta : Nat
  bias : Nat
  placed : Nat
  written : List Char

/-- The walk over the label `s` that places every `n` in it. -/
def place (ascii n : Nat) (p : Progress) (s : List Char) : Progress :=
  s.foldl (fun p c =>
    if c.toNat < n then { p with delta := p.delta + 1 }
    else if c.toNat = n then
      { delta := 0
        bias := adapt p.delta (p.placed + 1) (p.placed = ascii)
        placed := p.placed + 1
        written := p.written ++ numeral p.bias 40 36 p.delta }
    else p) p

/-- The least of the code points from `n` on. -/
def least? (n : Nat) (s : List Char) : Option Nat :=
  ((s.map Char.toNat).filter (n ≤ ·)).min?

/-- All characters from `n` on are placed. -/
def placeFrom (ascii : Nat) (s : List Char) : Nat → Nat → Progress → Progress
  | 0, _, p => p
  | fuel + 1, n, p =>
    match least? n s with
    | none => p
    | some m =>
      let p := place ascii m { p with delta := p.delta + (m - n) * (p.placed + 1) } s
      placeFrom ascii s fuel (m + 1) { p with delta := p.delta + 1 }

def encodeLabel (s : List Char) : List Char :=
  let ascii := s.filter fun c => c.toNat < 0x80
  if ascii.length = s.length then s
  else
    let front := if ascii.isEmpty then [] else ascii ++ ['-']
    let start : Progress := ⟨0, 72, ascii.length, []⟩
    "xn--".toList ++ front ++ (placeFrom ascii.length s s.length 128 start).written

/-- A name in ASCII characters, label by label. -/
def encode (s : List Char) : List Char :=
  match (pieces '.' s).map encodeLabel with
  | [] => []
  | l :: ls => l ++ ls.flatMap ('.' :: ·)

end Gatehouse.Url.Punycode
