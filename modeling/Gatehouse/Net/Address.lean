import Gatehouse.Text.Chars

/-!
# Internet addresses

* `Ip.text` : the canonical text of an address;
* `zeroRun` : the first longest run of zero pieces, which the text of an IPv6 address leaves out;
* `Endpoint.parse?` : an address with a port, `1.2.3.4:80` or `[::1]:80`, read strictly: decimal
  numbers of an IPv4 address have no leading zero and no other notation is accepted.
-/

namespace Gatehouse.Net

open Gatehouse.Text

/-- The address of a host: four bytes, or eight pieces of sixteen bits. -/
inductive Ip where
  | v4 (a b c d : Nat)
  | v6 (pieces : List Nat)
  deriving DecidableEq, Repr, Inhabited

structure Endpoint where
  ip : Ip
  port : Nat
  deriving DecidableEq, Repr, Inhabited

/-! ## Written form -/

def joined (separator : List Char) : List (List Char) → List Char
  | [] => []
  | [s] => s
  | s :: rest => s ++ separator ++ joined separator rest

def dotted (a b c d : Nat) : List Char := joined ['.'] ([a, b, c, d].map decimal)

def zerosInFront : List Nat → Nat
  | 0 :: rest => zerosInFront rest + 1
  | _ => 0

/-- The start and length of the first longest run of zeros. -/
def zeroRun : List Nat → Nat × Nat
  | [] => (0, 0)
  | p :: rest =>
    let here := zerosInFront (p :: rest)
    let (start, length) := zeroRun rest
    if length ≤ here then (0, here) else (start + 1, length)

/-- Hexadecimal pieces with colons between them; the first longest run of at least two zero pieces
is left out. -/
def piecesText (pieces : List Nat) : List Char :=
  let (start, length) := zeroRun pieces
  let part (ps : List Nat) : List Char := joined [':'] (ps.map hexText)
  if 2 ≤ length then
    part (pieces.take start) ++ [':', ':'] ++ part (pieces.drop (start + length))
  else part pieces

/-- The text of an address. An IPv6 address that carries an IPv4 address shows it in dots. -/
def Ip.text : Ip → List Char
  | .v4 a b c d => dotted a b c d
  | .v6 [0, 0, 0, 0, 0, 0xffff, x, y] =>
    [':', ':', 'f', 'f', 'f', 'f', ':'] ++ dotted (x / 256) (x % 256) (y / 256) (y % 256)
  | .v6 pieces => piecesText pieces

/-! ## Reading -/

/-- A number in front of `s` with at most `width` digits, no greater than `limit`. -/
def boundedNumber? (base width limit : Nat) (leadingZero : Bool) (s : List Char) :
    Option (Nat × List Char) := do
  let (ds, rest) := s.span fun c => (digitValue? base c).isSome
  let n ← number? base ds
  if ds.length ≤ width ∧ n ≤ limit ∧ (leadingZero ∨ ds.length = 1 ∨ ds.head? ≠ some '0') then
    some (n, rest)
  else none

def octet? : List Char → Option (Nat × List Char) := boundedNumber? 10 3 255 false

def readV4? (s : List Char) : Option ((Nat × Nat × Nat × Nat) × List Char) := do
  let (a, s) ← octet? s
  let (b, s) ← (after? '.' s).bind octet?
  let (c, s) ← (after? '.' s).bind octet?
  let (d, s) ← (after? '.' s).bind octet?
  return ((a, b, c, d), s)

/-- Up to `n` pieces of an IPv6 address in front of `s`, colons between them; the last two may be
written as an IPv4 address. The flag says whether they were. -/
def readPieces (first : Bool) : Nat → List Char → List Nat × Bool × List Char
  | 0, s => ([], false, s)
  | n + 1, s =>
    let start := if first then some s else after? ':' s
    match if 1 ≤ n then start.bind readV4? else none with
    | some ((a, b, c, d), rest) => ([a * 256 + b, c * 256 + d], true, rest)
    | none =>
      match start.bind (boundedNumber? 16 4 0xffff true) with
      | some (p, rest) =>
        let (ps, dotted, rest) := readPieces false n rest
        (p :: ps, dotted, rest)
      | none => ([], false, s)

def readV6? (s : List Char) : Option (List Nat × List Char) :=
  let (head, dotted, rest) := readPieces true 8 s
  if head.length = 8 then some (head, rest)
  else if dotted then none
  else do
    let rest ← (after? ':' rest).bind (after? ':')
    let (tail, _, rest) := readPieces true (7 - head.length) rest
    return (head ++ List.replicate (8 - head.length - tail.length) 0 ++ tail, rest)

/-- A port after its colon, up to the end of the text. -/
def readPort? (s : List Char) : Option Nat := do
  let (n, rest) ← (after? ':' s).bind (boundedNumber? 10 s.length 65535 true)
  if rest.isEmpty then some n else none

/-- A zone after a percent sign, if there is one. -/
def skipZone (s : List Char) : List Char :=
  match (after? '%' s).bind (boundedNumber? 10 s.length (UInt32.size - 1) true) with
  | some (_, rest) => rest
  | none => s

namespace Endpoint

def parseV4? (s : List Char) : Option Endpoint := do
  let ((a, b, c, d), rest) ← readV4? s
  let port ← readPort? rest
  return ⟨.v4 a b c d, port⟩

/-- An IPv6 address in brackets and a port. -/
def parseV6? (s : List Char) : Option Endpoint := do
  let (pieces, rest) ← (after? '[' s).bind readV6?
  let rest ← after? ']' (skipZone rest)
  let port ← readPort? rest
  return ⟨.v6 pieces, port⟩

def parse? (s : List Char) : Option Endpoint := (parseV4? s).or (parseV6? s)

end Endpoint

end Gatehouse.Net
