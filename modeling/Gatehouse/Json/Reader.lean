import Gatehouse.Document.Tree

/-!
# Reading JSON

`Json.read?` reads one JSON text into a document tree.

* An integer that fits sixty-four bits, signed or unsigned, is kept exactly. Every other number is
  read as a binary64 number: its first nineteen or twenty digits are rounded to binary64 and then
  scaled by a power of ten, each step rounding to nearest.
* Members of an object come out in increasing order of their keys; of a repeated key the last value
  counts.
* At most `maxDepth` arrays and objects may be nested.
-/

namespace Gatehouse.Json

open Gatehouse.Document Gatehouse.Number Gatehouse.Text

def isBlank (c : Char) : Bool := c = ' ' ∨ c = '\t' ∨ c = '\n' ∨ c = '\r'

def skipBlank (s : List Char) : List Char := s.dropWhile isBlank

/-! ## Numbers -/

/-- The greatest significand that is collected exactly. -/
def maxSignificand : Nat := UInt64.size - 1

/-- The significand of a run of digits, and how many digits at its end did not fit. -/
def significand : Nat → List Nat → Nat × Nat
  | n, [] => (n, 0)
  | n, d :: ds =>
    if n * 10 + d ≤ maxSignificand then significand (n * 10 + d) ds else (n, ds.length + 1)

/-- `f * 10 ^ e`, in steps that each round. Nothing when the product is too large. -/
def scale? (f : Float) (e : Int) : Nat → Option Float
  | 0 => some f
  | fuel + 1 =>
    let pow (n : Nat) : Float := (Binary64.ofDecimal false 1 n).toFloat
    if 0 ≤ e then
      if e ≤ 308 then
        let g := f * pow e.natAbs
        if g.isInf then none else some g
      else if f == 0 then some f
      else none
    else if -308 ≤ e then some (f / pow e.natAbs)
    else if f == 0 then some f
    else scale? (f / pow 308) (e + 308) fuel

/-- The number with these sign, integer digits, fraction digits and exponent. -/
def numberOf? (negative : Bool) (whole fraction : List Nat) (exponent : Option Int) : Option Tree :=
  let (n, lost) := significand 0 whole
  if fraction.isEmpty ∧ exponent.isNone ∧ lost = 0 ∧ (!negative ∨ (0 < n ∧ n ≤ 0x8000000000000000)) then
    some (.int (if negative then -(n : Int) else n))
  else
    let (n, lostFraction) := significand n fraction
    let shift : Int := (lost : Int) + lostFraction - fraction.length
    let f := n.toUInt64.toFloat
    (scale? f (exponent.getD 0 + shift) (2 + exponent.elim 0 Int.natAbs / 308)).map fun g =>
      .real ⟨(if negative then -g else g).toBits⟩

/-- The digits in front of `s`, by their values, and the rest. -/
def digits (s : List Char) : List Nat × List Char :=
  let (ds, rest) := s.span Char.isDigit
  (ds.map fun c => c.toNat - 48, rest)

/-- The exponent in front of `s`, if there is one; nothing when it lacks digits. -/
def exponent? (s : List Char) : Option (Option Int × List Char) :=
  match s with
  | c :: r =>
    if c = 'e' ∨ c = 'E' then
      let (negative, r) :=
        match r with
        | '-' :: r => (true, r)
        | '+' :: r => (false, r)
        | r => (false, r)
      match digits r with
      | ([], _) => none
      | (ds, rest) =>
        let n : Int := digitsValue 10 ds
        some (some (if negative then -n else n), rest)
    else some (none, s)
  | [] => some (none, s)

def number? (s : List Char) : Option (Tree × List Char) :=
  let (negative, s) :=
    match s with
    | '-' :: r => (true, r)
    | r => (false, r)
  match digits s with
  | ([], _) => none
  | (whole, rest) =>
    if whole.length ≠ 1 ∧ whole.head? = some 0 then none
    else do
      let (fraction, rest) ←
        match rest with
        | '.' :: r =>
          match digits r with
          | ([], _) => none
          | (ds, rest) => some (ds, rest)
        | r => some ([], r)
      let (exponent, rest) ← exponent? rest
      let tree ← numberOf? negative whole fraction exponent
      return (tree, rest)

/-! ## Strings -/

def unit? (a b c d : Char) : Option Nat := Text.number? 16 [a, b, c, d]

def shortEscape? : Char → Option Char
  | '"' => some '"'
  | '\\' => some '\\'
  | '/' => some '/'
  | 'b' => some '\x08'
  | 'f' => some '\x0c'
  | 'n' => some '\n'
  | 'r' => some '\r'
  | 't' => some '\t'
  | _ => none

/-- The rest of a string whose opening quote has been read, with the text read so far in reverse.
A UTF-16 surrogate is only allowed as half of a pair. -/
def stringRest (acc : List Char) : List Char → Option (String × List Char)
  | '"' :: s => some (.ofList acc.reverse, s)
  | '\\' :: 'u' :: a :: b :: c :: d :: '\\' :: 'u' :: e :: f :: g :: h :: s =>
    match unit? a b c d, unit? e f g h with
    | some hi, low =>
      if 0xd800 ≤ hi ∧ hi < 0xdc00 then
        match low with
        | some lo =>
          if 0xdc00 ≤ lo ∧ lo < 0xe000 then
            stringRest (.ofNat (0x10000 + (hi - 0xd800) * 0x400 + (lo - 0xdc00)) :: acc) s
          else none
        | none => none
      else if 0xdc00 ≤ hi ∧ hi < 0xe000 then none
      else stringRest (.ofNat hi :: acc) ('\\' :: 'u' :: e :: f :: g :: h :: s)
    | none, _ => none
  | '\\' :: 'u' :: a :: b :: c :: d :: s =>
    match unit? a b c d with
    | some n => if 0xd800 ≤ n ∧ n < 0xe000 then none else stringRest (.ofNat n :: acc) s
    | none => none
  | '\\' :: c :: s =>
    match shortEscape? c with
    | some c => stringRest (c :: acc) s
    | none => none
  | c :: s => if c.toNat < 0x20 ∨ c = '\\' then none else stringRest (c :: acc) s
  | [] => none

/-! ## Values -/

def maxDepth : Nat := 127

/-- The items of an array after its opening bracket, each read by `item`. -/
def itemsWith (item : List Char → Option (Tree × List Char)) (acc : List Tree) :
    Nat → List Char → Option (List Tree × List Char)
  | 0, _ => none
  | fuel + 1, s =>
    match item (skipBlank s) with
    | none => none
    | some (t, rest) =>
      match skipBlank rest with
      | ',' :: rest => itemsWith item (t :: acc) fuel rest
      | ']' :: rest => some ((t :: acc).reverse, rest)
      | _ => none

/-- The members of an object after its opening brace, each value read by `item`. -/
def membersWith (item : List Char → Option (Tree × List Char)) (acc : List (String × Tree)) :
    Nat → List Char → Option (List (String × Tree) × List Char)
  | 0, _ => none
  | fuel + 1, s =>
    match skipBlank s with
    | '"' :: rest =>
      match stringRest [] rest with
      | none => none
      | some (key, rest) =>
        match skipBlank rest with
        | ':' :: rest =>
          match item (skipBlank rest) with
          | none => none
          | some (t, rest) =>
            match skipBlank rest with
            | ',' :: rest => membersWith item (insertSorted key t acc) fuel rest
            | '}' :: rest => some (insertSorted key t acc, rest)
            | _ => none
        | _ => none
    | _ => none

/-- A value in front of `s` that holds no other value. -/
def scalar? : List Char → Option (Tree × List Char)
  | 'n' :: 'u' :: 'l' :: 'l' :: s => some (.null, s)
  | 't' :: 'r' :: 'u' :: 'e' :: s => some (.bool true, s)
  | 'f' :: 'a' :: 'l' :: 's' :: 'e' :: s => some (.bool false, s)
  | '"' :: s => (stringRest [] s).map fun (t, rest) => (.text t, rest)
  | s => number? s

/-- A value in front of `s`, with at most `depth` more levels of nesting. -/
def value? : Nat → List Char → Option (Tree × List Char)
  | 0, s => scalar? s
  | depth + 1, s =>
    match s with
    | '[' :: rest =>
      match skipBlank rest with
      | ']' :: rest => some (.list [], rest)
      | rest =>
        (itemsWith (value? depth) [] rest.length rest).map fun (ts, rest) => (.list ts, rest)
    | '{' :: rest =>
      match skipBlank rest with
      | '}' :: rest => some (.table [], rest)
      | rest =>
        (membersWith (value? depth) [] rest.length rest).map fun (es, rest) => (.table es, rest)
    | s => scalar? s

def read? (s : List Char) : Option Tree :=
  match value? maxDepth (skipBlank s) with
  | some (t, rest) => if (skipBlank rest).isEmpty then some t else none
  | none => none

end Gatehouse.Json
