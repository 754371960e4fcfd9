import Gatehouse.Document.Tree
import Gatehouse.Toml.Lexical

/-!
# Numbers, dates and other plain values of TOML

* `integer?` : a whole number of sixty-four bits, in decimal or after `0x`, `0o`, `0b`;
* `real?` : a number with a fraction or an exponent, infinity, or not-a-number;
* `moment?` : a date, a time of day, or both, with a zone;
* `plain?` : any value that holds no other value.
-/

namespace Gatehouse.Toml

open Gatehouse.Document Gatehouse.Number Gatehouse.Text

/-! ## Runs of digits -/

/-- The digits in front of `s`, an underscore being allowed between two of them, and the rest. -/
def moreDigits (isDigit : Char → Bool) : List Char → List Char × List Char
  | [] => ([], [])
  | [c] => if isDigit c then ([c], []) else ([], [c])
  | c :: d :: s =>
    if isDigit c then
      let (ds, rest) := moreDigits isDigit (d :: s)
      (c :: ds, rest)
    else if c = '_' ∧ isDigit d then
      let (ds, rest) := moreDigits isDigit s
      (d :: ds, rest)
    else ([], c :: d :: s)

/-- The digits in front of `s`, at least one of them and no underscore first. -/
def digitRun? (isDigit : Char → Bool) (s : List Char) : Option (List Char × List Char) :=
  match s with
  | c :: _ => if isDigit c then some (moreDigits isDigit s) else none
  | [] => none

/-- A sign in front of `s`: whether it is a minus. -/
def sign : List Char → Bool × List Char
  | '-' :: s => (true, s)
  | '+' :: s => (false, s)
  | s => (false, s)

/-- The digits of a decimal number without a zero in front, unless it is the only digit. -/
def wholeDigits? : List Char → Option (List Char × List Char)
  | '0' :: s => some (['0'], s)
  | s => digitRun? Char.isDigit s

/-! ## Numbers -/

def fits (n : Int) : Bool := -0x8000000000000000 ≤ n && n < 0x8000000000000000

/-- A whole number in front of `s` in the given base. -/
def basedInteger? (base : Nat) (s : List Char) : Option (Tree × List Char) := do
  let (ds, rest) ← digitRun? (fun c => (digitValue? base c).isSome) s
  let n ← number? base ds
  if fits n then some (.int n, rest) else none

def integer? (s : List Char) : Option (Tree × List Char) :=
  match s with
  | '0' :: 'x' :: s => basedInteger? 16 s
  | '0' :: 'o' :: s => basedInteger? 8 s
  | '0' :: 'b' :: s => basedInteger? 2 s
  | s => do
    let (negative, s) := sign s
    let (ds, rest) ← wholeDigits? s
    let n ← number? 10 ds
    let n : Int := if negative then -(n : Int) else n
    if fits n then some (.int n, rest) else none

/-- A fraction after its point in front of `s`, if there is one. -/
def fraction? (s : List Char) : Option (List Char × List Char) :=
  match s with
  | '.' :: s => digitRun? Char.isDigit s
  | _ => none

/-- An exponent in front of `s`, if there is one: its sign and its digits. -/
def exponent? (s : List Char) : Option (Int × List Char) :=
  match s with
  | c :: s =>
    if c = 'e' ∨ c = 'E' then do
      let (negative, s) := sign s
      let (ds, rest) ← digitRun? Char.isDigit s
      let n ← number? 10 ds
      return (if negative then -(n : Int) else n, rest)
    else none
  | [] => none

/-- The number with these digits. A positive one has to be finite. -/
def realOf? (negative : Bool) (whole fraction : List Char) (exponent : Int) : Option Tree := do
  let m ← number? 10 (whole ++ fraction)
  let x := Binary64.ofDecimal negative m (exponent - fraction.length)
  if x = .infinity false then none else some (.real x)

/-- Infinity or not-a-number in front of `s`. -/
def special? (negative : Bool) : List Char → Option (Tree × List Char)
  | 'i' :: 'n' :: 'f' :: s => some (.real (.infinity negative), s)
  | 'n' :: 'a' :: 'n' :: s => some (.real (.notANumber negative), s)
  | _ => none

/-- A number with a fraction or an exponent, or a special one, in front of `s`. -/
def real? (s : List Char) : Option (Tree × List Char) :=
  let (negative, s) := sign s
  match wholeDigits? s with
  | none => special? negative s
  | some (whole, rest) =>
    match fraction? rest, exponent? rest with
    | some (fraction, rest), _ =>
      let (exponent, rest) := (exponent? rest).getD (0, rest)
      (realOf? negative whole fraction exponent).map fun t => (t, rest)
    | none, some (exponent, rest) => (realOf? negative whole [] exponent).map fun t => (t, rest)
    | none, none => none

/-! ## Dates and times -/

/-- A number of exactly `width` digits in front of `s`, between `low` and `high`. -/
def fixed? (width low high : Nat) (s : List Char) : Option (Nat × List Char) := do
  let ds := s.take width
  if ds.length = width ∧ ds.all Char.isDigit then
    let n ← number? 10 ds
    if low ≤ n ∧ n ≤ high then some (n, s.drop width) else none
  else none

def isLeap (year : Nat) : Bool := year % 4 = 0 && (year % 100 ≠ 0 || year % 400 = 0)

def daysOf (year month : Nat) : Nat :=
  if month = 2 then if isLeap year then 29 else 28
  else if [4, 6, 9, 11].contains month then 30
  else 31

/-- What follows the date in front of `s`. -/
def date? (s : List Char) : Option (List Char) := do
  let (year, s) ← fixed? 4 0 9999 s
  let (month, s) ← (after? '-' s).bind (fixed? 2 1 12)
  let (_, s) ← (after? '-' s).bind (fixed? 2 1 (daysOf year month))
  return s

def skipFraction (s : List Char) : List Char :=
  match s with
  | '.' :: c :: rest => if c.isDigit then rest.dropWhile Char.isDigit else s
  | _ => s

def time? (s : List Char) : Option (List Char) := do
  let (_, s) ← fixed? 2 0 23 s
  let (_, s) ← (after? ':' s).bind (fixed? 2 0 59)
  let (_, s) ← (after? ':' s).bind (fixed? 2 0 60)
  return skipFraction s

def zone? : List Char → Option (List Char)
  | [] => none
  | c :: s =>
    if c = 'Z' ∨ c = 'z' then some s
    else if c = '+' ∨ c = '-' then do
      let (_, s) ← fixed? 2 0 23 s
      let (_, s) ← (after? ':' s).bind (fixed? 2 0 59)
      return s
    else none

/-- What follows the time of day after a date, with the letter or the blank in between. -/
def timeAfterDate? : List Char → Option (List Char)
  | [] => none
  | c :: s =>
    if c = 'T' ∨ c = 't' ∨ c = ' ' then (time? s).map fun rest => (zone? rest).getD rest else none

/-- A date, a time of day, or both, in front of `s`. -/
def moment? (s : List Char) : Option (Tree × List Char) :=
  match date? s with
  | some rest => some (.moment, (timeAfterDate? rest).getD rest)
  | none => (time? s).map fun rest => (.moment, rest)

/-! ## Any plain value -/

/-- A value that holds no other value, in front of `s`. -/
def plain? (s : List Char) : Option (Tree × List Char) :=
  match s with
  | 't' :: 'r' :: 'u' :: 'e' :: s => some (.bool true, s)
  | 'f' :: 'a' :: 'l' :: 's' :: 'e' :: s => some (.bool false, s)
  | '"' :: _ => (string? s).map fun (t, rest) => (.text (.ofList t), rest)
  | '\x27' :: _ => (string? s).map fun (t, rest) => (.text (.ofList t), rest)
  | s => (moment? s).or ((real? s).or (integer? s))

end Gatehouse.Toml
