import Gatehouse.Http.Token
import Gatehouse.Text.Bytes

/-!
# Headers

A message carries a list of headers, each a name in lower case and a value. A name may come more
than once; the order of the values of one name counts, the order of different names does not.

* `Headers.values` : the values of a name, in order;
* `Headers.insert` : one value in place of all that a name had;
* `Headers.erase` : all values of a name removed;
* `isHeaderValue`, `visibleText?` : what may be a value, and what of it is plain text.
-/

namespace Gatehouse.Http

open Gatehouse.Text

structure Header where
  name : List Char
  value : Bytes
  deriving DecidableEq, Repr, Inhabited

abbrev Headers := List Header

namespace Headers

def values (name : List Char) (headers : Headers) : List Bytes :=
  (headers.filter fun h => h.name = name).map (·.value)

def first? (name : List Char) (headers : Headers) : Option Bytes := (values name headers).head?

def erase (name : List Char) (headers : Headers) : Headers := headers.filter fun h => h.name ≠ name

/-- `headers` with `value` as the only value of `name`. -/
def insert (name : List Char) (value : Bytes) (headers : Headers) : Headers :=
  erase name headers ++ [⟨name, value⟩]

@[simp] theorem values_erase (n m : List Char) (hs : Headers) :
    values n (erase m hs) = if n = m then [] else values n hs := by
  induction hs with
  | nil => simp [values, erase]
  | cons h hs ih =>
    simp only [values, erase] at ih
    by_cases hm : h.name = m <;> by_cases hn : h.name = n <;> by_cases hnm : n = m <;>
      simp_all [values, erase]

@[simp] theorem values_insert (n m : List Char) (v : Bytes) (hs : Headers) :
    values n (insert m v hs) = if n = m then [v] else values n hs := by
  have h : values n (insert m v hs) = values n (erase m hs) ++ values n [⟨m, v⟩] := by
    simp [values, insert]
  rw [h, values_erase]
  by_cases hnm : n = m
  · subst hnm; simp [values]
  · have : m ≠ n := fun h => hnm h.symm
    simp [values, hnm, this]

end Headers

/-! ## Values -/

def isValueByte (b : UInt8) : Bool := (32 ≤ b && b ≠ 127) || b = 9

def isHeaderValue (bs : Bytes) : Bool := bs.all isValueByte

/-- A byte that is visible ASCII, a space or a tab. -/
def isVisibleByte (b : UInt8) : Bool := (32 ≤ b && b < 127) || b = 9

/-- The text of a value that has only visible ASCII. -/
def visibleText? (bs : Bytes) : Option (List Char) :=
  if bs.all isVisibleByte then some (bs.map fun b => Char.ofNat b.toNat) else none

end Gatehouse.Http
