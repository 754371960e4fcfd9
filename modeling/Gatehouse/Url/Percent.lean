import Gatehouse.Text.Bytes
import Gatehouse.Text.Chars

/-!
# Percent encoding

A character outside a part's own set stands in a URL as the bytes of its UTF-8 encoding, each
written as a percent sign and two upper-case hexadecimal digits.
-/

namespace Gatehouse.Url

open Gatehouse.Text

/-- Control characters and everything beyond ASCII. -/
def inControlSet (c : Char) : Bool := c.toNat < 0x20 ∨ 0x7e < c.toNat

def inFragmentSet (c : Char) : Bool :=
  inControlSet c || c = ' ' || c = '"' || c = '<' || c = '>' || c.toNat = 0x60

def inPathSet (c : Char) : Bool := inFragmentSet c || c = '#' || c = '?' || c = '{' || c = '}'

def inUserinfoSet (c : Char) : Bool :=
  inPathSet c || ['/', ':', ';', '=', '@', '[', '\\', ']', '^', '|'].contains c

def inQuerySet (c : Char) : Bool :=
  inControlSet c || c = ' ' || c = '"' || c = '#' || c = '<' || c = '>'

def inSpecialQuerySet (c : Char) : Bool := inQuerySet c || c.toNat = 0x27

def percentByte (b : UInt8) : List Char :=
  ['%', (hexDigit (b.toNat / 16)).toUpper, (hexDigit (b.toNat % 16)).toUpper]

/-- `s` with the characters in `set` encoded. -/
def percentEncode (set : Char → Bool) (s : List Char) : List Char :=
  s.flatMap fun c => if set c then (String.utf8EncodeChar c).flatMap percentByte else [c]

/-- The bytes that `s` denotes: a percent sign with two hexadecimal digits is one byte, every other
character its encoding. -/
def percentDecode : List Char → Bytes
  | '%' :: a :: b :: s =>
    match hexValue? a, hexValue? b with
    | some x, some y => .ofNat (16 * x + y) :: percentDecode s
    | _, _ => String.utf8EncodeChar '%' ++ percentDecode (a :: b :: s)
  | c :: s => String.utf8EncodeChar c ++ percentDecode s
  | [] => []

end Gatehouse.Url
