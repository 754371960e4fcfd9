import Gatehouse.Text.Chars

/-!
# Text as bytes

Bodies and header values are bytes, of which text is the UTF-8 encoding.

* `bytesOf s` : the UTF-8 encoding of `s`;
* `textOf? bs` : the text that `bs` encodes, if `bs` is well-formed UTF-8;
* `hexOfBytes`, `bytesOfHex?` : bytes written as pairs of hexadecimal digits.
-/

namespace Gatehouse.Text

abbrev Bytes := List UInt8

def bytesOf (s : String) : Bytes := s.toList.flatMap String.utf8EncodeChar

/-- The text whose UTF-8 encoding is `bs`. -/
def textOf? (bs : Bytes) : Option String := String.fromUTF8? ⟨bs.toArray⟩

def hexOfBytes (bs : Bytes) : List Char :=
  bs.flatMap fun b => [Nat.digitChar (b.toNat / 16), Nat.digitChar (b.toNat % 16)]

/-- The bytes that pairs of hexadecimal digits denote. -/
def bytesOfHex? : List Char → Option Bytes
  | [] => some []
  | a :: b :: s => do return .ofNat (16 * (← hexValue? a) + (← hexValue? b)) :: (← bytesOfHex? s)
  | [_] => none

end Gatehouse.Text
