import Gatehouse.Url.Punycode

/-!
# Names in ASCII

The name of a host is written in ASCII before it is used. A name that is ASCII already is put in
lower case. For any other name, and for one with a label that stands for such (`xn--`), there are
tables of the characters that are mapped to others, of those that are refused and of those that may
stand side by side. The tables are no part of this library: they come as a parameter, and nothing is
assumed of what they make of a name. Whatever it is, it is looked at again before it becomes a host.

* `Idna` : what becomes of names beyond ASCII;
* `Idna.unmapped` : the rules without any tables, for programs that bring none;
* `domainToAscii?` : a name in ASCII.
-/

namespace Gatehouse

open Gatehouse.Text

/-- The rules for names beyond ASCII. -/
class Idna where
  /-- The name in ASCII, unless it is refused. -/
  toAscii? : List Char → Option (List Char)

/-- No character is mapped but `A` to `Z`, and none is refused. The programs run with these rules,
and so do fixed inputs; what is proved of names holds with any. -/
instance Idna.unmapped : Idna := ⟨fun s => some (Url.Punycode.encode (lower s))⟩

namespace Url

/-- A name is beyond ASCII, or one of its labels stands for such a one. -/
def isInternational (s : List Char) : Bool :=
  s.any (0x80 ≤ ·.toNat) ||
    (pieces '.' s).any fun l => (afterPrefix? "xn--".toList (lower l)).isSome

def domainToAscii? [Idna] (s : List Char) : Option (List Char) :=
  if isInternational s then Idna.toAscii? s else some (lower s)

end Url

end Gatehouse
