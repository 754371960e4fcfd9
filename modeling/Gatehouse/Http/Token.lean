import Gatehouse.Text.Chars

/-!
# Tokens of HTTP

The method of a request and the names of its headers are tokens: letters, digits and fifteen signs.

* `Method.ofText?` : the method that a text names, its case kept;
* `headerName?` : the name of a header, in lower case.
-/

namespace Gatehouse.Http

open Gatehouse.Text

def isTokenChar (c : Char) : Bool :=
  c.isAlphanum || "!#$%&'*+-.^_|~".toList.contains c || c.toNat = 0x60

def isToken (s : List Char) : Bool := !s.isEmpty && s.all isTokenChar

/-- The method of a request. Methods that differ in case are different. -/
structure Method where
  name : List Char
  deriving DecidableEq, Repr, Inhabited

namespace Method

def ofText? (s : List Char) : Option Method := if isToken s then some ⟨s⟩ else none

def get : Method := ⟨"GET".toList⟩

def head : Method := ⟨"HEAD".toList⟩

def post : Method := ⟨"POST".toList⟩

end Method

def maxHeaderName : Nat := 65535

/-- The name of a header, in lower case. -/
def headerName? (s : List Char) : Option (List Char) :=
  if isToken s ∧ s.length ≤ maxHeaderName then some (lower s) else none

end Gatehouse.Http
