import Gatehouse.Url.Host

/-!
# URLs

A URL is a scheme, an optional authority, a path, and an optional query and fragment. `Url.text`
writes one; the parts are kept in the form in which they are written.

* `Url.host?`, `Url.effectivePort?` : where the URL leads;
* `Url.text` : the whole URL.
-/

namespace Gatehouse

open Gatehouse.Text

namespace Url

/-- The part of a URL between `//` and the path. A port that is the scheme's own is left out. -/
structure Authority where
  username : List Char
  password : List Char
  host : Option Host
  port : Option Nat
  deriving DecidableEq, Repr, Inhabited

/-- The user name and password in front of the host, when there are any. -/
def Authority.userinfoText (a : Authority) : List Char :=
  if a.username.isEmpty ∧ a.password.isEmpty then []
  else a.username ++ (if a.password.isEmpty then [] else ':' :: a.password) ++ ['@']

def Authority.text (a : Authority) : List Char :=
  a.userinfoText ++ (a.host.map Host.text).getD [] ++ (a.port.map fun p => ':' :: decimal p).getD []

def schemePort? (scheme : List Char) : Option Nat :=
  if scheme = "http".toList ∨ scheme = "ws".toList then some 80
  else if scheme = "https".toList ∨ scheme = "wss".toList then some 443
  else if scheme = "ftp".toList then some 21
  else none

end Url

/-- A URL by its parts. The scheme is in lower case and the path is the written path. -/
structure Url where
  scheme : List Char
  authority : Option Url.Authority
  path : List Char
  query : Option (List Char)
  fragment : Option (List Char)
  deriving DecidableEq, Repr, Inhabited

namespace Url

def host? (u : Url) : Option Host := u.authority.bind (·.host)

def hostText? (u : Url) : Option (List Char) := u.host?.map Host.text

/-- The port that the URL leads to: its own, or the one its scheme implies. -/
def effectivePort? (u : Url) : Option Nat :=
  (u.authority.bind (·.port)).or (schemePort? u.scheme)

/-- What stands between the scheme and the path. A path that starts with two slashes is kept apart
from an authority by `/.`. -/
def authorityText (u : Url) : List Char :=
  match u.authority with
  | some a => '/' :: '/' :: a.text
  | none => if ['/', '/'].isPrefixOf u.path then ['/', '.'] else []

def text (u : Url) : List Char :=
  u.scheme ++ ':' :: u.authorityText ++ u.path
    ++ (u.query.map ('?' :: ·)).getD [] ++ (u.fragment.map ('#' :: ·)).getD []

end Url

end Gatehouse
