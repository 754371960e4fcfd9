import Gatehouse.Http.Headers
import Gatehouse.Telemetry.Event

/-!
# Identity headers

Backends learn who is calling from three headers. They carry the verified identity of the caller and
nothing that the caller put there itself.

* `Identity.apply` : the headers of a verified identity in place of any others;
* `Identity.strip` : no identity headers at all.
-/

namespace Gatehouse

open Gatehouse.Http Gatehouse.Text

/-- The verified identity of a caller. -/
structure Identity where
  userId : String
  email : String
  role : String
  deriving DecidableEq, Repr, Inhabited

namespace Identity

def userIdHeader : List Char := "x-user-id".toList

def emailHeader : List Char := "x-user-email".toList

def roleHeader : List Char := "x-user-role".toList

def headerNames : List (List Char) := [userIdHeader, emailHeader, roleHeader]

/-- The identity headers with what they are to carry. -/
def fields (i : Identity) : List (List Char × String) :=
  [(userIdHeader, i.userId), (emailHeader, i.email), (roleHeader, i.role)]

/-- One identity header is set, or removed when its value cannot stand in a header. -/
def applyField (headers : Headers) (name : List Char) (value : String) : Headers × List Event :=
  let bytes := bytesOf value
  if isHeaderValue bytes then (Headers.insert name bytes headers, [])
  else (Headers.erase name headers, [.notice .identityDropped])

/-- The identity headers of `i` in place of those in `headers`. -/
def apply (i : Identity) (headers : Headers) : Headers × List Event :=
  i.fields.foldl
    (fun (headers, events) (name, value) =>
      let (headers, new) := applyField headers name value
      (headers, events ++ new))
    (headers, [])

def strip (headers : Headers) : Headers :=
  headerNames.foldl (fun hs n => Headers.erase n hs) headers

end Identity

end Gatehouse
