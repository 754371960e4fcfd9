import Gatehouse.Http.Token
import Gatehouse.Text.Chars

/-!
# What a path leads to

The gateway answers on a few paths itself and passes everything else on. The admin interface is only
there when it is switched on; its paths are then taken before any route.
-/

namespace Gatehouse

open Gatehouse.Http Gatehouse.Text

inductive Resource where
  /-- The gateway itself says that it is up. -/
  | health
  /-- The state of the gateway in numbers. -/
  | status
  /-- All breakers. -/
  | breakers
  /-- A breaker is closed by hand; the service is named as it stands in the path. -/
  | reset (segment : List Char)
  /-- Everything else belongs to the backends. -/
  | backend
  deriving DecidableEq, Repr, Inhabited

namespace Resource

/-- What a path leads to when the admin interface is there. -/
def ofAdminPath (path : List Char) : Resource :=
  match pieces '/' path with
  | [[], a, b] =>
    if a = "admin".toList ∧ b = "status".toList then .status
    else if a = "admin".toList ∧ b = "breakers".toList then .breakers
    else .backend
  | [[], a, b, segment, c] =>
    if a = "admin".toList ∧ b = "breakers".toList ∧ c = "reset".toList ∧ !segment.isEmpty then
      .reset segment
    else .backend
  | _ => .backend

def ofPath (admin : Bool) (path : List Char) : Resource :=
  if path = "/health".toList then .health
  else if admin then ofAdminPath path
  else .backend

def isAdmin : Resource → Bool
  | status | breakers | reset _ => true
  | health | backend => false

/-- The methods that a resource allows; backends see to that themselves. -/
def methods? : Resource → Option (List Method)
  | health | status | breakers => some [.get, .head]
  | reset _ => some [.post]
  | backend => none

def allows (r : Resource) (m : Method) : Bool := r.methods?.all (·.contains m)

/-- The methods that a resource allows, when `m` is not one of them. -/
def refusal? (r : Resource) (m : Method) : Option (List Method) :=
  r.methods?.filter fun ms => !ms.contains m

end Resource

end Gatehouse
