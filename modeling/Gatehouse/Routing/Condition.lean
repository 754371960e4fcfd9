import Gatehouse.Http.Uri
import Gatehouse.Http.Token

/-!
# Conditions on requests

A route asks two things of a request: that its path lies under a prefix, by whole segments, and that
its method is one of a list.

* `trimPrefix` : a prefix without the slashes at its end;
* `isUnder` : whether a path lies under a trimmed prefix;
* `Condition.holds` : a condition, which may combine others.
-/

namespace Gatehouse.Routing

open Gatehouse.Http Gatehouse.Text

def trimPrefix (p : List Char) : List Char := dropEnd '/' p

/-- Whether `s` is empty or goes on with a new segment. -/
def startsSegment : List Char → Bool
  | [] => true
  | c :: _ => c = '/'

/-- Whether a path is the trimmed prefix `p`, or lies under it. -/
def isUnder (p path : List Char) : Bool := (afterPrefix? p path).any startsSegment

/-- Whether a method is one of a list; the empty list stands for every method. -/
def allows (methods : List Method) (m : Method) : Bool := methods.isEmpty || methods.contains m

inductive Condition where
  /-- The path lies under a prefix, given trimmed. -/
  | under (p : List Char)
  /-- The method is one of a list. -/
  | oneOf (methods : List Method)
  /-- All of the conditions hold. -/
  | all (conditions : List Condition)
  deriving Inhabited

namespace Condition

/-- The condition that the path lies under a prefix, given as it was written. -/
def underPrefix (p : List Char) : Condition := .under (trimPrefix p)

mutual

def holds (m : Method) (path : List Char) : Condition → Bool
  | under p => isUnder p path
  | oneOf methods => allows methods m
  | all conditions => holdAll m path conditions

def holdAll (m : Method) (path : List Char) : List Condition → Bool
  | [] => true
  | c :: cs => holds m path c && holdAll m path cs

end

end Condition

end Gatehouse.Routing
