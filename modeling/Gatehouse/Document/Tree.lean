import Gatehouse.Number.Binary64

/-!
# Document trees

A configuration file and a message body are both read into a tree of plain values. The tree knows
nothing of the notation it was written in: a table is a list of entries in the order in which the
notation presents them.
-/

namespace Gatehouse.Document

open Gatehouse.Number

inductive Tree where
  | null
  | bool (value : Bool)
  | int (value : Int)
  | real (value : Binary64)
  | text (value : String)
  /-- A date, a time of day, or both. -/
  | moment
  | list (items : List Tree)
  | table (entries : List (String × Tree))
  deriving BEq, Repr, Inhabited

namespace Tree

/-- The value that a table holds under `key`, the first one when the key is repeated. -/
def find? (key : String) (entries : List (String × Tree)) : Option Tree :=
  (entries.find? fun e => e.1 = key).map (·.2)

def get? (t : Tree) (key : String) : Option Tree :=
  match t with
  | table entries => find? key entries
  | _ => none

end Tree

/-- `entries` with `value` under `key`. Keys stay in increasing order, and a value that is already
there gives way. -/
def insertSorted (key : String) (value : Tree) : List (String × Tree) → List (String × Tree)
  | [] => [(key, value)]
  | e :: rest =>
    if key < e.1 then (key, value) :: e :: rest
    else if key = e.1 then (key, value) :: rest
    else e :: insertSorted key value rest

end Gatehouse.Document
