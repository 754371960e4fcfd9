import Gatehouse.Document.Tree

/-!
# Tables under construction

A document defines its tables piece by piece: by a header of their own, by the header of a table
inside them, or by a dotted key. Which of these came first decides what may still be added. A table
with a header of its own is complete once the next header comes; one that only stands in the header
of another may get a header later; one made by a dotted key takes further dotted keys only.

* `Node` : what stands under a key while the document is read;
* `descend` : a change somewhere inside nested tables;
* `define`, `openTable`, `openElement` : a key with a value, a table header, and the header of one
  more table of an array.
-/

namespace Gatehouse.Toml

open Gatehouse.Document

inductive Origin where
  | header
  | path
  | dotted
  deriving DecidableEq, Repr, Inhabited

/-- What stands under a key: a value, a table, or an array of tables, of which the last one is still
open. -/
inductive Node where
  | leaf (value : Tree)
  | table (origin : Origin) (entries : List (String × Node))
  | tables (earlier : List (List (String × Node))) (last : List (String × Node))
  deriving Inhabited

/-- The entries of a table, in the order in which they were defined. -/
abbrev Entries := List (String × Node)

namespace Node

mutual

/-- The finished value of a node. -/
def toTree : Node → Tree
  | leaf value => value
  | table _ entries => .table (entriesTree entries)
  | tables earlier last => .list (elementsTree earlier ++ [.table (entriesTree last)])

def entriesTree : List (String × Node) → List (String × Tree)
  | [] => []
  | (key, node) :: rest => (key, toTree node) :: entriesTree rest

def elementsTree : List (List (String × Node)) → List Tree
  | [] => []
  | entries :: rest => .table (entriesTree entries) :: elementsTree rest

end

end Node

namespace Entries

def find? (key : String) (es : Entries) : Option Node := es.lookup key

def replace (key : String) (node : Node) (es : Entries) : Entries :=
  es.map fun e => if e.1 = key then (key, node) else e

def add (key : String) (node : Node) (es : Entries) : Entries := es ++ [(key, node)]

def erase (key : String) (es : Entries) : Entries := es.filter fun e => e.1 ≠ key

end Entries

/-- The change `f` to the table at the end of a path. Tables on the way that are missing are made as
`missing` says; a dotted key does not go through a table that has a header of its own. -/
def descend (missing : Origin) (f : Origin → Entries → Option Entries) (origin : Origin) :
    List String → Entries → Option Entries
  | [], es => f origin es
  | key :: path, es =>
    match es.find? key with
    | none => (descend missing f missing path []).map fun sub => es.add key (.table missing sub)
    | some (.leaf _) => none
    | some (.table o sub) =>
      if missing = .dotted ∧ o = .header then none
      else (descend missing f o path sub).map fun sub => es.replace key (.table o sub)
    | some (.tables earlier last) =>
      (descend missing f .header path last).map fun last => es.replace key (.tables earlier last)

/-- A key is given a value. No key is given one twice, and the table that a dotted key leads to has
to be made by dotted keys. -/
def define (path : List String) (value : Tree) (es : Entries) : Option Entries :=
  match path.getLast? with
  | none => none
  | some key =>
    let inner := path.dropLast
    descend .dotted
      (fun origin es =>
        if (!inner.isEmpty ∧ origin ≠ .dotted) ∨ (es.find? key).isSome then none
        else some (es.add key (.leaf value)))
      .header inner es

/-- A table gets its header, and moves to the end. -/
def openTable (path : List String) (es : Entries) : Option Entries :=
  match path.getLast? with
  | none => none
  | some key =>
    descend .path
      (fun _ es =>
        match es.find? key with
        | none => some (es.add key (.table .header []))
        | some (.table .path sub) => some ((es.erase key).add key (.table .header sub))
        | some _ => none)
      .header path.dropLast es

/-- An array of tables gets one more table. -/
def openElement (path : List String) (es : Entries) : Option Entries :=
  match path.getLast? with
  | none => none
  | some key =>
    descend .path
      (fun _ es =>
        match es.find? key with
        | none => some (es.add key (.tables [] []))
        | some (.tables earlier last) => some (es.replace key (.tables (earlier ++ [last]) []))
        | some _ => none)
      .header path.dropLast es

/-- The change `f` to the table whose header came last. -/
def within (header : List String) (f : Entries → Option Entries) (es : Entries) : Option Entries :=
  descend .path (fun _ es => f es) .header header es

end Gatehouse.Toml
