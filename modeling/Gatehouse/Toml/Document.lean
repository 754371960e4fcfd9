import Gatehouse.Toml.Scalar
import Gatehouse.Toml.Table

/-!
# TOML documents

`Toml.read?` reads a document into a tree, or finds that it is not well formed. Arrays and inline
tables may be nested up to `maxDepth` deep.
-/

namespace Gatehouse.Toml

open Gatehouse.Document Gatehouse.Text

/-! ## Values -/

def maxDepth : Nat := 79

/-- The items of an array after its opening bracket, each read by `item`; a comma may follow the
last. -/
def arrayRest? (item : List Char → Option (Tree × List Char)) (acc : List Tree) :
    Nat → List Char → Option (List Tree × List Char)
  | 0, _ => none
  | fuel + 1, s =>
    match skipFiller s with
    | ']' :: rest => some (acc.reverse, rest)
    | s =>
      match item s with
      | none => none
      | some (t, rest) =>
        match skipFiller rest with
        | ',' :: rest => arrayRest? item (t :: acc) fuel rest
        | ']' :: rest => some ((t :: acc).reverse, rest)
        | _ => none

/-- A key and its value in front of `s`, the value read by `item`. -/
def pair? (item : List Char → Option (Tree × List Char)) (s : List Char) :
    Option ((List String × Tree) × List Char) := do
  let (path, rest) ← key? s
  let rest ← after? '=' rest
  let (t, rest) ← item (skipBlank rest)
  return ((path, t), rest)

/-- The entries of an inline table after its opening brace, up to the closing one. -/
def inlineRest? (item : List Char → Option (Tree × List Char)) (es : Entries) :
    Nat → List Char → Option (Entries × List Char)
  | 0, _ => none
  | fuel + 1, s =>
    match pair? item s with
    | none => none
    | some ((path, t), rest) =>
      match define path t es with
      | none => none
      | some es =>
        match skipBlank rest with
        | ',' :: rest => inlineRest? item es fuel rest
        | '}' :: rest => some (es, rest)
        | _ => none

/-- A value in front of `s`, with at most `depth` more levels of nesting. -/
def value? : Nat → List Char → Option (Tree × List Char)
  | 0, s => plain? s
  | depth + 1, s =>
    match s with
    | '[' :: rest =>
      (arrayRest? (value? depth) [] rest.length rest).map fun (ts, rest) => (.list ts, rest)
    | '{' :: rest =>
      match skipBlank rest with
      | '}' :: rest => some (.table [], rest)
      | rest =>
        (inlineRest? (value? depth) [] rest.length rest).map fun (es, rest) =>
          (.table (Node.entriesTree es), rest)
    | s => plain? s

/-! ## Lines -/

/-- What has been read: all tables, and the header of the one that is open. -/
structure Draft where
  entries : Entries
  header : List String
  deriving Inhabited

def tableHeader? (d : Draft) (s : List Char) : Option (Draft × List Char) := do
  let (path, rest) ← key? s
  let rest ← (after? ']' rest).bind lineEnd?
  let es ← openTable path d.entries
  return (⟨es, path⟩, rest)

/-- The header of one more table of an array, after its opening brackets. -/
def elementHeader? (d : Draft) (s : List Char) : Option (Draft × List Char) := do
  let (path, rest) ← key? s
  let rest ← ((after? ']' rest).bind (after? ']')).bind lineEnd?
  let es ← openElement path d.entries
  return (⟨es, path⟩, rest)

def keyLine? (d : Draft) (s : List Char) : Option (Draft × List Char) := do
  let ((path, t), rest) ← pair? (value? maxDepth) s
  let rest ← lineEnd? rest
  let es ← within d.header (define path t) d.entries
  return (⟨es, d.header⟩, rest)

/-- One line, or as many as a value takes. -/
def line? (d : Draft) (s : List Char) : Option (Draft × List Char) :=
  match s with
  | '[' :: '[' :: rest => elementHeader? d rest
  | '[' :: rest => tableHeader? d rest
  | s =>
    match lineEnd? s with
    | some rest => some (d, rest)
    | none => keyLine? d s

def lines? (d : Draft) : Nat → List Char → Option Draft
  | 0, s => if s.isEmpty then some d else none
  | fuel + 1, s =>
    match skipBlank s with
    | [] => some d
    | s =>
      match line? d s with
      | some (d, rest) => lines? d fuel rest
      | none => none

/-- The tree that a document denotes. A byte order mark in front of it is ignored. -/
def read? (s : List Char) : Option Tree :=
  let s := match s with
    | c :: rest => if c.toNat = 0xfeff then rest else s
    | [] => []
  (lines? ⟨[], []⟩ s.length s).map fun d => .table (Node.entriesTree d.entries)

end Gatehouse.Toml
