import Gatehouse.Document.Tree

/-!
# Writing JSON

* `Json.compact` : a document tree on one line, without blanks;
* `Json.pretty` : the same with one item a line, indented by two blanks a level.

Quotes, backslashes and control characters are escaped, everything else stands as it is. A number
that is not finite is written as `null`.
-/

namespace Gatehouse.Json

open Gatehouse.Document Gatehouse.Number Gatehouse.Text

def escape (c : Char) : List Char :=
  if c = '"' then ['\\', '"']
  else if c = '\\' then ['\\', '\\']
  else if c = '\x08' then ['\\', 'b']
  else if c = '\x0c' then ['\\', 'f']
  else if c = '\n' then ['\\', 'n']
  else if c = '\r' then ['\\', 'r']
  else if c = '\t' then ['\\', 't']
  else if c.toNat < 0x20 then '\\' :: 'u' :: padZero 4 (hexText c.toNat)
  else [c]

def quoted (s : String) : List Char := '"' :: s.toList.flatMap escape ++ ['"']

/-- A value that holds no other value. -/
def scalar : Tree → List Char
  | .bool true => ['t', 'r', 'u', 'e']
  | .bool false => ['f', 'a', 'l', 's', 'e']
  | .int n => signedDecimal n
  | .real x => if x.isFinite then x.compact else ['n', 'u', 'l', 'l']
  | .text s => quoted s
  | _ => ['n', 'u', 'l', 'l']

mutual

def compactText : Tree → List Char
  | .list items => '[' :: compactItems items ++ [']']
  | .table entries => '{' :: compactEntries entries ++ ['}']
  | t => scalar t

/-- The items of an array, with commas between them. -/
def compactItems : List Tree → List Char
  | [] => []
  | [t] => compactText t
  | t :: ts => compactText t ++ ',' :: compactItems ts

def compactEntries : List (String × Tree) → List Char
  | [] => []
  | [(k, t)] => quoted k ++ ':' :: compactText t
  | (k, t) :: es => quoted k ++ ':' :: compactText t ++ ',' :: compactEntries es

end

/-- A line break and the indentation of `level`. -/
def newLine (level : Nat) : List Char := '\n' :: List.replicate (2 * level) ' '

mutual

/-- A tree with one item a line, standing at indentation `level`. -/
def prettyText (level : Nat) : Tree → List Char
  | .list [] => ['[', ']']
  | .table [] => ['{', '}']
  | .list items => '[' :: prettyItems (level + 1) items ++ newLine level ++ [']']
  | .table entries => '{' :: prettyEntries (level + 1) entries ++ newLine level ++ ['}']
  | t => scalar t

def prettyItems (level : Nat) : List Tree → List Char
  | [] => []
  | [t] => newLine level ++ prettyText level t
  | t :: ts => newLine level ++ prettyText level t ++ ',' :: prettyItems level ts

def prettyEntries (level : Nat) : List (String × Tree) → List Char
  | [] => []
  | [(k, t)] => newLine level ++ quoted k ++ ':' :: ' ' :: prettyText level t
  | (k, t) :: es =>
    newLine level ++ quoted k ++ ':' :: ' ' :: prettyText level t ++ ',' :: prettyEntries level es

end

def compact (t : Tree) : String := .ofList (compactText t)

def pretty (t : Tree) : String := .ofList (prettyText 0 t)

end Gatehouse.Json
