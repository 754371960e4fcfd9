import Gatehouse.Document.Tree
import Gatehouse.Text.Quoted

/-!
# Trees as settings

A section of a configuration is a table of settings, or a list of their values in the order of the
section. Settings that are missing take their defaults, entries of a table that name no setting are
ignored, and the first thing that does not fit ends the reading.

Values are written to trees, not to texts. A tree holds more than the texts of either notation do:
TOML has no integers beyond `2 ^ 63 - 1`, and JSON no infinities.

* `Notation` : the two points in which the notations of a tree differ;
* `DecodeError`, `DecodeError.message` : why a tree does not fit;
* `Codec` : how a value is read from a tree and written to one;
* `Section` : a group of settings, and `Section.codec` its codec.
-/

namespace Gatehouse.Config

open Gatehouse.Document Gatehouse.Number Gatehouse.Text

/-- What depends on the notation that a tree was written in: how an error shows a number with a
point, and whether a list may have more items than a section has settings. -/
structure Notation where
  realText : Binary64 → List Char
  extraItems : Bool

def Notation.toml : Notation := ⟨Binary64.positional, true⟩

def Notation.json : Notation := ⟨Binary64.compact, false⟩

/-! ## Errors -/

inductive DecodeError where
  /-- A value of another kind stands where `expected` should. -/
  | invalidType (found : Tree) (expected : String)
  /-- A number is outside the range of `expected`. -/
  | invalidValue (found : Int) (expected : String)
  /-- A list has the wrong number of items. -/
  | invalidLength (length : Nat) (expected : String)
  /-- A setting that has no default is missing. -/
  | missingSetting (name : String)
  deriving Repr

/-- The kind of a value, and the value itself if it is short. -/
def found (n : Notation) : Tree → String
  | .null => "null"
  | .bool b => "boolean `" ++ (if b then "true" else "false") ++ "`"
  | .int i => "integer `" ++ .ofList (signedDecimal i) ++ "`"
  | .real x => "floating point `" ++ .ofList (n.realText x) ++ "`"
  | .text s => "string " ++ .ofList (quote s.toList)
  | .list _ => "sequence"
  | .moment => "map"
  | .table _ => "map"

def DecodeError.message (n : Notation) : DecodeError → String
  | invalidType t expected => "invalid type: " ++ found n t ++ ", expected " ++ expected
  | invalidValue i expected => "invalid value: " ++ found n (.int i) ++ ", expected " ++ expected
  | invalidLength length expected =>
    "invalid length " ++ .ofList (decimal length) ++ ", expected " ++ expected
  | missingSetting name => "missing field `" ++ name ++ "`"

/-! ## Values -/

/-- How a value is read from a tree and written to one. Every value is written, whether or not a
notation can spell its tree. -/
structure Codec (α : Type) where
  decode : Tree → Except DecodeError α
  encode : α → Tree

namespace Codec

def text : Codec String where
  decode
    | .text s => .ok s
    | t => .error (.invalidType t "a string")
  encode := .text

def truth : Codec Bool where
  decode
    | .bool b => .ok b
    | t => .error (.invalidType t "a boolean")
  encode := .bool

def natural (expected : String) (limit : Nat) : Tree → Except DecodeError Nat
  | .int i => if 0 ≤ i ∧ i ≤ limit then .ok i.toNat else .error (.invalidValue i expected)
  | t => .error (.invalidType t expected)

def word32 : Codec UInt32 where
  decode t := (natural "u32" (UInt32.size - 1) t).map UInt32.ofNat
  encode n := .int n.toNat

/-- A number of sixty-four bits. From `2 ^ 63` on it is written in JSON only: what writes TOML
refuses the tree. -/
def word64 : Codec UInt64 where
  decode t := (natural "u64" (UInt64.size - 1) t).map UInt64.ofNat
  encode n := .int n.toNat

/-- A binary64 number. A whole number is rounded to one. An infinity or NaN is written as itself;
the tree has no text in JSON, where `null` stands in its place and is not read as a number. -/
def real : Codec Binary64 where
  decode
    | .real x => .ok x
    | .int i => .ok (.ofInt i)
    | t => .error (.invalidType t "f64")
  encode := .real

def list {α : Type} (item : Codec α) : Codec (List α) where
  decode
    | .list ts => ts.mapM item.decode
    | t => .error (.invalidType t "a sequence")
  encode xs := .list (xs.map item.encode)

end Codec

/-! ## Sections -/

/-- One setting of a section: its name, what reading it does to the section, and how it is
written. -/
structure Setting (σ : Type) where
  name : String
  read : σ → Tree → Except DecodeError σ
  write : σ → Tree

def setting {σ α : Type} (name : String) (codec : Codec α) (get : σ → α) (set : α → σ → σ) :
    Setting σ :=
  ⟨name, fun s t => (codec.decode t).map fun a => set a s, fun s => codec.encode (get s)⟩

/-- A group of settings. The first `required` of them have no default; `start` holds the defaults of
the others. `title` is what errors call the section. -/
structure Section (σ : Type) where
  title : String
  required : Nat
  settings : List (Setting σ)
  start : σ

namespace Section

variable {σ : Type}

def readEntries (settings : List (Setting σ)) (s : σ) :
    List (String × Tree) → Except DecodeError σ
  | [] => .ok s
  | (key, t) :: rest =>
    match settings.find? fun f => f.name = key with
    | some f => do readEntries settings (← f.read s t) rest
    | none => readEntries settings s rest

/-- The items of a list, each read into the setting whose turn it is, and those left over. -/
def readItems (s : σ) : List (Setting σ) → List Tree → Except DecodeError (σ × List Tree)
  | [], ts => .ok (s, ts)
  | _, [] => .ok (s, [])
  | f :: settings, t :: ts => do readItems (← f.read s t) settings ts

/-- The first setting without a default that a table does not have. -/
def missing? (x : Section σ) (entries : List (String × Tree)) : Option String :=
  ((x.settings.take x.required).find? fun f => (Tree.find? f.name entries).isNone).map (·.name)

def ofEntries (x : Section σ) (entries : List (String × Tree)) : Except DecodeError σ := do
  let s ← readEntries x.settings x.start entries
  match x.missing? entries with
  | some name => .error (.missingSetting name)
  | none => return s

def ofItems (n : Notation) (x : Section σ) (ts : List Tree) : Except DecodeError σ := do
  let (s, rest) ← readItems x.start x.settings ts
  if ts.length < x.required then
    .error (.invalidLength ts.length
      ("struct " ++ x.title ++ " with " ++ .ofList (decimal x.settings.length) ++ " elements"))
  else if !rest.isEmpty ∧ !n.extraItems then
    .error (.invalidLength ts.length "fewer elements in array")
  else return s

/-- A section as a value: a table, or a list of its settings. A date counts as an empty table. -/
def codec (n : Notation) (x : Section σ) : Codec σ where
  decode
    | .table entries => x.ofEntries entries
    | .moment => x.ofEntries []
    | .list ts => x.ofItems n ts
    | t => .error (.invalidType t ("struct " ++ x.title))
  encode s := .table (x.settings.map fun f => (f.name, f.write s))

end Section

end Gatehouse.Config
