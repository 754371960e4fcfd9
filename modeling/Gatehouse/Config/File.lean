import Gatehouse.Config.Sections
import Gatehouse.Config.Validity
import Gatehouse.Text.Bytes
import Gatehouse.Toml.Document

/-!
# Configuration files

A configuration file is a TOML document. Reading one may fail in four ways, which are looked at in
this order: there is no text, the text is not TOML, the document does not fit, or the configuration
makes no sense.

* `Config.ofText` : the valid configuration that a text describes;
* `Config.ofFile` : the same from what was found at a path.
-/

namespace Gatehouse

open Gatehouse.Text

namespace Config

/-- Why a path has no text. -/
inductive FileProblem where
  | missing
  | directory
  | notText
  deriving DecidableEq, Repr

namespace FileProblem

def tag : FileProblem → String
  | missing => "NotFound"
  | directory => "IsADirectory"
  | notText => "InvalidData"

def message : FileProblem → String
  | missing => "No such file or directory (os error 2)"
  | directory => "Is a directory (os error 21)"
  | notText => "stream did not contain valid UTF-8"

/-- A problem in short, with the number that the system knows it by. -/
def detail (p : FileProblem) : List Char :=
  match p with
  | missing => record "Os" [("code", ['2']), ("kind", p.tag.toList),
      ("message", shown "No such file or directory")]
  | directory => record "Os" [("code", ['2', '1']), ("kind", p.tag.toList),
      ("message", shown "Is a directory")]
  | notText => record "Error" [("kind", p.tag.toList), ("message", shown p.message)]

end FileProblem

inductive LoadError where
  | unreadable (problem : FileProblem)
  | malformed
  | misfit (error : DecodeError)
  | invalid (problems : List Problem)
  deriving Repr

namespace LoadError

/-- The wording of an error. How a document is malformed is not told. -/
def message : LoadError → String
  | unreadable p => "IO error: " ++ p.message
  | malformed => "Parse error"
  | misfit e => "Parse error: " ++ e.message .toml
  | invalid ps => "Validation failed: " ++ ", ".intercalate (ps.map (·.message))

/-- An error in short, for those who look for its cause. Nothing more is told about a document that
cannot be used. -/
def detail : LoadError → List Char
  | unreadable p => tuple "Io" [p.detail]
  | malformed | misfit _ => "Parse".toList
  | invalid ps => tuple "Validation" [bracketed (ps.map (·.detail))]

end LoadError

/-- The valid configuration that a text describes. -/
def ofText [Idna] (s : List Char) : Except LoadError Config :=
  match Toml.read? s with
  | none => .error .malformed
  | some t =>
    match (codec .toml).decode t with
    | .error e => .error (.misfit e)
    | .ok c => if c.isValid then .ok c else .error (.invalid c.problems)

/-- The valid configuration that the content of a file describes. -/
def ofFile [Idna] : Except FileProblem Bytes → Except LoadError Config
  | .error p => .error (.unreadable p)
  | .ok bytes =>
    match textOf? bytes with
    | none => .error (.unreadable .notText)
    | some s => ofText s.toList

end Config

end Gatehouse
