import Gatehouse.Text.Chars

/-!
# Request targets

The target of a request is written in one of four forms: a path, a whole URI with its scheme and
authority, an authority alone, or an asterisk. A fragment is dropped.

* `Uri.parse` : the target that a text denotes, or why there is none;
* `Uri.path` : the path, which is `/` when a whole URI leaves it out;
* `Uri.text` : the written form.
-/

namespace Gatehouse.Http

open Gatehouse.Text

inductive UriError where
  | empty
  | tooLong
  | schemeTooLong
  | invalidCharacter
  | invalidAuthority
  | invalidFormat
  deriving DecidableEq, Repr

def UriError.message : UriError → String
  | empty => "empty string"
  | tooLong => "uri too long"
  | schemeTooLong => "scheme too long"
  | invalidCharacter => "invalid uri character"
  | invalidAuthority => "invalid authority"
  | invalidFormat => "invalid format"

def UriError.tag : UriError → String
  | empty => "Empty"
  | tooLong => "TooLong"
  | schemeTooLong => "SchemeTooLong"
  | invalidCharacter => "InvalidUriChar"
  | invalidAuthority => "InvalidAuthority"
  | invalidFormat => "InvalidFormat"

/-- The target of a request. `pathText` is the path as written, which may be empty. -/
structure Uri where
  scheme : Option (List Char)
  authority : Option (List Char)
  pathText : List Char
  query : Option (List Char)
  deriving DecidableEq, Repr, Inhabited

namespace Uri

/-- The path. A whole URI without one, and a query alone, stand for the root. -/
def path (u : Uri) : List Char :=
  if u.pathText.isEmpty ∧ (u.scheme.isSome ∨ u.query.isSome) then ['/'] else u.pathText

def text (u : Uri) : List Char :=
  (u.scheme.map fun s => s ++ "://".toList).getD [] ++ u.authority.getD [] ++ u.path
    ++ (u.query.map ('?' :: ·)).getD []

/-! ## Path and query -/

def isPathChar (c : Char) : Bool :=
  let n := c.toNat
  (0x21 ≤ n && n ≤ 0x7e && !(['#', '<', '>', '?'].contains c) && n ≠ 0x60) || 0x80 ≤ n

def isQueryChar (c : Char) : Bool :=
  let n := c.toNat
  (0x21 ≤ n && n ≤ 0x7e && !(['"', '#', '<', '>'].contains c)) || 0x80 ≤ n

/-- The query after its question mark, up to the fragment. -/
def parseQuery (s : List Char) : Except UriError (List Char) :=
  let query := s.takeWhile (· ≠ '#')
  if query.all isQueryChar then .ok query else .error .invalidCharacter

/-- The path in front of `s` and the query after it. -/
def parsePath (s : List Char) : Except UriError (List Char × Option (List Char)) :=
  let (path, rest) := s.span fun c => c ≠ '?' ∧ c ≠ '#'
  if path.all isPathChar then
    match rest with
    | '?' :: rest => (parseQuery rest).map fun q => (path, some q)
    | _ => .ok (path, none)
  else .error .invalidCharacter

/-! ## Authority -/

def isAuthorityChar (c : Char) : Bool :=
  c.isAlphanum || "!$&'()*+,-.:;=@[]_~".toList.contains c

/-- What has been seen of an authority: the colons and percent signs that do not belong to a user
name or to an address in brackets, the brackets, and whether the last character was an `@`. -/
structure AuthorityScan where
  colons : Nat
  percent : Bool
  opened : Bool
  closed : Bool
  atEnd : Bool

/-- The greatest number of colons between two `@` signs or brackets. -/
def maxColons : Nat := 8

def AuthorityScan.step (a : AuthorityScan) (c : Char) : Except UriError AuthorityScan :=
  if c = ':' then
    if maxColons ≤ a.colons then .error .invalidAuthority
    else .ok { a with colons := a.colons + 1, atEnd := false }
  else if c = '[' then
    if a.percent ∨ a.opened then .error .invalidAuthority
    else .ok { a with opened := true, atEnd := false }
  else if c = ']' then
    if !a.opened ∨ a.closed then .error .invalidAuthority
    else .ok { a with closed := true, colons := 0, percent := false, atEnd := false }
  else if c = '@' then .ok { a with colons := 0, percent := false, atEnd := true }
  else if c = '%' then .ok { a with percent := true, atEnd := false }
  else if isAuthorityChar c then .ok { a with atEnd := false }
  else .error .invalidCharacter

def AuthorityScan.isComplete (a : AuthorityScan) : Bool :=
  a.opened == a.closed && a.colons ≤ 1 && !a.atEnd && !a.percent

/-- The authority in front of `s`, which a slash, a question mark or a number sign ends, and the
rest. -/
def splitAuthority (s : List Char) : Except UriError (List Char × List Char) := do
  let (authority, rest) := s.span fun c => c ≠ '/' ∧ c ≠ '?' ∧ c ≠ '#'
  let scan ← authority.foldlM AuthorityScan.step ⟨0, false, false, false, false⟩
  if scan.isComplete then return (authority, rest) else .error .invalidAuthority

/-! ## Scheme -/

def isSchemeChar (c : Char) : Bool := c.isAlphanum || ['+', '-', '.', '~'].contains c

def maxScheme : Nat := 64

/-- The scheme in front of `s` and what follows its `://`. The two schemes of the web are put in
lower case. -/
def splitScheme (s : List Char) : Except UriError (Option (List Char × List Char)) :=
  let (scheme, rest) := s.span isSchemeChar
  match rest with
  | ':' :: '/' :: '/' :: rest =>
    let known := lower scheme
    if known = "http".toList ∨ known = "https".toList then .ok (some (known, rest))
    else if s.length ≤ 3 then .ok none
    else if maxScheme < scheme.length then .error .schemeTooLong
    else .ok (some (scheme, rest))
  | _ => .ok none

/-! ## The whole -/

def maxLength : Nat := 65534

/-- An authority that is the whole target. -/
def parseAuthorityOnly (other : UriError) (s : List Char) : Except UriError Uri := do
  let (authority, rest) ← splitAuthority s
  if rest.isEmpty then return ⟨none, if authority.isEmpty then none else some authority, [], none⟩
  else .error other

/-- A target that starts with neither a slash nor stands for itself. -/
def parseWhole (s : List Char) : Except UriError Uri := do
  match ← splitScheme s with
  | none => parseAuthorityOnly .invalidFormat s
  | some (scheme, rest) =>
    if rest.isEmpty then .error .empty
    else
      let (authority, rest) ← splitAuthority rest
      if authority.isEmpty then .error .invalidFormat
      else
        let (path, query) ← parsePath rest
        return ⟨some scheme, some authority, path, query⟩

def parse (s : List Char) : Except UriError Uri :=
  if maxLength < byteLength s then .error .tooLong
  else
    match s with
    | [] => .error .empty
    | ['*'] => .ok ⟨none, none, ['*'], none⟩
    | '/' :: _ => (parsePath s).map fun (path, query) => ⟨none, none, path, query⟩
    | [_] => parseAuthorityOnly .invalidCharacter s
    | s => parseWhole s

end Uri

end Gatehouse.Http
