import Gatehouse.Url.Basic

/-!
# Reading URLs

`Url.parse` reads an absolute URL as browsers do: blanks around it and line breaks inside it are
ignored, a special scheme needs a host and takes a backslash for a slash, dot segments are resolved
and every part is percent-encoded by its own set.

* `splitScheme?` : the scheme and what follows its colon;
* `splitUserinfo` : a user name and password in front of the last `@`;
* `splitHostText` : the host up to its port or the path;
* `readPort` : a port in decimal, at most 65535;
* `resolveDots` : the segments of a path without its dot segments.
-/

namespace Gatehouse.Url

open Gatehouse.Text

/-- Whether a scheme always has a host, and takes a backslash for a slash. -/
def isSpecial (scheme : List Char) : Bool :=
  (schemePort? scheme).isSome || scheme = "file".toList

/-- A scheme in lower case and what follows its colon. -/
def schemeRest? (acc : List Char) : List Char → Option (List Char × List Char)
  | [] => none
  | c :: s =>
    if c = ':' then some (acc.reverse, s)
    else if c.isAlphanum || c = '+' || c = '-' || c = '.' then schemeRest? (c.toLower :: acc) s
    else none

/-- The scheme in front of a URL and what follows its colon. A scheme starts with a letter. -/
def splitScheme? (s : List Char) : Option (List Char × List Char) :=
  match s with
  | c :: _ => if isLetter c then schemeRest? [] s else none
  | [] => none

def endsAuthority (special : Bool) (c : Char) : Bool :=
  c = '/' || c = '?' || c = '#' || (special && c = '\\')

/-! ## User name and password -/

/-- The text before the last `@` of `s` and the text after it. -/
def cutLastAt? : List Char → Option (List Char × List Char)
  | [] => none
  | c :: s =>
    match cutLastAt? s with
    | some (a, b) => some (c :: a, b)
    | none => if c = '@' then some ([], s) else none

/-- A user name and password in front of the host, percent-encoded, and what follows their `@`. -/
def splitUserinfo (special : Bool) (s : List Char) :
    Except ParseError (List Char × List Char × List Char) :=
  let (front, back) := s.span fun c => !endsAuthority special c
  match cutLastAt? front with
  | none => .ok ([], [], s)
  | some ([], rest) =>
    if rest.isEmpty ∧ !back.isEmpty then .error .emptyHost else .ok ([], [], rest ++ back)
  | some (info, rest) =>
    let (name, password) := (cut? ':' info).getD (info, [])
    .ok (percentEncode inUserinfoSet name, percentEncode inUserinfoSet password, rest ++ back)

/-! ## Host and port -/

/-- The host text in front of `s` and the rest, which starts with the port or with the path. A colon
in brackets belongs to the host. -/
def splitHostText (special : Bool) (brackets : Bool) : List Char → List Char × List Char
  | [] => ([], [])
  | c :: s =>
    if (c = ':' ∧ !brackets) ∨ endsAuthority special c then ([], c :: s)
    else
      let brackets := if c = '[' then true else if c = ']' then false else brackets
      let (host, rest) := splitHostText special brackets s
      (c :: host, rest)

/-- The digits of a port and what follows them, which must be the path, the query, the fragment or
nothing. No digits are no port. -/
def readPort (port : Nat) (any : Bool) : List Char → Except ParseError (Option Nat × List Char)
  | [] => .ok (if any then some port else none, [])
  | c :: s =>
    if c.isDigit then
      let port := port * 10 + (c.toNat - 48)
      if 65535 < port then .error .invalidPort else readPort port true s
    else if c = '/' ∨ c = '\\' ∨ c = '?' ∨ c = '#' then
      .ok (if any then some port else none, c :: s)
    else .error .invalidPort

/-- The authority after its two slashes, and the rest. -/
def readAuthority [Idna] (scheme s : List Char) : Except ParseError (Authority × List Char) := do
  let special := isSpecial scheme
  let (username, password, s) ← splitUserinfo special s
  let (hostText, rest) := splitHostText special false s
  let host ←
    if special then
      if hostText.isEmpty then .error .emptyHost else (parseHost hostText).map some
    else if hostText.isEmpty then
      if rest.head? = some ':' then .error .emptyHost else .ok none
    else (parseOpaqueHost hostText).map some
  let (port, rest) ←
    match rest with
    | ':' :: rest => readPort 0 false rest
    | rest => .ok (none, rest)
  if host.isNone ∧ (!username.isEmpty ∨ !password.isEmpty) then .error .emptyHost
  else
    return (⟨username, password, host, if port = schemePort? scheme then none else port⟩, rest)

/-! ## Path -/

def isSingleDot (s : List Char) : Bool :=
  lower s = ['.'] || lower s = "%2e".toList

def isDoubleDot (s : List Char) : Bool :=
  let s := lower s
  s = ['.', '.'] || s = "%2e.".toList || s = ".%2e".toList || s = "%2e%2e".toList

/-- The segments of `s`, which a slash ends; under a special scheme so does a backslash. -/
def segments (special : Bool) (s : List Char) : List (List Char) :=
  pieces '/' (if special then s.map fun c => if c = '\\' then '/' else c else s)

/-- A letter and a colon or a bar: the name of a drive. -/
def isDrive : List Char → Bool
  | [c, m] => isLetter c && (m = ':' || m = '|')
  | _ => false

/-- The segments of a path, the dot segments resolved. `acc` holds those before, in reverse; a dot
segment at the end leaves a slash behind it. Under the scheme `file` a drive in front is never
left. -/
def resolveDots (file : Bool) (acc : List (List Char)) : List (List Char) → List (List Char)
  | [] => acc.reverse
  | s :: rest =>
    if isDoubleDot s then
      let acc := if file && acc.length = 1 && acc.all isDrive then acc else acc.tail
      resolveDots file (if rest.isEmpty then [] :: acc else acc) rest
    else if isSingleDot s then resolveDots file (if rest.isEmpty then [] :: acc else acc) rest
    else if file && acc.isEmpty && isDrive s then resolveDots file [s.take 1 ++ [':']] rest
    else resolveDots file (s :: acc) rest

/-- Segments with a slash in front of each. -/
def slashed (segments : List (List Char)) : List Char := segments.flatMap ('/' :: ·)

/-- The path that starts at the root and goes on with `s`, dots resolved and encoded. -/
def rootedPath (scheme s : List Char) : List Char :=
  let file := scheme = "file".toList
  let parts := resolveDots file [] ((segments (isSpecial scheme) s).map (percentEncode inPathSet))
  slashed (if file then
      let kept := parts.dropWhile List.isEmpty
      if kept.isEmpty then [[]] else kept
    else parts)

def dropSlash (special : Bool) (s : List Char) : List Char :=
  match s with
  | c :: rest => if c = '/' ∨ (special ∧ c = '\\') then rest else s
  | [] => []

/-- The path after an authority. Under a special scheme it is never empty. -/
def pathAfterAuthority (scheme s : List Char) : List Char :=
  let special := isSpecial scheme
  if s.isEmpty ∧ !special then [] else rootedPath scheme (dropSlash special s)

/-! ## The whole -/

/-- The part of `s` that is the path, then the query and the fragment, encoded. -/
def splitTail (special : Bool) (s : List Char) :
    List Char × Option (List Char) × Option (List Char) :=
  let (front, fragment) :=
    match cut? '#' s with
    | some (a, b) => (a, some (percentEncode inFragmentSet b))
    | none => (s, none)
  match cut? '?' front with
  | some (path, query) =>
    let set := if special then inSpecialQuerySet else inQuerySet
    (path, some (percentEncode set query), fragment)
  | none => (front, none, fragment)

/-- The host of a `file` URL and its path. The local host counts as no host, and so does a drive. -/
def fileAuthority [Idna] (s : List Char) : Except ParseError (Authority × List Char) :=
  let (hostText, path) := s.span fun c => c ≠ '/' ∧ c ≠ '\\'
  if isDrive hostText then .ok (⟨[], [], none, none⟩, rootedPath "file".toList s)
  else do
    let host ←
      if hostText.isEmpty then pure none
      else
        match ← parseHost hostText with
        | .name n => pure (if n = "localhost".toList then none else some (.name n))
        | host => pure (some host)
    let path := rootedPath "file".toList (dropSlash true path)
    let startsWithDrive := (pieces '/' (path.drop 1)).head?.any isDrive
    return (⟨[], [], if startsWithDrive then none else host, none⟩, path)

/-- The authority and path of a URL with the scheme `file`. -/
def parseFile [Idna] (s : List Char) : Except ParseError (Authority × List Char) :=
  let isSlash (c : Char) : Bool := c = '/' || c = '\\'
  match s with
  | a :: b :: rest =>
    if isSlash a && isSlash b then fileAuthority rest
    else .ok (⟨[], [], none, none⟩, rootedPath "file".toList (dropSlash true (a :: b :: rest)))
  | s => .ok (⟨[], [], none, none⟩, rootedPath "file".toList (dropSlash true s))

/-- The URL with the given scheme and what follows its colon. -/
def parseAfterScheme [Idna] (scheme s : List Char) : Except ParseError Url :=
  let special := isSpecial scheme
  let (front, query, fragment) := splitTail special s
  if scheme = "file".toList then do
    let (authority, path) ← parseFile front
    return ⟨scheme, some authority, path, query, fragment⟩
  else if special then do
    let (authority, rest) ← readAuthority scheme (front.dropWhile fun c => c = '/' || c = '\\')
    return ⟨scheme, some authority, pathAfterAuthority scheme rest, query, fragment⟩
  else
    match front with
    | '/' :: '/' :: rest => do
      let (authority, rest) ← readAuthority scheme rest
      return ⟨scheme, some authority, pathAfterAuthority scheme rest, query, fragment⟩
    | '/' :: rest => .ok ⟨scheme, none, rootedPath scheme rest, query, fragment⟩
    | rest => .ok ⟨scheme, none, percentEncode inControlSet rest, query, fragment⟩

/-- Whether `c` is ignored at the two ends of a URL. -/
def isEdgeBlank (c : Char) : Bool := c.toNat ≤ 0x20

/-- Whether `c` is ignored inside a URL. -/
def isLineBlank (c : Char) : Bool := c = '\t' || c = '\n' || c = '\r'

def parse [Idna] (s : List Char) : Except ParseError Url :=
  match splitScheme? ((trim isEdgeBlank s).filter fun c => !isLineBlank c) with
  | some (scheme, rest) => parseAfterScheme scheme rest
  | none => .error .relativeWithoutBase

end Gatehouse.Url
