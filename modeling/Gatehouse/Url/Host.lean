import Gatehouse.Net.Address
import Gatehouse.Url.Domain
import Gatehouse.Url.Percent

/-!
# Hosts

The host of a URL is a name or an address. Under a special scheme a name is decoded, written in ASCII
and refused when it holds a forbidden character then, and a name whose last label is a number is an
IPv4 address, in any of the notations of old (`127.1`, `0x7f.1`, `017700000001`). How a name beyond
ASCII is written is a parameter (`Idna`). Under another scheme a name is kept as it is.
-/

namespace Gatehouse.Url

open Gatehouse.Net Gatehouse.Text

inductive ParseError where
  | emptyHost
  | internationalName
  | invalidPort
  | invalidV4
  | invalidV6
  | invalidDomainCharacter
  | relativeWithoutBase
  deriving DecidableEq, Repr

def ParseError.message : ParseError → String
  | emptyHost => "empty host"
  | internationalName => "invalid international domain name"
  | invalidPort => "invalid port number"
  | invalidV4 => "invalid IPv4 address"
  | invalidV6 => "invalid IPv6 address"
  | invalidDomainCharacter => "invalid domain character"
  | relativeWithoutBase => "relative URL without a base"

inductive Host where
  | name (text : List Char)
  | address (ip : Ip)
  deriving DecidableEq, Repr, Inhabited

/-- The text of a host; an IPv6 address stands in brackets. -/
def Host.text : Host → List Char
  | .name s => s
  | .address (.v4 a b c d) => dotted a b c d
  | .address (.v6 pieces) => '[' :: piecesText pieces ++ [']']

/-! ## IPv4 in the notations of old -/

/-- How one part of an IPv4 address may be misread. -/
inductive PartError where
  | notANumber
  | tooLarge
  deriving DecidableEq, Repr

/-- One part of an IPv4 address: hexadecimal after `0x`, octal after `0`, decimal otherwise. -/
def v4Part (s : List Char) : Except PartError Nat :=
  let (base, digits) : Nat × List Char :=
    match s with
    | '0' :: 'x' :: r => (16, r)
    | '0' :: 'X' :: r => (16, r)
    | '0' :: c :: r => (8, c :: r)
    | r => (10, r)
  if s.isEmpty then .error .notANumber
  else if digits.isEmpty then .ok 0
  else
    match number? base digits with
    | some n => if n < UInt32.size then .ok n else .error .tooLarge
    | none => .error .notANumber

/-- The labels of a name; a point at the end closes the last label and opens none. -/
def labels (s : List Char) : List (List Char) :=
  let ps := pieces '.' s
  if ps.getLast? = some [] then ps.dropLast else ps

/-- Whether the last label of a name is a number, so that the name can only be an address. -/
def endsInNumber (s : List Char) : Bool :=
  match (labels s).getLast? with
  | some last =>
    (!last.isEmpty && last.all Char.isDigit) ||
      match v4Part last with
      | .ok _ => true
      | .error .tooLarge => true
      | .error .notANumber => false
  | none => false

/-- The number whose most significant bytes are `front`, the last part filling what they leave. -/
def v4Number? (front : List Nat) (last : Nat) : Option Nat :=
  if front.length ≤ 3 ∧ front.all (· < 256) ∧ last < 1 <<< (8 * (4 - front.length)) then
    some (digitsValue 256 front <<< (8 * (4 - front.length)) + last)
  else none

def parseV4 (s : List Char) : Except ParseError Ip :=
  match (labels s).mapM fun p => (v4Part p).toOption with
  | some ns =>
    match ns.getLast?.bind (v4Number? ns.dropLast) with
    | some n => .ok (.v4 (n >>> 24) (n >>> 16 % 256) (n >>> 8 % 256) (n % 256))
    | none => .error .invalidV4
  | none => .error .invalidV4

/-! ## IPv6 -/

/-- The piece read from the digits at the front of `s`, four at most. -/
def hexPiece (s : List Char) : Nat × List Char :=
  let ds := (s.take 4).takeWhile fun c => (hexValue? c).isSome
  (digitsValue 16 (ds.filterMap hexValue?), s.drop ds.length)

/-- The four decimal numbers that end an IPv6 address, as two pieces. -/
def v4Tail? (s : List Char) : Option (List Nat) :=
  match readV4? s with
  | some ((a, b, c, d), []) => some [a * 256 + b, c * 256 + d]
  | _ => none

/-- The pieces of an IPv6 address from the `n`-th on, and the place of the double colon.
`fuel` bounds the number of pieces that are left. -/
def v6Pieces (n : Nat) (gap : Option Nat) : Nat → List Char → Option (List Nat × Option Nat)
  | _, [] => some ([], gap)
  | 0, _ :: _ => none
  | fuel + 1, s =>
    if n = 8 then none
    else
      match s with
      | ':' :: rest =>
        if gap.isSome then none
        else (v6Pieces (n + 1) (some (n + 1)) fuel rest).map fun (ps, g) => (0 :: ps, g)
      | s =>
        let (p, rest) := hexPiece s
        match rest with
        | [] => some ([p], gap)
        | '.' :: _ =>
          if rest.length = s.length ∨ 6 < n then none
          else (v4Tail? s).map fun ps => (ps, gap)
        | ':' :: [] => none
        | ':' :: rest => (v6Pieces (n + 1) gap fuel rest).map fun (ps, g) => (p :: ps, g)
        | _ => none

def parseV6 (s : List Char) : Except ParseError Ip :=
  let found : Option (List Nat × Option Nat) :=
    match s with
    | ':' :: ':' :: rest => (v6Pieces 1 (some 1) 9 rest).map fun (ps, g) => (0 :: ps, g)
    | ':' :: _ => none
    | [_] => none
    | [] => none
    | s => v6Pieces 0 none 9 s
  match found with
  | some (ps, some gap) =>
    .ok (.v6 (ps.take gap ++ List.replicate (8 - ps.length) 0 ++ ps.drop gap))
  | some (ps, none) => if ps.length = 8 then .ok (.v6 ps) else .error .invalidV6
  | none => .error .invalidV6

/-! ## Names -/

/-- What no name under a special scheme may hold. -/
def isForbiddenInDomain (c : Char) : Bool :=
  c.toNat ≤ 0x20 || 0x7f ≤ c.toNat ||
    ['%', '#', '/', ':', '<', '>', '?', '@', '[', '\\', ']', '^', '|'].contains c

/-- What no name under another scheme may hold. -/
def isForbiddenInOpaque (c : Char) : Bool :=
  c.toNat = 0 ||
    ['\t', '\n', '\r', ' ', '#', '/', ':', '<', '>', '?', '@', '[', '\\', ']', '^', '|'].contains c

def parseBracketed (s : List Char) : Except ParseError Host :=
  if s.getLast? = some ']' then (parseV6 s.dropLast).map .address else .error .invalidV6

/-- The host that a text under a special scheme denotes, with any rules for names beyond ASCII. -/
def parseHost [Idna] (s : List Char) : Except ParseError Host :=
  match s with
  | '[' :: rest => parseBracketed rest
  | s =>
    match textOf? (percentDecode s) with
    | none => .error .internationalName
    | some decoded =>
      match domainToAscii? decoded.toList with
      | none => .error .internationalName
      | some name =>
        if name.any isForbiddenInDomain then .error .internationalName
        else if name.isEmpty then .error .emptyHost
        else if endsInNumber name then (parseV4 name).map .address
        else .ok (.name name)

def parseOpaqueHost (s : List Char) : Except ParseError Host :=
  match s with
  | '[' :: rest => parseBracketed rest
  | s =>
    if s.any isForbiddenInOpaque then .error .invalidDomainCharacter
    else .ok (.name (percentEncode inControlSet s))

end Gatehouse.Url
