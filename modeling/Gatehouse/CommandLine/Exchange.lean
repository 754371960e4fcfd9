import Gatehouse.Gateway.Server
import Gatehouse.Json.Reader

/-!
# Requests and responses as lines

On the command line requests come in as lines of JSON, each with what the backend would answer, and
responses go out as lines of JSON.

* `Exchange.read?` : the request of a line and what the backend does with it;
* `Exchange.answer` : the response that a running gateway gives;
* `Exchange.write` : the line of a response;
* `uuid` : a name for a request that has none.
-/

namespace Gatehouse.CommandLine

open Gatehouse.Document Gatehouse.Http Gatehouse.Text

/-- A request to the gateway, and what the backend does if it gets to see it. -/
structure Exchange where
  request : Request
  backend : Backend
  deriving DecidableEq, Repr

namespace Exchange

def textOr (t : Tree) (key default : String) : String :=
  match t.get? key with
  | some (.text s) => s
  | _ => default

def header? : Tree → Option Header
  | .list [.text name, .text value] =>
    (headerName? name.toList).bind fun name =>
      if isHeaderValue (bytesOf value) then some ⟨name, bytesOf value⟩ else none
  | _ => none

/-- The headers of a request or a response; none when they are not given. -/
def headers? (t : Tree) : Option Headers :=
  match t.get? "headers" with
  | none => some []
  | some (.list items) => items.mapM header?
  | some _ => none

/-- What a backend does: it answers as described, or breaks off when nothing is. -/
def backend? : Option Tree → Option Backend
  | none => some .breaksOff
  | some t => do
    let status ← match t.get? "status" with
      | none => some Status.ok
      | some (.int n) => Status.ofCode? n.toNat
      | some _ => none
    return .answers ⟨status, ← headers? t, bytesOf (textOr t "body" "")⟩

def ofTree? (t : Tree) : Option Exchange := do
  let method ← Method.ofText? (textOr t "method" "GET").toList
  let uri ← (Uri.parse (textOr t "uri" "/").toList).toOption
  let peer := (t.get? "peer").bind fun
    | .text s => Net.Endpoint.parse? s.toList
    | _ => none
  return ⟨⟨method, uri, ← headers? t, bytesOf (textOr t "body" ""), peer, none⟩,
    ← backend? (t.get? "reply")⟩

def read? (line : List Char) : Option Exchange := (Json.read? line).bind ofTree?

/-- Bytes as text; bytes that are no text are left out. -/
def textTree (bytes : Bytes) : Tree := .text ((textOf? bytes).getD "")

def write (r : Response) : String :=
  Json.compact (.table [
    ("status", .int r.status.code),
    ("headers", .list (r.headers.map fun h => .list [.text (.ofList h.name), textTree h.value])),
    ("body", textTree r.body)])

/-- The response of a running gateway. A request that has no name gets `fresh`. -/
def answer {α : Type} [TokenArithmetic α] (s : Server α) (now : Moment) (fresh : Bytes)
    (e : Exchange) : Response × Server α :=
  let (_, s, _) := s.wake now
  match s.gateway.arrive now "line" fresh e.request with
  | (.answered a, g, _) => (a.response, { s with gateway := g })
  | (.sent _, g, _) =>
    let (a, g, _) := g.respond now "line" e.backend
    ((a.map (·.response)).getD (Reply.bare .requestTimeout), { s with gateway := g })

end Exchange

/-- A name made of 122 bits, written as a UUID of version 4. -/
def uuid (bits : Nat) : Bytes :=
  let part (shift digits : Nat) : List Char :=
    padZero digits (hexText (bits >>> shift % Nat.pow 16 digits))
  let variant := hexText (8 + bits >>> 120 % 4)
  bytesOf (.ofList (['-'].intercalate
    [part 0 8, part 32 4, '4' :: part 48 3, variant ++ part 60 3, part 72 12]))

end Gatehouse.CommandLine
