import Gatehouse.Http.Message
import Gatehouse.Routing.Condition
import Gatehouse.Url.Basic

/-!
# Forwarding

A request is passed on to a backend under another target: a prefix that only the gateway knows is
taken off its path, and the rest goes under the base URL of the service. The host is left to the
connection, and the identity headers are set by the gateway.

* `stripPath` : a path without the prefix of the gateway;
* `targetUri` : a path and a query under a base URL;
* `outbound` : the request that the backend sees;
* `ForwardingFailure` : why a backend gave no usable answer.
-/

namespace Gatehouse

open Gatehouse.Http Gatehouse.Routing Gatehouse.Text

structure ForwardingRules where
  stripPrefix : List Char
  stripClientIdentity : Bool
  deriving DecidableEq, Repr, Inhabited

/-- A path without a prefix of whole segments. A path that does not lie under it is kept. -/
def stripPath (p path : List Char) : List Char :=
  if p.isEmpty then path
  else
    match afterPrefix? p path with
    | some [] => ['/']
    | some rest => if startsSegment rest then rest else path
    | none => path

/-- A path, with its query unless that is empty, under a base URL. -/
def targetUri (base : Url) (path : List Char) (query : Option (List Char)) : Except UriError Uri :=
  let query := query.filter (!·.isEmpty)
  Uri.parse (dropEnd '/' base.text ++ path ++ (query.map ('?' :: ·)).getD [])

def hostHeader : List Char := "host".toList

/-- The headers that the backend sees. -/
def outboundHeaders (rules : ForwardingRules) (r : Request) : Headers × List Event :=
  let headers := Headers.erase hostHeader r.headers
  match r.identity with
  | some identity => identity.apply headers
  | none => (if rules.stripClientIdentity then Identity.strip headers else headers, [])

/-- The request that the backend at `base` sees. -/
def outbound (rules : ForwardingRules) (base : Url) (r : Request) :
    Except UriError (Outbound × List Event) := do
  let uri ← targetUri base (stripPath rules.stripPrefix r.uri.path) r.uri.query
  let (headers, events) := outboundHeaders rules r
  return (⟨r.method, uri, headers, r.body⟩, events)

/-! ## Failures -/

inductive ForwardingFailure where
  /-- The target of the request cannot be written. -/
  | invalidTarget (error : UriError)
  /-- The connection was refused, or broke off. -/
  | transport
  /-- No answer came in time. -/
  | timeout (limit : Span)
  /-- The backend answered that it failed. -/
  | serverError (response : Response)
  deriving DecidableEq, Repr

namespace ForwardingFailure

def message : ForwardingFailure → List Char
  | invalidTarget e => "invalid outbound request: ".toList ++ e.message.toList
  | transport => "upstream request failed".toList
  | timeout limit => "upstream timed out after ".toList ++ Span.text limit
  | serverError r => "upstream returned ".toList ++ r.status.text

def detail : ForwardingFailure → List Char
  | invalidTarget e =>
    "InvalidRequest(http::Error(InvalidUri(".toList ++ e.tag.toList ++ ")))".toList
  | transport => "Transport".toList
  | timeout limit => "Timeout(".toList ++ Span.text limit ++ [')']
  | serverError r => "Status(".toList ++ decimal r.status.code ++ [')']

end ForwardingFailure

end Gatehouse
