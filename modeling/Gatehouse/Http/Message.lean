import Gatehouse.Http.Headers
import Gatehouse.Http.Status
import Gatehouse.Http.Uri
import Gatehouse.Identity
import Gatehouse.Net.Address

/-!
# Requests and responses

A request comes with what is known about its caller: the address it came from, and the identity that
was verified in front of the gateway. Header names are kept in lower case.
-/

namespace Gatehouse.Http

open Gatehouse.Net Gatehouse.Text

structure Request where
  method : Method
  uri : Uri
  headers : Headers
  body : Bytes
  peer : Option Endpoint
  identity : Option Identity
  deriving DecidableEq, Repr, Inhabited

structure Outbound where
  method : Method
  uri : Uri
  headers : Headers
  body : Bytes
  deriving DecidableEq, Repr, Inhabited

structure Response where
  status : Status
  headers : Headers
  body : Bytes
  deriving DecidableEq, Repr, Inhabited

def requestIdHeader : List Char := "x-request-id".toList

namespace Request

/-- The name of a request, if it carries one that is plain text. -/
def id (r : Request) : List Char :=
  ((Headers.first? requestIdHeader r.headers).bind visibleText?).getD "unknown".toList

/-- The client that a request is charged to: the address it came from, without the port. -/
def client (r : Request) : String :=
  r.peer.elim "unknown" fun e => .ofList e.ip.text

end Request

end Gatehouse.Http
