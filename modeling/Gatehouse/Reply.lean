import Gatehouse.Http.Message
import Gatehouse.Json.Writer

/-!
# Answers of the gateway itself

When the gateway cannot pass on the answer of a backend it gives one of its own: a JSON object with
a code, a message, and the service when there is one.
-/

namespace Gatehouse.Reply

open Gatehouse.Document Gatehouse.Http Gatehouse.Text

def contentType : List Char := "content-type".toList

def json (status : Status) (body : Tree) : Response :=
  ⟨status, [⟨contentType, bytesOf "application/json"⟩], bytesOf (Json.compact body)⟩

def bare (status : Status) : Response := ⟨status, [], []⟩

/-- An error with its code and message, and the service that it is about. -/
def error (status : Status) (code message : String) (service : Option String) : Response :=
  json status (.table ([("error", .text code), ("message", .text message)] ++
    (service.map fun s => ("service", Tree.text s)).toList))

def rateLimited : Response :=
  error .tooManyRequests "rate_limit_exceeded" "Rate limit exceeded" none

def breakerOpen (service : String) : Response :=
  error .serviceUnavailable "service_unavailable"
    "Circuit breaker is open. Service is experiencing issues." (some service)

def badGateway (service message : String) : Response :=
  error .badGateway "bad_gateway" message (some service)

def routeNotFound : Response :=
  error .notFound "route_not_found" "No matching route found" none

def unknownService (service : String) : Response :=
  error .notFound "unknown_service" "No circuit breaker for this service" (some service)

def healthy : Response :=
  json .ok (.table [("service", .text "api-gateway"), ("status", .text "healthy")])

end Gatehouse.Reply
