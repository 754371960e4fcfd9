import Gatehouse.Text.Chars

/-!
# Status codes

The status of a response is a number of three digits with an agreed reason.
-/

namespace Gatehouse.Http

open Gatehouse.Text

structure Status where
  code : Nat
  deriving DecidableEq, Repr, Inhabited

namespace Status

/-- The status with a code of three digits. -/
def ofCode? (code : Nat) : Option Status :=
  if 100 ≤ code ∧ code < 1000 then some ⟨code⟩ else none

def isServerError (s : Status) : Bool := 500 ≤ s.code

def isSuccess (s : Status) : Bool := 200 ≤ s.code && s.code < 300

def ok : Status := ⟨200⟩
def badRequest : Status := ⟨400⟩
def unauthorized : Status := ⟨401⟩
def notFound : Status := ⟨404⟩
def methodNotAllowed : Status := ⟨405⟩
def requestTimeout : Status := ⟨408⟩
def tooManyRequests : Status := ⟨429⟩
def internalServerError : Status := ⟨500⟩
def badGateway : Status := ⟨502⟩
def serviceUnavailable : Status := ⟨503⟩

def reason? (s : Status) : Option String :=
  match s.code with
  | 100 => "Continue"
  | 101 => "Switching Protocols"
  | 102 => "Processing"
  | 103 => "Early Hints"
  | 200 => "OK"
  | 201 => "Created"
  | 202 => "Accepted"
  | 203 => "Non Authoritative Information"
  | 204 => "No Content"
  | 205 => "Reset Content"
  | 206 => "Partial Content"
  | 207 => "Multi-Status"
  | 208 => "Already Reported"
  | 226 => "IM Used"
  | 300 => "Multiple Choices"
  | 301 => "Moved Permanently"
  | 302 => "Found"
  | 303 => "See Other"
  | 304 => "Not Modified"
  | 305 => "Use Proxy"
  | 307 => "Temporary Redirect"
  | 308 => "Permanent Redirect"
  | 400 => "Bad Request"
  | 401 => "Unauthorized"
  | 402 => "Payment Required"
  | 403 => "Forbidden"
  | 404 => "Not Found"
  | 405 => "Method Not Allowed"
  | 406 => "Not Acceptable"
  | 407 => "Proxy Authentication Required"
  | 408 => "Request Timeout"
  | 409 => "Conflict"
  | 410 => "Gone"
  | 411 => "Length Required"
  | 412 => "Precondition Failed"
  | 413 => "Payload Too Large"
  | 414 => "URI Too Long"
  | 415 => "Unsupported Media Type"
  | 416 => "Range Not Satisfiable"
  | 417 => "Expectation Failed"
  | 418 => "I'm a teapot"
  | 421 => "Misdirected Request"
  | 422 => "Unprocessable Entity"
  | 423 => "Locked"
  | 424 => "Failed Dependency"
  | 425 => "Too Early"
  | 426 => "Upgrade Required"
  | 428 => "Precondition Required"
  | 429 => "Too Many Requests"
  | 431 => "Request Header Fields Too Large"
  | 451 => "Unavailable For Legal Reasons"
  | 500 => "Internal Server Error"
  | 501 => "Not Implemented"
  | 502 => "Bad Gateway"
  | 503 => "Service Unavailable"
  | 504 => "Gateway Timeout"
  | 505 => "HTTP Version Not Supported"
  | 506 => "Variant Also Negotiates"
  | 507 => "Insufficient Storage"
  | 508 => "Loop Detected"
  | 510 => "Not Extended"
  | 511 => "Network Authentication Required"
  | _ => none

def text (s : Status) : List Char :=
  decimal s.code ++ ' ' :: (s.reason?.getD "<unknown status code>").toList

end Status

end Gatehouse.Http
