import Gatehouse.CommandLine.Serve
import Gatehouse.Http.Message
import Gatehouse.Json.Reader
import Gatehouse.Json.Writer

/-!
# The admin client

The admin client asks the admin interface of a gateway for its state or for its breakers, or has one
breaker reset, and prints the answer.

* `AdminClient.read` : what the arguments ask for;
* `AdminClient.request` : the request that is sent;
* `AdminClient.report` : what is printed about the response, and how the process ends.
-/

namespace Gatehouse.CommandLine

open Gatehouse.Http Gatehouse.Text

inductive AdminCommand where
  | status
  | breakers
  | reset (service : String)
  deriving DecidableEq, Repr

/-- What the admin client is asked to do, and of which gateway. -/
structure AdminClient where
  url : String
  key : String
  command : AdminCommand
  deriving DecidableEq, Repr

structure AdminRequest where
  method : Method
  url : Url
  authorization : Bytes
  deriving DecidableEq, Repr

/-- A request on a line of its own: the method, the address, and the value of the header that
carries the key. -/
def AdminRequest.line (r : AdminRequest) : String :=
  .ofList (r.method.name ++ ' ' :: r.url.text ++ ' ' :: ((textOf? r.authorization).getD "").toList)

namespace AdminClient

def defaultUrl : String := "http://localhost:8080"

def flags : List Flag := [⟨"url", 'u'⟩, ⟨"key", 'k'⟩]

/-- The arguments of a command: no options, and as many others as it takes. -/
def operands (count : Nat) (args : List String) : Reading (List String) := do
  let (_, rest) ← CommandLine.read [] [] args
  if rest.length < count then .misunderstood (.missing "operand")
  else
    match rest.drop count with
    | [] => return rest
    | extra :: _ => .misunderstood (.unknown extra)

def readCommand : List String → Reading AdminCommand
  | [] => .misunderstood (.missing "command")
  | name :: args =>
    if name = "status" then do
      let _ ← operands 0 args
      return .status
    else if name = "breakers" then do
      let _ ← operands 0 args
      return .breakers
    else if name = "reset" then do
      match ← operands 1 args with
      | service :: _ => return .reset service
      | [] => .misunderstood (.missing "operand")
    else if name = "help" then .helpWanted
    else .misunderstood (.unknown name)

/-- What the arguments ask for; the key may also stand in the environment. -/
def read (args : List String) (environment : Option String) : Reading AdminClient := do
  let (values, rest) ← CommandLine.read flags [] args
  let command ← readCommand rest
  match valueOf? values "key" environment with
  | none => .misunderstood (.missing "key")
  | some key => return ⟨(values.lookup "url").getD defaultUrl, key, command⟩

def endpoint : AdminCommand → Method × List Char
  | .status => (.get, "/admin/status".toList)
  | .breakers => (.get, "/admin/breakers".toList)
  | .reset service => (.post, "/admin/breakers/".toList ++ service.toList ++ "/reset".toList)

/-- A URL without its user name and password. The header that they would stand in has the key. -/
def withoutUser (u : Url) : Url :=
  { u with authority := u.authority.map fun a => { a with username := [], password := [] } }

/-- The URL that a request is sent to, if there can be such a request: it needs a host under one of
the two schemes of the web, and a text that can be read as a target. A fragment is not sent. -/
def destination? (u : Url) : Option Url :=
  let u := withoutUser u
  if u.scheme ≠ "http".toList ∧ u.scheme ≠ "https".toList then none
  else if u.host?.isNone then none
  else (Uri.parse u.text).toOption.map fun _ => { u with fragment := none }

/-- The request that is sent, if the key can stand in a header and the address is that of a host. -/
def request [Idna] (c : AdminClient) : Option AdminRequest :=
  let (method, path) := endpoint c.command
  let authorization := bytesOf ("Bearer " ++ c.key)
  if isHeaderValue authorization then
    ((Url.parse (dropEnd '/' c.url.toList ++ path)).toOption.bind destination?).map fun url =>
      ⟨method, url, authorization⟩
  else none

def usage : Exit :=
  ⟨2, "", "Usage: gatehouse admin [--url <URL>] --key <KEY> <status|breakers|reset SERVICE>\n"⟩

def failed : Exit := ⟨1, "", "Error\n"⟩

/-- The status and the body of a response that is given as a line of JSON. -/
def readReply? (line : List Char) : Option (Status × Bytes) := do
  let t ← Json.read? line
  match t.get? "status", t.get? "body" with
  | some (.int n), some (.text body) => return (← Status.ofCode? n.toNat, bytesOf body)
  | _, _ => none

/-- What is printed about a response. A response that is no success is shown as it is, any other has
to be JSON. -/
def report (status : Status) (body : Bytes) : Exit :=
  if !status.isSuccess then
    let shown := (textOf? body).getD ""
    ⟨1, "", "Error: Admin API returned status " ++ .ofList status.text ++ "\nResponse: " ++ shown
      ++ "\n"⟩
  else
    match (textOf? body).bind fun s => Json.read? s.toList with
    | some t => ⟨0, Json.pretty t ++ "\n", ""⟩
    | none => failed

end AdminClient

end Gatehouse.CommandLine
