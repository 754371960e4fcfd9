import Gatehouse.Config.Basic
import Gatehouse.Http.Token
import Gatehouse.Net.Address
import Gatehouse.Text.Record
import Gatehouse.Url.Parser

/-!
# Validity of a configuration

A configuration that can be read may still make no sense: a route to nowhere, a timeout of zero.
`Config.problems` lists everything that is wrong with one, section by section; a configuration is
valid when there is nothing.

* `BaseUrlProblem` : what makes an address unusable for a service;
* `Problem` : everything else, and `Problem.message` its wording;
* `Config.problems`, `Config.isValid`.
-/

namespace Gatehouse

open Gatehouse.Http Gatehouse.Text

namespace Config

/-- What makes an address unusable as the base URL of a service. -/
inductive BaseUrlProblem where
  | malformed (error : Url.ParseError)
  | unsupportedScheme (scheme : List Char)
  | missingHost
  | hasQuery
  deriving DecidableEq, Repr

def BaseUrlProblem.message : BaseUrlProblem → String
  | malformed error => error.message
  | unsupportedScheme scheme => "unsupported scheme '" ++ .ofList scheme ++ "'"
  | missingHost => "missing host"
  | hasQuery => "query strings are not allowed"

/-- What is wrong with the address of a service, if anything. -/
def baseUrlProblem? [Idna] (s : String) : Option BaseUrlProblem :=
  match Url.parse s.toList with
  | .error e => some (.malformed e)
  | .ok u =>
    if u.scheme ≠ "http".toList ∧ u.scheme ≠ "https".toList then some (.unsupportedScheme u.scheme)
    else if u.hostText?.isNone then some .missingHost
    else if u.query.isSome then some .hasQuery
    else none

inductive PositiveSetting where
  | maxFailures
  | openTimeout
  | capacity
  | refill
  | idleTimeout
  | sweepInterval
  | connectTimeout
  | backendTimeout
  | requestTimeout
  deriving DecidableEq, Repr

def PositiveSetting.name : PositiveSetting → String
  | maxFailures => "circuit_breaker.max_failures"
  | openTimeout => "circuit_breaker.open_timeout_secs"
  | capacity => "rate_limit.capacity"
  | refill => "rate_limit.refill_per_second"
  | idleTimeout => "rate_limit.idle_timeout_secs"
  | sweepInterval => "rate_limit.sweep_interval_secs"
  | connectTimeout => "timeouts.connect_secs"
  | backendTimeout => "timeouts.upstream_secs"
  | requestTimeout => "timeouts.request_secs"

inductive Problem where
  | bindAddress (address : String)
  | duplicateService (name : String)
  | emptyServiceName
  | baseUrl (service url : String) (reason : BaseUrlProblem)
  | unknownService (route service : String)
  | pathPrefix (route : String)
  | method (route method : String)
  | notPositive (setting : PositiveSetting)
  | requestTimeout (request backend : UInt64)
  | stripPrefix (value : String)
  | missingAdminKey
  deriving DecidableEq, Repr

namespace Problem

def tag : Problem → String
  | bindAddress _ => "BindAddress"
  | duplicateService _ => "DuplicateService"
  | emptyServiceName => "EmptyServiceName"
  | baseUrl .. => "BaseUrl"
  | unknownService .. => "UnknownService"
  | pathPrefix _ => "PathPrefix"
  | method .. => "Method"
  | notPositive _ => "NotPositive"
  | requestTimeout .. => "RequestTimeout"
  | stripPrefix _ => "StripPrefix"
  | missingAdminKey => "MissingAdminKey"

def message : Problem → String
  | bindAddress address => "invalid listener bind address '" ++ address ++ "'"
  | duplicateService name => "service '" ++ name ++ "' is defined more than once"
  | emptyServiceName => "service name must not be empty"
  | baseUrl service url reason =>
    "service '" ++ service ++ "' has invalid base_url '" ++ url ++ "': " ++ reason.message
  | unknownService route service =>
    "route '" ++ route ++ "' references unknown service '" ++ service ++ "'"
  | pathPrefix route => "route '" ++ route ++ "' path_prefix must start with '/'"
  | method route entry => "route '" ++ route ++ "' has invalid method '" ++ entry ++ "'"
  | notPositive setting => setting.name ++ " must be greater than zero"
  | requestTimeout request backend =>
    "timeouts.request_secs (" ++ .ofList (decimal request.toNat)
      ++ ") must exceed timeouts.upstream_secs (" ++ .ofList (decimal backend.toNat) ++ ")"
  | stripPrefix value =>
    "proxy.strip_prefix '" ++ value ++ "' must start with '/' and not end with '/'"
  | missingAdminKey => "admin.api_key must be set when the admin API is enabled"

/-- A problem in short, for those who look for its cause. -/
def detail (p : Problem) : List Char :=
  match p with
  | emptyServiceName | missingAdminKey => p.tag.toList
  | bindAddress s | duplicateService s | pathPrefix s | stripPrefix s => tuple p.tag [shown s]
  | notPositive setting => tuple p.tag [shown setting.name]
  | baseUrl service url reason =>
    record p.tag [("name", shown service), ("url", shown url), ("reason", shown reason.message)]
  | unknownService route service =>
    record p.tag [("route", shown route), ("service", shown service)]
  | method route entry => record p.tag [("route", shown route), ("method", shown entry)]
  | requestTimeout request backend =>
    record p.tag
      [("request_secs", decimal request.toNat), ("upstream_secs", decimal backend.toNat)]

end Problem

/-- `p` as a list, when `condition` holds. -/
def when (condition : Bool) (p : Problem) : List Problem := if condition then [p] else []

/-- The method that a route entry names. Its letters are taken in upper case. -/
def method? (entry : String) : Option Method := Method.ofText? (upper entry.toList)

namespace Listener

def problems (l : Listener) : List Problem :=
  when (Net.Endpoint.parse? l.bindAddress.toList).isNone (.bindAddress l.bindAddress)

end Listener

namespace Service

/-- What is wrong with a service that comes after others of the given names. -/
def problems [Idna] (names : List String) (s : Service) : List Problem :=
  when s.name.isEmpty .emptyServiceName
    ++ when (!s.name.isEmpty && names.contains s.name) (.duplicateService s.name)
    ++ ((baseUrlProblem? s.baseUrl).map (Problem.baseUrl s.name s.baseUrl)).toList

/-- What is wrong with some services, `names` being those of the services before them. -/
def allProblems [Idna] (names : List String) : List Service → List Problem
  | [] => []
  | s :: rest => s.problems names ++ allProblems (s.name :: names) rest

end Service

namespace Route

/-- What is wrong with a route to one of the services of the given names. -/
def problems (names : List String) (r : Route) : List Problem :=
  when (!names.contains r.service) (.unknownService r.name r.service)
    ++ when (r.pathPrefix.toList.head? ≠ some '/') (.pathPrefix r.name)
    ++ (r.methods.filter fun m => (method? m).isNone).map (Problem.method r.name)

end Route

namespace CircuitBreaker

def problems (c : CircuitBreaker) : List Problem :=
  when (c.maxFailures = 0) (.notPositive .maxFailures)
    ++ when (c.openTimeoutSecs = 0) (.notPositive .openTimeout)

end CircuitBreaker

namespace RateLimit

/-- What is wrong with the rate limit. One that is off cannot be wrong. -/
def problems (r : RateLimit) : List Problem :=
  if r.enabled then
    when (r.capacity = 0) (.notPositive .capacity)
      ++ when (!r.refillPerSecond.isPositive) (.notPositive .refill)
      ++ when (r.idleTimeoutSecs = 0) (.notPositive .idleTimeout)
      ++ when (r.sweepIntervalSecs = 0) (.notPositive .sweepInterval)
  else []

end RateLimit

namespace Timeouts

/-- What is wrong with the timeouts. A whole request has to be given more time than its backend. -/
def problems (t : Timeouts) : List Problem :=
  when (t.connectSecs = 0) (.notPositive .connectTimeout)
    ++ when (t.backendSecs = 0) (.notPositive .backendTimeout)
    ++ when (t.requestSecs = 0) (.notPositive .requestTimeout)
    ++ when (0 < t.backendSecs ∧ 0 < t.requestSecs ∧ t.requestSecs ≤ t.backendSecs)
        (.requestTimeout t.requestSecs t.backendSecs)

end Timeouts

namespace Proxy

/-- Whether a prefix can be stripped: it is empty, or starts with a slash and does not end with
one. -/
def isStrippable (p : List Char) : Bool :=
  p.isEmpty || (p.head? = some '/' && p.getLast? ≠ some '/')

def problems (p : Proxy) : List Problem :=
  when (!isStrippable p.stripPrefix.toList) (.stripPrefix p.stripPrefix)

end Proxy

namespace Admin

def problems (a : Admin) : List Problem :=
  when (a.enabled && a.apiKey.isEmpty) .missingAdminKey

end Admin

def serviceNames (c : Config) : List String := (c.services.map (·.name)).filter (!·.isEmpty)

/-- Everything that is wrong with a configuration. -/
def problems [Idna] (c : Config) : List Problem :=
  c.listener.problems
    ++ Service.allProblems [] c.services
    ++ c.routes.flatMap (Route.problems c.serviceNames)
    ++ c.circuitBreaker.problems
    ++ c.rateLimit.problems
    ++ c.timeouts.problems
    ++ c.proxy.problems
    ++ c.admin.problems

def isValid [Idna] (c : Config) : Bool := c.problems.isEmpty

end Config

end Gatehouse
