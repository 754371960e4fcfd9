import Gatehouse.Config.Basic
import Gatehouse.Config.Codec

/-!
# The sections of a configuration

Which settings there are, what they are called, and in which order they come. `Config.codec` reads a
whole configuration from a tree and writes one.
-/

namespace Gatehouse

open Gatehouse.Document

namespace Config

def Listener.layout : Section Listener where
  title := "ListenerConfig"
  required := 0
  settings := [setting "bind_address" .text (·.bindAddress) fun v s => { s with bindAddress := v }]
  start := default

def Service.layout : Section Service where
  title := "ServiceConfig"
  required := 2
  settings := [
    setting "name" .text (·.name) fun v s => { s with name := v },
    setting "base_url" .text (·.baseUrl) fun v s => { s with baseUrl := v }]
  start := ⟨"", ""⟩

def Route.layout : Section Route where
  title := "RouteConfig"
  required := 3
  settings := [
    setting "name" .text (·.name) fun v s => { s with name := v },
    setting "path_prefix" .text (·.pathPrefix) fun v s => { s with pathPrefix := v },
    setting "service" .text (·.service) fun v s => { s with service := v },
    setting "methods" (.list .text) (·.methods) fun v s => { s with methods := v },
    setting "priority" .word32 (·.priority) fun v s => { s with priority := v }]
  start := ⟨"", "", "", [], 0⟩

def CircuitBreaker.layout : Section CircuitBreaker where
  title := "CircuitBreakerConfig"
  required := 0
  settings := [
    setting "max_failures" .word32 (·.maxFailures) fun v s => { s with maxFailures := v },
    setting "open_timeout_secs" .word64 (·.openTimeoutSecs) fun v s =>
      { s with openTimeoutSecs := v },
    setting "half_open_timeout_secs" .word64 (·.halfOpenTimeoutSecs) fun v s =>
      { s with halfOpenTimeoutSecs := v }]
  start := default

def RateLimit.layout : Section RateLimit where
  title := "RateLimitConfig"
  required := 0
  settings := [
    setting "enabled" .truth (·.enabled) fun v s => { s with enabled := v },
    setting "capacity" .word32 (·.capacity) fun v s => { s with capacity := v },
    setting "refill_per_second" .real (·.refillPerSecond) fun v s =>
      { s with refillPerSecond := v },
    setting "idle_timeout_secs" .word64 (·.idleTimeoutSecs) fun v s =>
      { s with idleTimeoutSecs := v },
    setting "sweep_interval_secs" .word64 (·.sweepIntervalSecs) fun v s =>
      { s with sweepIntervalSecs := v }]
  start := default

def Timeouts.layout : Section Timeouts where
  title := "TimeoutConfig"
  required := 0
  settings := [
    setting "connect_secs" .word64 (·.connectSecs) fun v s => { s with connectSecs := v },
    setting "upstream_secs" .word64 (·.backendSecs) fun v s => { s with backendSecs := v },
    setting "request_secs" .word64 (·.requestSecs) fun v s => { s with requestSecs := v }]
  start := default

def Proxy.layout : Section Proxy where
  title := "ProxySettings"
  required := 0
  settings := [
    setting "strip_prefix" .text (·.stripPrefix) fun v s => { s with stripPrefix := v },
    setting "strip_client_identity" .truth (·.stripClientIdentity) fun v s =>
      { s with stripClientIdentity := v }]
  start := default

def Observability.layout : Section Observability where
  title := "ObservabilityConfig"
  required := 0
  settings := [
    setting "log_level" .text (·.logLevel) fun v s => { s with logLevel := v },
    setting "metrics_enabled" .truth (·.metricsEnabled) fun v s => { s with metricsEnabled := v },
    setting "metrics_address" .text (·.metricsAddress) fun v s => { s with metricsAddress := v }]
  start := default

def Admin.layout : Section Admin where
  title := "AdminConfig"
  required := 0
  settings := [
    setting "enabled" .truth (·.enabled) fun v s => { s with enabled := v },
    setting "api_key" .text (·.apiKey) fun v s => { s with apiKey := v }]
  start := default

def layout (n : Notation) : Section Config where
  title := "GatewayConfig"
  required := 0
  settings := [
    setting "listener" (Listener.layout.codec n) (·.listener) fun v s => { s with listener := v },
    setting "services" (.list (Service.layout.codec n)) (·.services) fun v s =>
      { s with services := v },
    setting "routes" (.list (Route.layout.codec n)) (·.routes) fun v s => { s with routes := v },
    setting "circuit_breaker" (CircuitBreaker.layout.codec n) (·.circuitBreaker) fun v s =>
      { s with circuitBreaker := v },
    setting "rate_limit" (RateLimit.layout.codec n) (·.rateLimit) fun v s =>
      { s with rateLimit := v },
    setting "timeouts" (Timeouts.layout.codec n) (·.timeouts) fun v s => { s with timeouts := v },
    setting "proxy" (Proxy.layout.codec n) (·.proxy) fun v s => { s with proxy := v },
    setting "observability" (Observability.layout.codec n) (·.observability) fun v s =>
      { s with observability := v },
    setting "admin" (Admin.layout.codec n) (·.admin) fun v s => { s with admin := v }]
  start := default

/-- How a configuration is read from a tree in some notation, and written to one. -/
def codec (n : Notation) : Codec Config := (layout n).codec n

end Config

end Gatehouse
