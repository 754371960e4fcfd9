import Gatehouse.Config.Sections
import Gatehouse.Proofs.Config.Spellings
import Mathlib.Logic.Relation

/-!
# Configurations are read back

Each section of a configuration has a schema, and so has the configuration, which is written in terms
of its sections. Configurations are read from trees here, whatever text the trees have.

* `schema` : the schema of configurations in some notation, made of those of the sections;
* `writes_of_edited` : what edits that change nothing lead to;
* `RereadLaw`, `rereadLaw` : a configuration is read back from every tree that they lead to.
-/

namespace Gatehouse.Config

open Gatehouse.Document

/-! ## The schemas -/

def Listener.schema : Schema Listener.layout where
  fields := [
    ⟨"bind_address", String, .text, .text, (·.bindAddress),
      fun v s => { s with bindAddress := v }, fun _ _ => rfl⟩]
  settings_eq := rfl
  required_le := by decide
  apart := by simp [Field.apart_iff]
  ext := by
    rintro ⟨⟩ ⟨⟩ h
    simpa using h

def Service.schema : Schema Service.layout where
  fields := [
    ⟨"name", String, .text, .text, (·.name), fun v s => { s with name := v }, fun _ _ => rfl⟩,
    ⟨"base_url", String, .text, .text, (·.baseUrl),
      fun v s => { s with baseUrl := v }, fun _ _ => rfl⟩]
  settings_eq := rfl
  required_le := by decide
  apart := by simp [Field.apart_iff]
  ext := by
    rintro ⟨⟩ ⟨⟩ h
    simpa using h

def Route.schema : Schema Route.layout where
  fields := [
    ⟨"name", String, .text, .text, (·.name), fun v s => { s with name := v }, fun _ _ => rfl⟩,
    ⟨"path_prefix", String, .text, .text, (·.pathPrefix),
      fun v s => { s with pathPrefix := v }, fun _ _ => rfl⟩,
    ⟨"service", String, .text, .text, (·.service),
      fun v s => { s with service := v }, fun _ _ => rfl⟩,
    ⟨"methods", List String, .list .text, .list .text, (·.methods),
      fun v s => { s with methods := v }, fun _ _ => rfl⟩,
    ⟨"priority", UInt32, .word32, .word32, (·.priority),
      fun v s => { s with priority := v }, fun _ _ => rfl⟩]
  settings_eq := rfl
  required_le := by decide
  apart := by simp [Field.apart_iff]
  ext := by
    rintro ⟨⟩ ⟨⟩ h
    simpa using h

def CircuitBreaker.schema : Schema CircuitBreaker.layout where
  fields := [
    ⟨"max_failures", UInt32, .word32, .word32, (·.maxFailures),
      fun v s => { s with maxFailures := v }, fun _ _ => rfl⟩,
    ⟨"open_timeout_secs", UInt64, .word64, .word64, (·.openTimeoutSecs),
      fun v s => { s with openTimeoutSecs := v }, fun _ _ => rfl⟩,
    ⟨"half_open_timeout_secs", UInt64, .word64, .word64, (·.halfOpenTimeoutSecs),
      fun v s => { s with halfOpenTimeoutSecs := v }, fun _ _ => rfl⟩]
  settings_eq := rfl
  required_le := by decide
  apart := by simp [Field.apart_iff]
  ext := by
    rintro ⟨⟩ ⟨⟩ h
    simpa using h

def RateLimit.schema : Schema RateLimit.layout where
  fields := [
    ⟨"enabled", Bool, .truth, .truth, (·.enabled),
      fun v s => { s with enabled := v }, fun _ _ => rfl⟩,
    ⟨"capacity", UInt32, .word32, .word32, (·.capacity),
      fun v s => { s with capacity := v }, fun _ _ => rfl⟩,
    ⟨"refill_per_second", Number.Binary64, .real, .real, (·.refillPerSecond),
      fun v s => { s with refillPerSecond := v }, fun _ _ => rfl⟩,
    ⟨"idle_timeout_secs", UInt64, .word64, .word64, (·.idleTimeoutSecs),
      fun v s => { s with idleTimeoutSecs := v }, fun _ _ => rfl⟩,
    ⟨"sweep_interval_secs", UInt64, .word64, .word64, (·.sweepIntervalSecs),
      fun v s => { s with sweepIntervalSecs := v }, fun _ _ => rfl⟩]
  settings_eq := rfl
  required_le := by decide
  apart := by simp [Field.apart_iff]
  ext := by
    rintro ⟨⟩ ⟨⟩ h
    simpa using h

def Timeouts.schema : Schema Timeouts.layout where
  fields := [
    ⟨"connect_secs", UInt64, .word64, .word64, (·.connectSecs),
      fun v s => { s with connectSecs := v }, fun _ _ => rfl⟩,
    ⟨"upstream_secs", UInt64, .word64, .word64, (·.backendSecs),
      fun v s => { s with backendSecs := v }, fun _ _ => rfl⟩,
    ⟨"request_secs", UInt64, .word64, .word64, (·.requestSecs),
      fun v s => { s with requestSecs := v }, fun _ _ => rfl⟩]
  settings_eq := rfl
  required_le := by decide
  apart := by simp [Field.apart_iff]
  ext := by
    rintro ⟨⟩ ⟨⟩ h
    simpa using h

def Proxy.schema : Schema Proxy.layout where
  fields := [
    ⟨"strip_prefix", String, .text, .text, (·.stripPrefix),
      fun v s => { s with stripPrefix := v }, fun _ _ => rfl⟩,
    ⟨"strip_client_identity", Bool, .truth, .truth, (·.stripClientIdentity),
      fun v s => { s with stripClientIdentity := v }, fun _ _ => rfl⟩]
  settings_eq := rfl
  required_le := by decide
  apart := by simp [Field.apart_iff]
  ext := by
    rintro ⟨⟩ ⟨⟩ h
    simpa using h

def Observability.schema : Schema Observability.layout where
  fields := [
    ⟨"log_level", String, .text, .text, (·.logLevel),
      fun v s => { s with logLevel := v }, fun _ _ => rfl⟩,
    ⟨"metrics_enabled", Bool, .truth, .truth, (·.metricsEnabled),
      fun v s => { s with metricsEnabled := v }, fun _ _ => rfl⟩,
    ⟨"metrics_address", String, .text, .text, (·.metricsAddress),
      fun v s => { s with metricsAddress := v }, fun _ _ => rfl⟩]
  settings_eq := rfl
  required_le := by decide
  apart := by simp [Field.apart_iff]
  ext := by
    rintro ⟨⟩ ⟨⟩ h
    simpa using h

def Admin.schema : Schema Admin.layout where
  fields := [
    ⟨"enabled", Bool, .truth, .truth, (·.enabled),
      fun v s => { s with enabled := v }, fun _ _ => rfl⟩,
    ⟨"api_key", String, .text, .text,
      (·.apiKey), fun v s => { s with apiKey := v }, fun _ _ => rfl⟩]
  settings_eq := rfl
  required_le := by decide
  apart := by simp [Field.apart_iff]
  ext := by
    rintro ⟨⟩ ⟨⟩ h
    simpa using h

/-- A configuration is written in terms of its sections, each in a way of its own. -/
def schema (n : Notation) : Schema (layout n) where
  fields := [
    ⟨"listener", Listener, Listener.layout.codec n, Listener.schema.spelling n, (·.listener),
      fun v s => { s with listener := v }, fun _ _ => rfl⟩,
    ⟨"services", List Service, .list (Service.layout.codec n), .list (Service.schema.spelling n),
      (·.services), fun v s => { s with services := v }, fun _ _ => rfl⟩,
    ⟨"routes", List Route, .list (Route.layout.codec n), .list (Route.schema.spelling n),
      (·.routes), fun v s => { s with routes := v }, fun _ _ => rfl⟩,
    ⟨"circuit_breaker", CircuitBreaker, CircuitBreaker.layout.codec n,
      CircuitBreaker.schema.spelling n, (·.circuitBreaker),
      fun v s => { s with circuitBreaker := v }, fun _ _ => rfl⟩,
    ⟨"rate_limit", RateLimit, RateLimit.layout.codec n, RateLimit.schema.spelling n, (·.rateLimit),
      fun v s => { s with rateLimit := v }, fun _ _ => rfl⟩,
    ⟨"timeouts", Timeouts, Timeouts.layout.codec n, Timeouts.schema.spelling n, (·.timeouts),
      fun v s => { s with timeouts := v }, fun _ _ => rfl⟩,
    ⟨"proxy", Proxy, Proxy.layout.codec n, Proxy.schema.spelling n, (·.proxy),
      fun v s => { s with proxy := v }, fun _ _ => rfl⟩,
    ⟨"observability", Observability, Observability.layout.codec n, Observability.schema.spelling n,
      (·.observability), fun v s => { s with observability := v }, fun _ _ => rfl⟩,
    ⟨"admin", Admin, Admin.layout.codec n, Admin.schema.spelling n, (·.admin),
      fun v s => { s with admin := v }, fun _ _ => rfl⟩]
  settings_eq := rfl
  required_le := Nat.zero_le _
  apart := by simp [Field.apart_iff]
  ext := by
    rintro ⟨⟩ ⟨⟩ h
    simpa using h

/-! ## The law -/

/-- What is read from a configuration that is written as a tree, and edited. -/
structure RereadLaw (n : Notation) (c : Config) : Prop where
  /-- The configuration is read back from the tree that it is written to, -/
  reread : (codec n).decode ((codec n).encode c) = .ok c
  /-- from every tree that edits lead to which change nothing, wherever in the tree and however many
  there are, -/
  edited : ∀ t, Relation.ReflTransGen ((schema n).Edits c) ((codec n).encode c) t →
    (codec n).decode t = .ok c
  /-- and from whatever it may be written as. -/
  decode_eq : ∀ t, (schema n).Writes c t → (codec n).decode t = .ok c

/-- A configuration that is edited so is written still. -/
theorem writes_of_edited {n : Notation} {c : Config} {t : Tree}
    (h : Relation.ReflTransGen ((schema n).Edits c) ((codec n).encode c) t) :
    (schema n).Writes c t := by
  induction h with
  | refl => exact (schema n).writes_encode n c
  | tail _ hedit ih => exact (schema n).writes_of_edits ih hedit

/-- **A configuration is read back from the tree that it is written to**, and from every tree that the
edits lead to. -/
theorem rereadLaw (n : Notation) (c : Config) : RereadLaw n c where
  reread := (schema n).decode_of_writes n ((schema n).writes_encode n c)
  edited _ h := (schema n).decode_of_writes n (writes_of_edited h)
  decode_eq _ h := (schema n).decode_of_writes n h

/-- A service is written as a list, and everything else that has a default is left out. -/
example : (codec .toml).decode (.table [("comment", .null),
    ("services", .list [.list [.text "auth", .text "http://auth-service:3001"]])]) =
    .ok { (default : Config) with services := [⟨"auth", "http://auth-service:3001"⟩] } := rfl

end Gatehouse.Config
