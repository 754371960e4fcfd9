import Gatehouse.Breaker.Registry
import Gatehouse.Proofs.Breaker.History
import Mathlib.Tactic.SplitIfs

/-!
# The breakers of a registry by name

A registry is a table from names to breakers. Each operation is said here for every name: what it
does to the breaker of that name, which is nothing unless the name is its own.

* `get?_replace`, `get?_update` : the breaker of a name after an operation;
* `entries_update` : what no operation changes;
* `reset_eq_update` : a reset as such an operation;
* `resolve_service` : a target is guarded by the breaker of its service name.
-/

namespace Gatehouse

namespace Breaker

variable (b : Breaker) (now : Moment)

/-! ## A breaker keeps its service -/

@[simp] theorem service_tryAcquire : (b.tryAcquire now).2.1.service = b.service := by
  unfold tryAcquire
  split
  · split
    · rfl
    · rfl
  · rfl

/-- A call that asks learns what `tryAcquire` says, and the breaker is left as it leaves it. -/
theorem begin_eq : (b.begin now).1 = (b.tryAcquire now).1 ∧
    (b.begin now).2.1 = (b.tryAcquire now).2.1 := by
  unfold begin
  split
  · rename_i h
    rw [h]
    exact ⟨rfl, rfl⟩
  · rename_i h
    rw [h]
    exact ⟨rfl, rfl⟩

@[simp] theorem service_begin : (b.begin now).2.1.service = b.service := by
  rw [(begin_eq b now).2, service_tryAcquire]

@[simp] theorem service_recordSuccess : (b.recordSuccess now).1.service = b.service := by
  unfold recordSuccess
  split <;> rfl

@[simp] theorem service_recordFailure : (b.recordFailure now).1.service = b.service := by
  unfold recordFailure
  simp only
  split <;> rfl

@[simp] theorem service_record (succeeded : Bool) :
    (b.record succeeded now).1.service = b.service := by
  unfold record
  split
  · exact service_recordSuccess b now
  · exact service_recordFailure b now

@[simp] theorem service_reset : (b.reset now).1.service = b.service := rfl

end Breaker

namespace Registry

variable (r : Registry)

/-! ## Reading -/

variable {r} in
theorem service_of_get? {name : String} {b : Breaker} (h : r.get? name = some b) :
    b.service = name := by
  have hb := List.find?_some (p := fun c : Breaker => decide (c.service = name)) h
  exact of_decide_eq_true hb

variable {r} in
theorem resolve_service {target : Url} {b : Breaker} (h : r.resolve target = some b) :
    b.service = r.serviceName target :=
  service_of_get? h

/-! ## Writing -/

theorem get?_replace (b : Breaker) (name : String) :
    (r.replace b).get? name =
      if name = b.service then (r.get? name).map fun _ => b else r.get? name := by
  unfold get? replace
  rw [List.find?_map]
  have hp : ((fun c : Breaker => decide (c.service = name)) ∘
      fun c => if c.service = b.service then b else c) = fun c => decide (c.service = name) := by
    funext c
    simp only [Function.comp]
    split_ifs with hc
    · rw [hc]
    · rfl
  rw [hp]
  split_ifs with hn
  · cases hf : r.breakers.find? fun c => decide (c.service = name) with
    | none => rfl
    | some c =>
      have hc : c.service = name := service_of_get? hf
      rw [Option.map_some, Option.map_some, if_pos (hc.trans hn)]
  · cases hf : r.breakers.find? fun c => decide (c.service = name) with
    | none => rfl
    | some c =>
      have hc : c.service = name := service_of_get? hf
      rw [Option.map_some, if_neg (hc ▸ hn)]

theorem get?_replace_self {b : Breaker} (h : r.get? b.service = some b) (name : String) :
    (r.replace b).get? name = r.get? name := by
  rw [get?_replace]
  split_ifs with hn
  · rw [hn, h, Option.map_some]
  · rfl

section Update
variable (service : String) (operation : Breaker → Breaker × List Event)

theorem get?_update (hop : ∀ b, (operation b).1.service = b.service) (name : String) :
    (r.update service operation).1.get? name =
      if name = service then (r.get? name).map fun b => (operation b).1 else r.get? name := by
  unfold update
  cases hb : r.get? service with
  | none =>
    split_ifs with hn
    · rw [hn, hb]
      rfl
    · rfl
  | some b =>
    have hs : (operation b).1.service = service := (hop b).trans (service_of_get? hb)
    simp only
    rw [get?_replace, hs]
    split_ifs with hn
    · rw [hn, hb, Option.map_some, Option.map_some]
    · rfl

@[simp] theorem entries_update : (r.update service operation).1.entries = r.entries := by
  unfold update
  split <;> rfl

end Update

theorem reset_eq_update (r : Registry) (service : String) (now : Moment) :
    (r.reset service now).1 = (r.get? service).isSome ∧
      (r.reset service now).2 = r.update service fun b => b.reset now := by
  unfold reset update
  cases r.get? service with
  | none => exact ⟨rfl, rfl⟩
  | some b => exact ⟨rfl, rfl⟩

end Registry

end Gatehouse
