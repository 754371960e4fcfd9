import Gatehouse.Proofs.Breaker.Registry

/-!
# Breakers apart from those of one service

What is done with the breaker of a service shows at that breaker and in measurements that carry its
name. `Near service` relates two registries that are the same apart from the breaker of `service`.

* `Measurement.service?`, `Event.Labelled` : the service that a measurement is about;
* `Registry.SameServices` : the same services, whatever their breakers do;
* `Registry.Near` : the same apart from the breaker of one service;
* `Registry.near_replace`, `Registry.near_update` : an operation on a breaker seen from the others;
* `Registry.Near.replace`, `Registry.Near.update` : an operation done on both sides.
-/

namespace Gatehouse

/-! ## Labels -/

def Measurement.service? : Measurement → Option String
  | request _ _ service _ _ => some service
  | circuit service _ => some service
  | circuitRefusal service => some service
  | rateLimited => none
  | clients _ => none

namespace Event

/-- All measurements among some events are about one service. -/
def Labelled (service : String) (events : List Event) : Prop :=
  ∀ m ∈ measurements events, m.service? = some service

@[simp] theorem measurements_nil : measurements [] = [] := rfl

@[simp] theorem measurements_notice (n : Notice) (events : List Event) :
    measurements (.notice n :: events) = measurements events := rfl

@[simp] theorem measurements_measurement (m : Measurement) (events : List Event) :
    measurements (.measurement m :: events) = m :: measurements events := rfl

@[simp] theorem measurements_append (events more : List Event) :
    measurements (events ++ more) = measurements events ++ measurements more :=
  List.filterMap_append

theorem Labelled.append {service : String} {events more : List Event} (h : Labelled service events)
    (hm : Labelled service more) : Labelled service (events ++ more) := by
  intro m hmem
  rw [measurements_append] at hmem
  rcases List.mem_append.mp hmem with hmem | hmem
  · exact h m hmem
  · exact hm m hmem

/-- Notices are about no service in particular. -/
theorem labelled_of_measurements_eq_nil {events : List Event} (h : measurements events = [])
    (service : String) : Labelled service events := by
  intro m hm
  rw [h] at hm
  cases hm

end Event

namespace Breaker

variable (b : Breaker) (now : Moment)

theorem labelled_tryAcquire : Event.Labelled b.service (b.tryAcquire now).2.2 := by
  unfold tryAcquire Event.Labelled
  split
  · split
    · simp [gauge, enter, Measurement.service?]
    · simp
  · simp

theorem labelled_begin : Event.Labelled b.service (b.begin now).2.2 := by
  have h := labelled_tryAcquire b now
  have hs := service_tryAcquire b now
  unfold begin
  split
  · rename_i he
    rw [he] at h
    exact h
  · rename_i he
    rw [he] at h hs
    refine h.append ?_
    intro m hm
    obtain rfl : m = .circuitRefusal _ := List.mem_singleton.mp hm
    exact congrArg some hs

theorem labelled_recordSuccess : Event.Labelled b.service (b.recordSuccess now).2 := by
  unfold recordSuccess Event.Labelled
  split <;> simp [gauge, enter, Measurement.service?]

theorem labelled_recordFailure : Event.Labelled b.service (b.recordFailure now).2 := by
  unfold recordFailure Event.Labelled
  simp only
  split <;> simp [gauge, enter, Measurement.service?]

theorem labelled_record (succeeded : Bool) : Event.Labelled b.service (b.record succeeded now).2 := by
  unfold record
  split
  · exact labelled_recordSuccess b now
  · exact labelled_recordFailure b now

theorem labelled_reset : Event.Labelled b.service (b.reset now).2 := by
  unfold reset Event.Labelled
  simp [gauge, enter, Measurement.service?]

end Breaker

/-! ## Registries -/

namespace Registry

/-- There are the same services, each with a breaker or without one as before. -/
structure SameServices (r₁ r₂ : Registry) : Prop where
  entries : r₁.entries = r₂.entries
  isSome : ∀ name, (r₁.get? name).isSome = (r₂.get? name).isSome

theorem SameServices.refl (r : Registry) : SameServices r r := ⟨rfl, fun _ => rfl⟩

theorem SameServices.trans {r₁ r₂ r₃ : Registry} (h : SameServices r₁ r₂) (h' : SameServices r₂ r₃) :
    SameServices r₁ r₃ :=
  ⟨h.entries.trans h'.entries, fun name => (h.isSome name).trans (h'.isSome name)⟩

theorem SameServices.serviceName {r₁ r₂ : Registry} (h : SameServices r₁ r₂) (target : Url) :
    r₁.serviceName target = r₂.serviceName target := by
  unfold Registry.serviceName serviceOf?
  rw [h.entries]

/-- The same services, and the same breakers but for that of `service`. -/
structure Near (service : String) (r₁ r₂ : Registry) : Prop where
  entries : r₁.entries = r₂.entries
  get? : ∀ name, name ≠ service → r₁.get? name = r₂.get? name
  isSome : (r₁.get? service).isSome = (r₂.get? service).isSome

namespace Near

variable {service : String} {r₁ r₂ r₃ : Registry}

theorem refl (service : String) (r : Registry) : Near service r r := ⟨rfl, fun _ _ => rfl, rfl⟩

theorem symm (h : Near service r₁ r₂) : Near service r₂ r₁ :=
  ⟨h.entries.symm, fun name hn => (h.get? name hn).symm, h.isSome.symm⟩

theorem trans (h : Near service r₁ r₂) (h' : Near service r₂ r₃) : Near service r₁ r₃ :=
  ⟨h.entries.trans h'.entries, fun name hn => (h.get? name hn).trans (h'.get? name hn),
    h.isSome.trans h'.isSome⟩

theorem sameServices (h : Near service r₁ r₂) : SameServices r₁ r₂ := by
  refine ⟨h.entries, fun name => ?_⟩
  by_cases hn : name = service
  · rw [hn]
    exact h.isSome
  · rw [h.get? name hn]

theorem resolve (h : Near service r₁ r₂) {target : Url} (hn : r₂.serviceName target ≠ service) :
    r₁.resolve target = r₂.resolve target := by
  unfold Registry.resolve
  rw [h.sameServices.serviceName target]
  exact h.get? _ hn

end Near

theorem near_replace (r : Registry) (b : Breaker) : Near b.service (r.replace b) r := by
  refine ⟨rfl, fun name hn => ?_, ?_⟩
  · rw [get?_replace, if_neg hn]
  · rw [get?_replace, if_pos rfl, Option.isSome_map]

theorem near_update (r : Registry) (service : String) (operation : Breaker → Breaker × List Event)
    (hop : ∀ b, (operation b).1.service = b.service) :
    Near service (r.update service operation).1 r := by
  refine ⟨entries_update r service operation, fun name hn => ?_, ?_⟩
  · rw [get?_update r service operation hop, if_neg hn]
  · rw [get?_update r service operation hop, if_pos rfl, Option.isSome_map]

theorem labelled_update (r : Registry) (service : String)
    {operation : Breaker → Breaker × List Event}
    (hop : ∀ b, Event.Labelled b.service (operation b).2) :
    Event.Labelled service (r.update service operation).2 := by
  unfold update
  split
  · rename_i b hb
    rw [← service_of_get? hb]
    exact hop b
  · exact Event.labelled_of_measurements_eq_nil rfl service

namespace Near

variable {service : String} {r₁ r₂ : Registry}

theorem replace (h : Near service r₁ r₂) (b : Breaker) :
    Near service (r₁.replace b) (r₂.replace b) := by
  refine ⟨h.entries, fun name hn => ?_, ?_⟩
  · rw [get?_replace, get?_replace, h.get? name hn]
  · rw [get?_replace, get?_replace]
    split_ifs
    · rw [Option.isSome_map, Option.isSome_map, h.isSome]
    · exact h.isSome

theorem update (h : Near service r₁ r₂) (name : String)
    {operation : Breaker → Breaker × List Event}
    (hop : ∀ b, (operation b).1.service = b.service) :
    Near service (r₁.update name operation).1 (r₂.update name operation).1 := by
  by_cases hn : name = service
  · subst hn
    exact ((near_update r₁ name operation hop).trans h).trans (near_update r₂ name operation hop).symm
  · have he : r₁.get? name = r₂.get? name := h.get? name hn
    unfold Registry.update
    rw [he]
    cases r₂.get? name with
    | none => exact h
    | some b => exact h.replace _

theorem update_snd (h : Near service r₁ r₂) {name : String} (hn : name ≠ service)
    (operation : Breaker → Breaker × List Event) :
    (r₁.update name operation).2 = (r₂.update name operation).2 := by
  unfold Registry.update
  rw [h.get? name hn]
  split <;> rfl

end Near

end Registry

end Gatehouse
