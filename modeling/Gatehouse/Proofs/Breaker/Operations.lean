import Gatehouse.Proofs.Breaker.History
import Gatehouse.Proofs.Isolation.Breakers
import Gatehouse.Proofs.Telemetry.SeriesValues

/-!
# Operations on the breakers of a registry

Everything that is done with a breaker, each with what its caller gets, and the operations of a
registry, which find the breaker of a name first. Whatever is done, the events tell the state that the
breaker is left in and the calls that it has refused.

* `Breaker.Deed`, `Breaker.perform` : what is done with a breaker, and what comes of it;
* `Breaker.Tells`, `Breaker.tells_perform` : what its events tell about the breaker;
* `Registry.Operation`, `Registry.perform` : the operations of a registry;
* `Registry.perform_of_looking`, `Registry.perform_of_deed` : what an operation does to the registry;
* `Registry.sameServices_perform` : what none does.
-/

namespace Gatehouse

namespace Breaker

inductive Deed (ε ρ : Type) where
  | tryAcquire
  /-- A call that does not wait. Its action ends with `result`, if it runs at all. -/
  | execute (result : Except ε ρ)
  /-- A call that waits. Its end is told later as a success or a failure, or never. -/
  | start
  | succeed
  | fail
  | reset
  deriving Repr

inductive Reply (ε ρ : Type) where
  /-- Whether a call may be made. -/
  | asked (granted : Bool)
  /-- The action of the call runs. -/
  | running
  | returned (result : Except (CallError ε) ρ)
  | done
  deriving Repr

variable {ε ρ : Type}

def Reply.isRefusal : Reply ε ρ → Bool
  | returned (.error .opened) => true
  | _ => false

def perform (now : Moment) (b : Breaker) : Deed ε ρ → Reply ε ρ × Breaker × List Event
  | .tryAcquire =>
    let (granted, b, events) := b.tryAcquire now
    (.asked granted, b, events)
  | .execute result =>
    let (result, b, events) := b.execute now result
    (.returned result, b, events)
  | .start =>
    match b.begin now with
    | (true, b, events) => (.running, b, events)
    | (false, b, events) => (.returned (.error .opened), b, events)
  | .succeed => (.done, b.recordSuccess now)
  | .fail => (.done, b.recordFailure now)
  | .reset => (.done, b.reset now)

end Breaker

/-! ## What events tell -/

namespace Event

variable (service : String)

@[simp] theorem states_append (events more : List Event) :
    states service (events ++ more) = states service events ++ states service more := by
  unfold states
  rw [measurements_append, List.filterMap_append]

@[simp] theorem refusals_append (events more : List Event) :
    refusals service (events ++ more) = refusals service events + refusals service more := by
  unfold refusals
  rw [measurements_append, List.countP_append]

variable {service}

section Circuit
variable {events : List Event} {state : Circuit}
  (h : measurements events = [.circuit service state]) (name : String)
include h

/-- Events that show one state show it of one service. -/
theorem states_of_circuit : states name events = if name = service then [state] else [] := by
  unfold states
  rw [h]
  by_cases hname : name = service
  · rw [if_pos hname]
    exact List.filterMap_cons_some (if_pos hname.symm)
  · rw [if_neg hname]
    exact List.filterMap_cons_none (if_neg (Ne.symm hname))

theorem refusals_of_circuit : refusals name events = 0 := by
  unfold refusals
  rw [h]
  rfl

end Circuit

/-- Events about one service tell nothing about another. -/
theorem Labelled.apart {events : List Event} (h : Labelled service events) {other : String}
    (hne : other ≠ service) : states other events = [] ∧ refusals other events = 0 := by
  constructor
  · refine List.filterMap_eq_nil_iff.mpr fun m hm => ?_
    have hlabel := h m hm
    cases m with
    | circuit name state =>
      obtain rfl : name = service := Option.some.inj hlabel
      rw [Measurement.state?_circuit, if_neg (Ne.symm hne)]
    | request method status name outcome duration => rfl
    | rateLimited => rfl
    | clients count => rfl
    | circuitRefusal name => rfl
  · refine List.countP_eq_zero.mpr fun m hm => ?_
    have hlabel := h m hm
    rw [decide_eq_true_iff]
    rintro rfl
    exact hne (Option.some.inj hlabel)

end Event

namespace Breaker

/-- Some events tell what has become of the breaker `b`: they are about its service, the state that
they show last is that of `b'`, and they count one refused call if there was one. -/
structure Tells (b b' : Breaker) (refused : Bool) (events : List Event) : Prop where
  service : b'.service = b.service
  labelled : Event.Labelled b.service events
  state : (Event.states b.service events).getLast?.getD b.circuit = b'.circuit
  refusals : Event.refusals b.service events = if refused then 1 else 0

theorem Tells.append {b b' b'' : Breaker} {refused : Bool} {events more : List Event}
    (h : Tells b b' refused events) (h' : Tells b' b'' false more) :
    Tells b b'' refused (events ++ more) where
  service := h'.service.trans h.service
  labelled := h.labelled.append (h.service ▸ h'.labelled)
  state := by
    have hstate := h'.state
    rw [h.service, ← h.state] at hstate
    rw [Event.states_append, List.getLast?_append, ← hstate]
    cases (Event.states b.service more).getLast? <;> rfl
  refusals := by
    have hrefusals := h'.refusals
    rw [h.service] at hrefusals
    rw [Event.refusals_append, h.refusals, hrefusals]
    rfl

section Deeds
variable (b : Breaker) (now : Moment)

theorem tells_nothing {b' : Breaker} (hservice : b'.service = b.service)
    (hcircuit : b'.circuit = b.circuit) : Tells b b' false [] :=
  ⟨hservice, nofun, hcircuit.symm, rfl⟩

theorem tells_gauge (b' : Breaker) (hservice : b'.service = b.service) (n : Notice) :
    Tells b b' false [.notice n, b'.gauge] where
  service := hservice
  labelled m hm := by
    obtain rfl : m = .circuit b'.service b'.circuit := List.mem_singleton.mp hm
    exact congrArg some hservice
  state := by
    have hshown : Event.measurements [.notice n, b'.gauge] = [.circuit b'.service b'.circuit] := rfl
    rw [Event.states_of_circuit hshown, if_pos hservice.symm]
    rfl
  refusals := rfl

theorem tells_tryAcquire : Tells b (b.tryAcquire now).2.1 false (b.tryAcquire now).2.2 := by
  unfold tryAcquire
  split
  · split_ifs
    · exact tells_gauge b (b.enter .halfOpen now) rfl _
    · exact tells_nothing b rfl rfl
  · exact tells_nothing b rfl rfl

theorem tells_recordSuccess : Tells b (b.recordSuccess now).1 false (b.recordSuccess now).2 := by
  unfold recordSuccess
  split
  · exact tells_nothing b rfl rfl
  · exact tells_gauge b ({ b with failures := 0 }.enter .closed now) rfl _
  · exact tells_nothing b rfl rfl

theorem tells_recordFailure : Tells b (b.recordFailure now).1 false (b.recordFailure now).2 := by
  unfold recordFailure
  dsimp only
  split_ifs
  · exact tells_gauge b ((b.counted now).enter .opened now) rfl _
  · exact tells_nothing b rfl rfl

theorem tells_record (succeeded : Bool) :
    Tells b (b.record succeeded now).1 false (b.record succeeded now).2 := by
  unfold record
  split_ifs
  · exact tells_recordSuccess b now
  · exact tells_recordFailure b now

theorem tells_reset : Tells b (b.reset now).1 false (b.reset now).2 :=
  tells_gauge b ({ b with failures := 0 }.enter .closed now) rfl _

theorem tells_begin : Tells b (b.begin now).2.1 (!(b.begin now).1) (b.begin now).2.2 := by
  have h := tells_tryAcquire b now
  unfold begin
  split
  · rename_i heq
    rw [heq] at h
    exact h
  · rename_i b' events heq
    rw [heq] at h
    refine ⟨h.service, h.labelled.append ?_, ?_, ?_⟩
    · intro m hm
      obtain rfl := List.mem_singleton.mp hm
      exact congrArg some h.service
    · rw [Event.states_append]
      refine Eq.trans ?_ h.state
      show (Event.states b.service events ++ []).getLast?.getD b.circuit = _
      rw [List.append_nil]
    · rw [Event.refusals_append, h.refusals]
      show 0 + [Measurement.circuitRefusal b'.service].countP (· = .circuitRefusal b.service) = 1
      rw [show b'.service = b.service from h.service]
      simp

theorem isRefusal_handBack (result : Except ε ρ) :
    (Reply.returned (handBack result)).isRefusal = false := by
  cases result <;> rfl

/-- **Whatever is done with a breaker, its events tell** the state that it is left in and whether a
call was refused. -/
theorem tells_perform (d : Deed ε ρ) : Tells b (b.perform now d).2.1
    (b.perform now d).1.isRefusal (b.perform now d).2.2 := by
  have hbegin := tells_begin b now
  cases d with
  | tryAcquire => exact tells_tryAcquire b now
  | execute result =>
    show Tells b (b.execute now result).2.1 (Reply.returned (b.execute now result).1).isRefusal
      (b.execute now result).2.2
    unfold execute
    rcases hb : b.begin now with ⟨granted, b', events⟩
    rw [hb] at hbegin
    cases granted with
    | true =>
      simp only [isRefusal_handBack]
      exact hbegin.append (tells_record b' now result.isOk)
    | false => exact hbegin
  | start =>
    unfold perform
    rcases hb : b.begin now with ⟨granted, b', events⟩
    rw [hb] at hbegin
    cases granted with
    | true => exact hbegin
    | false => exact hbegin
  | succeed => exact tells_recordSuccess b now
  | fail => exact tells_recordFailure b now
  | reset => exact tells_reset b now

end Deeds

end Breaker

/-! ## Registries -/

namespace Registry

inductive Operation (ε ρ : Type) where
  | on (service : String) (deed : Breaker.Deed ε ρ)
  | reset (service : String)
  | resolve (target : Url)
  | get (service : String)
  | snapshots
  deriving Repr

inductive Reply (ε ρ : Type) where
  | told (reply : Breaker.Reply ε ρ)
  /-- There is no service of that name. -/
  | unknown
  /-- Whether there was something to reset. -/
  | reset (known : Bool)
  | breaker (breaker : Option Breaker)
  | shown (snapshots : List Breaker.Snapshot)

variable {ε ρ : Type}

def perform (now : Moment) (r : Registry) : Operation ε ρ → Reply ε ρ × Registry × List Event
  | .on service d =>
    ((r.get? service).elim .unknown fun b => .told (b.perform now d).1,
      r.update service fun b => (b.perform now d).2)
  | .reset service => (.reset (r.reset service now).1, (r.reset service now).2)
  | .resolve target => (.breaker (r.resolve target), r, [])
  | .get service => (.breaker (r.get? service), r, [])
  | .snapshots => (.shown (r.snapshots now), r, [])

/-- The service that an operation is about and what is done with its breaker, if anything is done. -/
def Operation.deed? : Operation ε ρ → Option (String × Breaker.Deed ε ρ)
  | on service d => some (service, d)
  | reset service => some (service, .reset)
  | resolve _ => none
  | get _ => none
  | snapshots => none

section Perform
variable (now : Moment) (r : Registry) {o : Operation ε ρ}

/-- Looking changes nothing and tells nothing. -/
theorem perform_of_looking (ho : o.deed? = none) : (r.perform now o).2 = (r, []) := by
  cases o with
  | on service d => cases ho
  | reset service => cases ho
  | resolve target => rfl
  | get service => rfl
  | snapshots => rfl

theorem perform_of_deed {service : String} {d : Breaker.Deed ε ρ} (ho : o.deed? = some (service, d)) :
    (r.perform now o).2 = r.update service fun b => (b.perform now d).2 := by
  cases o with
  | on name d' =>
    cases ho
    rfl
  | reset name =>
    cases ho
    exact (reset_eq_update r _ now).2
  | resolve target => cases ho
  | get name => cases ho
  | snapshots => cases ho

/-- No operation adds or removes a breaker. -/
theorem sameServices_perform (o : Operation ε ρ) : (r.perform now o).2.1.SameServices r := by
  cases ho : o.deed? with
  | none =>
    rw [perform_of_looking now r ho]
    exact .refl r
  | some x =>
    rw [perform_of_deed now r ho]
    exact (near_update r x.1 _ fun b => (Breaker.tells_perform b now x.2).service).sameServices

variable {r} {service : String}

theorem perform_on_of_known {b : Breaker} (hb : r.get? service = some b) (d : Breaker.Deed ε ρ) :
    r.perform now (.on service d) =
      (.told (b.perform now d).1, r.replace (b.perform now d).2.1, (b.perform now d).2.2) := by
  simp [perform, update, hb]

theorem perform_on_of_unknown (hb : r.get? service = none) (d : Breaker.Deed ε ρ) :
    r.perform now (.on service d) = (.unknown, r, []) := by
  simp [perform, update, hb]

theorem perform_reset_of_known {b : Breaker} (hb : r.get? service = some b) :
    r.perform now (.reset service : Operation ε ρ) =
      (.reset true, r.replace (b.reset now).1, (b.reset now).2) := by
  simp [perform, Registry.reset, hb]

theorem perform_reset_of_unknown (hb : r.get? service = none) :
    r.perform now (.reset service : Operation ε ρ) = (.reset false, r, []) := by
  simp [perform, Registry.reset, hb]

end Perform

end Registry

end Gatehouse
