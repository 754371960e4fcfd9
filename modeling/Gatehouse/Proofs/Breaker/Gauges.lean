import Gatehouse.Proofs.Breaker.Operations
import Gatehouse.Proofs.Gateway.GuardedTargets

/-!
# The gauges of the breakers

A breaker shows its state by a gauge and counts the calls that it refuses. The gauge is set where the
state changes and nowhere else, so it is right after an operation if it was right before and the
operation tells what it does.

* `Registry.Log` : a registry and everything that it has told since it was made;
* `Registry.Log.Truthful` : what was told last about each breaker is its state;
* `Registry.Log.Truthful.step` : every operation keeps this;
* `Registry.Log.truthful_ofServices` : a new registry is truthful, whatever names come twice;
* `Registry.refusedCalls` : the calls to a service that a history shows to be refused;
* `Registry.gaugeLaw` : the two series of each breaker after every run.
-/

namespace Gatehouse.Registry

/-- A registry and what it has told. -/
structure Log where
  registry : Registry
  events : List Event

variable {ε ρ : Type}

def Operation.isRefusal (service : String) : Operation ε ρ → Reply ε ρ → Bool
  | .on name _, .told reply => name = service && reply.isRefusal
  | _, _ => false

namespace Log

def ofServices [Idna] (services : List (String × String)) (settings : Breaker.Settings)
    (now : Moment) : Log :=
  ⟨(Registry.ofServices services settings now).1, (Registry.ofServices services settings now).2⟩

def step (now : Moment) (l : Log) (o : Operation ε ρ) : Log :=
  ⟨(l.registry.perform now o).2.1, l.events ++ (l.registry.perform now o).2.2⟩

/-- What was told last about the breaker of a name is its state, nothing was told about a name that
has none, and the calls that were told to be refused are `refused`. -/
structure Truthful (refused : String → Nat) (l : Log) : Prop where
  shown : ∀ name, (Event.states name l.events).getLast? = (l.registry.get? name).map (·.circuit)
  counted : ∀ name, Event.refusals name l.events = refused name

namespace Truthful

variable {refused : String → Nat} {l : Log} (h : l.Truthful refused)
include h

theorem quiet (events : List Event) (hquiet : Event.measurements events = []) {r : Registry}
    (hr : r.get? = l.registry.get?) : Truthful refused ⟨r, l.events ++ events⟩ where
  shown name := by
    have hnone : Event.states name events = [] := by
      unfold Event.states
      rw [hquiet]
      rfl
    rw [Event.states_append, hnone, List.append_nil, hr]
    exact h.shown name
  counted name := by
    have hnone : Event.refusals name events = 0 := by
      unfold Event.refusals
      rw [hquiet]
      rfl
    rw [Event.refusals_append, hnone]
    exact h.counted name

theorem replace {service : String} {b b' : Breaker} {again : Bool} {events : List Event}
    (hb : l.registry.get? service = some b) (htells : Breaker.Tells b b' again events) :
    Truthful (fun name => refused name + if name = service ∧ again then 1 else 0)
      ⟨l.registry.replace b', l.events ++ events⟩ := by
  obtain rfl := service_of_get? hb
  constructor
  · intro name
    rw [Event.states_append, List.getLast?_append, h.shown, get?_replace, htells.service]
    by_cases hname : name = b.service
    · subst hname
      rw [if_pos rfl, hb, Option.map_some, Option.map_some, Option.map_some, ← htells.state]
      cases (Event.states b.service events).getLast? <;> rfl
    · rw [if_neg hname, (htells.labelled.apart hname).1]
      rfl
  · intro name
    rw [Event.refusals_append, h.counted]
    by_cases hname : name = b.service
    · subst hname
      rw [htells.refusals]
      simp
    · rw [(htells.labelled.apart hname).2, if_neg fun hand => hname hand.1]

/-- **Every operation keeps a log truthful.** -/
theorem step (now : Moment) (o : Operation ε ρ) :
    Truthful (fun name => refused name +
        if o.isRefusal name (l.registry.perform now o).1 then 1 else 0) (l.step now o) := by
  unfold Log.step
  cases o with
  | on service d =>
    cases hb : l.registry.get? service with
    | none =>
      rw [perform_on_of_unknown now hb d]
      exact h.quiet [] rfl rfl
    | some b =>
      rw [perform_on_of_known now hb d]
      convert h.replace hb (Breaker.tells_perform b now d) using 5 with name
      rw [Operation.isRefusal, Bool.and_eq_true, decide_eq_true_iff, eq_comm]
  | reset service =>
    cases hb : l.registry.get? service with
    | none =>
      rw [perform_reset_of_unknown now hb]
      exact h.quiet [] rfl rfl
    | some b =>
      rw [perform_reset_of_known now hb]
      convert h.replace hb (Breaker.tells_reset b now) using 5 with name
      simp [Operation.isRefusal]
  | resolve target => exact h.quiet [] rfl rfl
  | get service => exact h.quiet [] rfl rfl
  | snapshots => exact h.quiet [] rfl rfl

end Truthful

/-! ## New registries -/

theorem measurements_add [Idna] (settings : Breaker.Settings) (now : Moment) (service base : String)
    (r : Registry) : Event.measurements (r.add settings now service base).2 =
      if (r.get? service).isNone then [.circuit service .closed] else [] := by
  unfold Registry.add
  cases r.get? service <;> cases (Url.parse base.toList).toOption <;> rfl

theorem Truthful.add [Idna] {l : Log} (h : l.Truthful fun _ => 0) (settings : Breaker.Settings)
    (now : Moment) (service base : String) :
    Truthful (fun _ => 0) ⟨(l.registry.add settings now service base).1,
      l.events ++ (l.registry.add settings now service base).2⟩ := by
  have hget : ∀ name, (l.registry.add settings now service base).1.get? name =
      (l.registry.get? name).or
        (if name = service then some (Breaker.new name settings now) else none) :=
    get?_add settings now service base l.registry
  have hevents := measurements_add settings now service base l.registry
  cases hb : l.registry.get? service with
  | some b =>
    rw [hb] at hevents
    refine h.quiet _ hevents (funext fun name => ?_)
    rw [hget]
    split_ifs with hname
    · rw [hname, hb, Option.some_or]
    · exact Option.or_none
  | none =>
    rw [hb, Option.isNone_none, if_pos rfl] at hevents
    refine ⟨fun name => ?_, fun name => ?_⟩
    · rw [Event.states_append, List.getLast?_append, h.shown, Event.states_of_circuit hevents, hget]
      by_cases hname : name = service
      · rw [if_pos hname, if_pos hname, hname, hb]
        rfl
      · rw [if_neg hname, if_neg hname, Option.or_none]
        rfl
    · rw [Event.refusals_append, Event.refusals_of_circuit hevents]
      exact h.counted name

/-- A new registry is truthful, whatever its services are called. -/
theorem truthful_ofServices [Idna] (services : List (String × String)) (settings : Breaker.Settings)
    (now : Moment) : (ofServices services settings now).Truthful fun _ => 0 := by
  have h := List.foldlRecOn services
    (fun (x : Registry × List Event) s =>
      ((x.1.add settings now s.1 s.2).1, x.2 ++ (x.1.add settings now s.1 s.2).2))
    (motive := fun x => Truthful (fun _ => 0) ⟨x.1, x.2⟩) (b := (⟨[], []⟩, []))
    ⟨fun _ => rfl, fun _ => rfl⟩ fun x hx s _ => hx.add settings now s.1 s.2
  exact h.quiet [.notice .circuitsReady] rfl rfl

end Log

/-! ## Runs -/

/-- The calls to a service that were refused among some operations. -/
def refusedCalls (service : String) (history : List (Occurrence Log (Operation ε ρ))) : Nat :=
  history.countP fun o =>
    o.action.isRefusal service (o.before.registry.perform o.moment o.action).1

theorem Log.truthful_run [Idna] (services : List (String × String)) (settings : Breaker.Settings)
    (start : Moment) (moves : List (Move (Operation ε ρ))) :
    Truthful
      (fun name => refusedCalls name
        ((Instant.mk start (ofServices services settings start)).history step moves))
      ((Instant.mk start (ofServices services settings start)).run step moves).state := by
  refine Instant.history_induction step
    (P := fun history _ l => Truthful (fun name => refusedCalls name history) l)
    ⟨start, ofServices services settings start⟩ (truthful_ofServices services settings start)
    (fun _ _ _ _ h => h) ?_ moves
  intro history now l o h
  have hstep := h.step now o
  refine ⟨hstep.shown, fun name => (hstep.counted name).trans ?_⟩
  unfold refusedCalls
  rw [List.countP_append, List.countP_singleton]

theorem Log.sameServices_run (l : Log) (start : Moment) (moves : List (Move (Operation ε ρ))) :
    ((Instant.mk start l).run step moves).state.registry.SameServices l.registry :=
  Instant.history_induction step (P := fun _ _ t => t.registry.SameServices l.registry) ⟨start, l⟩
    (.refl _) (fun _ _ _ _ h => h) (fun _ now t o h => (sameServices_perform now t.registry o).trans h)
    moves

/-- The series about the breakers of `configured` on the page `m`, when the breakers of `r` have
refused the calls `refused`. -/
structure GaugeLaw (configured : List String) (refused : String → Nat) (r : Registry)
    (m : Metrics) : Prop where
  /-- There is one series at most for each name with labels. -/
  ordered : m.Ordered
  /-- Each name that was given has a breaker, however often it was given, and no other name. -/
  known_iff : ∀ name, (r.get? name).isSome = true ↔ name ∈ configured
  /-- The gauge of a name shows the state of its breaker as a number. -/
  gauge : ∀ name b, r.get? name = some b →
    m.reading? Metrics.circuitState [("service", name)] = some (.gauge b.circuit.gauge)
  /-- There is no gauge for another name. -/
  absent : ∀ name, name ∉ configured →
    m.reading? Metrics.circuitState [("service", name)] = none
  /-- The counter of a name says how many of its calls were refused, once there is one. -/
  refusals : ∀ name, m.reading? Metrics.circuitRefusals [("service", name)] =
    if refused name = 0 then none else some (.counter (refused name))

/-- **The gauges tell the truth.** -/
theorem gaugeLaw [Idna] (services : List (String × String)) (settings : Breaker.Settings)
    (start : Moment) (moves : List (Move (Operation ε ρ))) :
    GaugeLaw (services.map Prod.fst)
      (fun name => refusedCalls name
        ((Instant.mk start (Log.ofServices services settings start)).history Log.step moves))
      ((Instant.mk start (Log.ofServices services settings start)).run Log.step moves).state.registry
      (Metrics.ofEvents
        ((Instant.mk start (Log.ofServices services settings start)).run Log.step
          moves).state.events) := by
  have h := Log.truthful_run services settings start moves
  have hknown := isSome_get?_iff
    (Log.sameServices_run (Log.ofServices services settings start) start moves)
  refine ⟨Metrics.ordered_ofMeasurements _, hknown, ?_, ?_, ?_⟩
  · intro name b hb
    rw [Metrics.reading?_circuitState, h.shown, hb]
    rfl
  · intro name hname
    have hnone := Option.not_isSome_iff_eq_none.mp fun hb => hname ((hknown name).mp hb)
    rw [Metrics.reading?_circuitState, h.shown, hnone]
    rfl
  · intro name
    rw [Metrics.reading?_circuitRefusals, h.counted]

end Gatehouse.Registry
