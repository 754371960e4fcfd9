import Gatehouse.Gateway.Run
import Mathlib.Data.List.Induction
import Mathlib.Data.List.TakeWhile

/-!
# Signals to stop

A gateway subscribes before it starts, and its sweeper when the gateway starts. A signal after the
start reaches both. A signal before it tells the gateway to stop and never reaches the sweeper, and
then the gateway waits for its sweeper without end.

* `Runner.Change` : what a step can do;
* `Runner.Reached` : how far a run has come, read off its actions;
* `Runner.coordinator` : the coordinator and the waiters behind a running gateway;
* `Runner.Stranded` : the gateway waits for a sweeper that has not been told;
* `Runner.signalLaw` : when a gateway is stranded, and when it stops.
-/

namespace Gatehouse.Runner

/-! ## One step -/

/-- What a step can do while the coordinator is there. -/
inductive Change (r : Runner) : Action → Runner → Prop where
  | signalled : Change r .trigger { r with signals := r.signals + 1 }
  | started (hp : r.phase = .waiting) :
    Change r .start { r with phase := .starting, sweeperSince := some r.signals, sweeping := true }
  | served (hp : r.phase = .starting) : Change r .serve { r with phase := .serving }
  | told (hp : r.phase = .serving) (hs : r.since < r.signals) :
    Change r .look { r with phase := .joining }
  | sweeperTold {since : Nat} (hw : r.sweeping = true) (hk : r.sweeperSince = some since)
    (hs : since < r.signals) : Change r .sweeperLook { r with sweeping := false }
  | joined (hp : r.phase = .joining) (hw : r.sweeping = false) :
    Change r .join { r with phase := .stopped }
  | idle {a : Action} (htrigger : a ≠ .trigger) (hclose : a ≠ .close)
    (hstart : a = .start → r.phase ≠ .waiting)
    (hlook : a = .look → r.phase = .serving → r.signals ≤ r.since)
    (hsweeper : a = .sweeperLook → r.sweeping = true → ∀ k ∈ r.sweeperSince, r.signals ≤ k) :
    Change r a r

theorem released_of_live {r : Runner} (hlive : r.live = true) (since : Nat) :
    r.released since = decide (since < r.signals) := by
  simp [released, hlive]

theorem change_step {r : Runner} (hlive : r.live = true) {a : Action} (ha : a ≠ .close) :
    Change r a (r.step a) := by
  cases a with
  | trigger =>
    simp only [step, hlive, if_true]
    exact hlive ▸ .signalled
  | close => contradiction
  | start =>
    by_cases hp : r.phase = .waiting
    · simp only [step, if_pos hp]
      exact .started hp
    · simp only [step, if_neg hp]
      exact .idle (by simp) (by simp) (fun _ => hp) (by simp) (by simp)
  | serve =>
    by_cases hp : r.phase = .starting
    · simp only [step, if_pos hp]
      exact .served hp
    · simp only [step, if_neg hp]
      exact .idle (by simp) (by simp) (by simp) (by simp) (by simp)
  | look =>
    simp only [step, released_of_live hlive, decide_eq_true_eq]
    by_cases hp : r.phase = .serving ∧ r.since < r.signals
    · rw [if_pos hp]
      exact .told hp.1 hp.2
    · rw [if_neg hp]
      have hlook : r.phase = .serving → r.signals ≤ r.since := fun hs =>
        Nat.le_of_not_lt fun h => hp ⟨hs, h⟩
      exact .idle (by simp) (by simp) (by simp) (fun _ => hlook) (by simp)
  | sweeperLook =>
    by_cases hp : r.sweeping = true ∧ r.sweeperSince.any r.released = true
    · simp only [step, if_pos hp]
      obtain ⟨k, hk, hs⟩ := Option.any_eq_true _ _ |>.mp hp.2
      rw [released_of_live hlive, decide_eq_true_eq] at hs
      exact .sweeperTold hp.1 hk hs
    · simp only [step, if_neg hp]
      refine .idle (by simp) (by simp) (by simp) (by simp) fun _ hw k hk => ?_
      refine Nat.le_of_not_lt fun hs => hp ⟨hw, ?_⟩
      rw [Option.mem_def.mp hk, Option.any_some, released_of_live hlive, decide_eq_true_eq]
      exact hs
  | join =>
    by_cases hp : r.phase = .joining ∧ (!r.sweeping) = true
    · simp only [step, if_pos hp]
      exact .joined hp.1 (by simpa using hp.2)
    · simp only [step, if_neg hp]
      exact .idle (by simp) (by simp) (by simp) (by simp) (by simp)

/-! ## Runs -/

/-- The start and the actions after it. -/
def sinceStart (actions : List Action) : List Action := actions.dropWhile (· ≠ .start)

theorem sinceStart_of_not_mem {actions : List Action} (h : .start ∉ actions) :
    sinceStart actions = [] := by
  unfold sinceStart
  rw [List.dropWhile_eq_nil_iff]
  intro a ha
  exact decide_eq_true fun hs => h (hs ▸ ha)

theorem sinceStart_concat (actions : List Action) (a : Action) :
    sinceStart (actions ++ [a]) =
      if .start ∈ actions then sinceStart actions ++ [a] else if a = .start then [a] else [] := by
  by_cases h : .start ∈ actions
  · have hne : (sinceStart actions).isEmpty = false := by
      rw [List.isEmpty_eq_false_iff]
      intro hnil
      have hall := List.dropWhile_eq_nil_iff.mp hnil .start h
      simp at hall
    unfold sinceStart at hne ⊢
    rw [List.dropWhile_append, hne, if_pos h, if_neg Bool.false_ne_true]
  · have hnil := sinceStart_of_not_mem h
    unfold sinceStart at hnil ⊢
    rw [List.dropWhile_append, hnil, if_neg h, List.isEmpty_nil, if_pos rfl]
    by_cases ha : a = .start <;> simp [ha]

theorem count_sinceStart_le (actions : List Action) :
    (sinceStart actions).count .trigger ≤ actions.count .trigger :=
  (List.dropWhile_sublist _).count_le _

/-- How far a run has come whose gateway subscribed after `first` signals. -/
structure Reached (first : Nat) (actions : List Action) (r : Runner) : Prop where
  live : r.live = true
  since : r.since = first
  signals : r.signals = first + actions.count .trigger
  waiting_iff : r.phase = .waiting ↔ .start ∉ actions
  sweeping_of : r.sweeping = true → .start ∈ actions
  /-- The sweeper sees the signals since the start, and no others. -/
  sweeperSince : .start ∈ actions →
    ∃ k, r.sweeperSince = some k ∧ r.signals = k + (sinceStart actions).count .trigger
  /-- A sweeper that has stopped was told. -/
  swept : .start ∈ actions → r.sweeping = false → .trigger ∈ sinceStart actions
  /-- A gateway that serves no more was told. -/
  left : r.phase = .joining ∨ r.phase = .stopped → .trigger ∈ actions
  stopped : r.phase = .stopped → r.sweeping = false

theorem reached_subscribed (first : Nat) : Reached first [] (subscribed first) where
  live := rfl
  since := rfl
  signals := rfl
  waiting_iff := iff_of_true rfl List.not_mem_nil
  sweeping_of h := absurd h Bool.false_ne_true
  sweeperSince h := absurd h List.not_mem_nil
  swept h := absurd h List.not_mem_nil
  left h := by simp [subscribed] at h
  stopped _ := rfl

namespace Reached

variable {first : Nat} {actions : List Action} {r r' : Runner} {a : Action}

theorem started_of (h : Reached first actions r) (hp : r.phase ≠ .waiting) : .start ∈ actions := by
  by_contra hno
  exact hp (h.waiting_iff.mpr hno)

/-- An action that is neither a signal nor the start leaves the subscriptions as they are. -/
theorem concat (h : Reached first actions r) (ha : a ≠ .trigger)
    (hstart : a = .start → .start ∈ actions) : Reached first (actions ++ [a]) r := by
  have hmem : .start ∈ actions ++ [a] ↔ .start ∈ actions := by
    rw [List.mem_append, List.mem_singleton]
    exact ⟨fun hs => hs.elim id fun hs => hstart hs.symm, .inl⟩
  have hcount : (actions ++ [a]).count .trigger = actions.count .trigger := by
    rw [List.count_append, List.count_singleton, if_neg (by simpa using ha), Nat.add_zero]
  have hsince : .start ∈ actions → sinceStart (actions ++ [a]) = sinceStart actions ++ [a] := by
    intro hs
    rw [sinceStart_concat, if_pos hs]
  exact {
    live := h.live
    since := h.since
    signals := by rw [hcount]; exact h.signals
    waiting_iff := by rw [hmem]; exact h.waiting_iff
    sweeping_of := fun hw => hmem.mpr (h.sweeping_of hw)
    sweeperSince := by
      intro hs
      obtain ⟨k, hk, hcountk⟩ := h.sweeperSince (hmem.mp hs)
      refine ⟨k, hk, ?_⟩
      rw [hsince (hmem.mp hs), List.count_append, List.count_singleton, if_neg (by simpa using ha)]
      exact hcountk
    swept := by
      intro hs hw
      rw [hsince (hmem.mp hs)]
      exact List.mem_append_left _ (h.swept (hmem.mp hs) hw)
    left := fun hp => List.mem_append_left _ (h.left hp)
    stopped := h.stopped }

theorem change (h : Reached first actions r) (hc : Change r a r') :
    Reached first (actions ++ [a]) r' := by
  cases hc with
  | signalled =>
    have hmem : .start ∈ actions ++ [Action.trigger] ↔ .start ∈ actions := by simp
    exact {
      live := h.live
      since := h.since
      signals := by
        rw [List.count_append, List.count_singleton_self, ← Nat.add_assoc, ← h.signals]
      waiting_iff := by rw [hmem]; exact h.waiting_iff
      sweeping_of := fun hw => hmem.mpr (h.sweeping_of hw)
      sweeperSince := by
        intro hs
        obtain ⟨k, hk, hcount⟩ := h.sweeperSince (hmem.mp hs)
        refine ⟨k, hk, ?_⟩
        rw [sinceStart_concat, if_pos (hmem.mp hs), List.count_append, List.count_singleton_self,
          ← Nat.add_assoc, ← hcount]
      swept := by
        intro hs _
        rw [sinceStart_concat, if_pos (hmem.mp hs)]
        exact List.mem_append_right _ (List.mem_singleton_self _)
      left := fun _ => List.mem_append_right _ (List.mem_singleton_self _)
      stopped := h.stopped }
  | started hp =>
    have hno : .start ∉ actions := h.waiting_iff.mp hp
    have hsince : sinceStart (actions ++ [Action.start]) = [.start] := by
      rw [sinceStart_concat, if_neg hno, if_pos rfl]
    exact {
      live := h.live
      since := h.since
      signals := by simpa using h.signals
      waiting_iff := by simp
      sweeping_of := fun _ => List.mem_append_right _ (List.mem_singleton_self _)
      sweeperSince := fun _ => ⟨r.signals, rfl, by rw [hsince]; simp⟩
      swept := fun _ hw => absurd hw (by simp)
      left := fun hl => by simp at hl
      stopped := fun hl => by simp at hl }
  | served hp =>
    have hs : .start ∈ actions := h.started_of (by simp [hp])
    have h' : Reached first (actions ++ [.serve]) r := h.concat (by simp) (by simp)
    exact { h' with
      waiting_iff := iff_of_false (by simp) (by simp [hs])
      left := fun hl => by simp at hl
      stopped := fun hl => by simp at hl }
  | told hp hs =>
    have hmem : .start ∈ actions := h.started_of (by simp [hp])
    have h' : Reached first (actions ++ [.look]) r := h.concat (by simp) (by simp)
    have htrigger : .trigger ∈ actions := by
      rw [← List.count_pos_iff]
      have hsignals := h.signals
      have hsince := h.since
      omega
    exact { h' with
      waiting_iff := iff_of_false (by simp) (by simp [hmem])
      left := fun _ => List.mem_append_left _ htrigger
      stopped := fun hl => by simp at hl }
  | sweeperTold hw hk hs =>
    have hmem : .start ∈ actions := h.sweeping_of hw
    have h' : Reached first (actions ++ [.sweeperLook]) r := h.concat (by simp) (by simp)
    have htrigger : .trigger ∈ sinceStart actions := by
      obtain ⟨k, hk', hcount⟩ := h.sweeperSince hmem
      obtain rfl := Option.some.inj (hk.symm.trans hk')
      rw [← List.count_pos_iff]
      omega
    exact { h' with
      sweeping_of := fun hf => absurd hf (by simp)
      swept := by
        intro _ _
        rw [sinceStart_concat, if_pos hmem]
        exact List.mem_append_left _ htrigger
      stopped := fun _ => rfl }
  | joined hp hw =>
    have hmem : .start ∈ actions := h.started_of (by simp [hp])
    have h' : Reached first (actions ++ [.join]) r := h.concat (by simp) (by simp)
    exact { h' with
      waiting_iff := iff_of_false (by simp) (by simp [hmem])
      left := fun _ => h'.left (.inl hp)
      stopped := fun _ => hw }
  | idle htrigger _ hstart _ _ => exact h.concat htrigger fun ha => h.started_of (hstart ha)

end Reached

theorem run_concat (r : Runner) (actions : List Action) (a : Action) :
    r.run (actions ++ [a]) = (r.run actions).step a :=
  List.foldl_append

theorem reached_run (first : Nat) (actions : List Action) (hlive : .close ∉ actions) :
    Reached first actions ((subscribed first).run actions) := by
  induction actions using List.reverseRecOn with
  | nil => exact reached_subscribed first
  | append_singleton actions a ih =>
    rw [List.mem_append, List.mem_singleton, not_or] at hlive
    have h := ih hlive.1
    rw [run_concat]
    exact h.change (change_step h.live (Ne.symm hlive.2))

/-! ## The coordinator -/

/-- The coordinator behind a running gateway. The gateway is its waiter `0` as long as it serves,
the sweeper its waiter `1` from the start until it stops. -/
def coordinator (r : Runner) : Shutdown where
  live := r.live
  signals := r.signals
  nextId := if r.phase = .waiting then 1 else 2
  waiters :=
    (if r.phase = .joining ∨ r.phase = .stopped then [] else [⟨0, r.since⟩]) ++
      if r.sweeping then [⟨1, r.sweeperSince.getD 0⟩] else []

/-- What the coordinator sees of an action. -/
def seen (r : Runner) : Action → List Shutdown.Action
  | .trigger => [.trigger]
  | .close => [.close]
  | .start => if r.phase = .waiting then [.subscribe] else []
  | .look => if r.phase = .serving then [.poll 0] else []
  | .sweeperLook => [.poll 1]
  | .serve | .join => []

def seenOf (r : Runner) : List Action → List Shutdown.Action
  | [] => []
  | a :: actions => r.seen a ++ seenOf (r.step a) actions

theorem seenOf_concat (r : Runner) (actions : List Action) (a : Action) :
    r.seenOf (actions ++ [a]) = r.seenOf actions ++ (r.run actions).seen a := by
  induction actions generalizing r with
  | nil => simp [seenOf, run]
  | cons b actions ih => simp [seenOf, run, ih]

theorem waiter?_gateway (r : Runner) :
    r.coordinator.waiter? 0 =
      if r.phase = .joining ∨ r.phase = .stopped then none else some ⟨0, r.since⟩ := by
  simp only [Shutdown.waiter?, coordinator, List.find?_append]
  cases r.sweeping <;> split <;> simp

theorem waiter?_sweeper (r : Runner) :
    r.coordinator.waiter? 1 = if r.sweeping then some ⟨1, r.sweeperSince.getD 0⟩ else none := by
  simp only [Shutdown.waiter?, coordinator, List.find?_append]
  cases r.sweeping <;> split <;> simp

theorem remove_gateway {r : Runner} (hp : r.phase = .serving) :
    r.coordinator.remove 0 = { r with phase := .joining }.coordinator := by
  unfold Shutdown.remove coordinator
  cases r.sweeping <;> simp [hp]

theorem remove_sweeper (r : Runner) :
    r.coordinator.remove 1 = { r with sweeping := false }.coordinator := by
  unfold Shutdown.remove coordinator
  cases r.sweeping <;> cases r.phase <;> simp

theorem releases_coordinator {r : Runner} (hlive : r.live = true) (w : Waiter) :
    r.coordinator.releases w = decide (w.since < r.signals) := by
  simp [Shutdown.releases, coordinator, hlive]

theorem coordinator_change {first : Nat} {actions : List Action} {r r' : Runner} {a : Action}
    (h : Reached first actions r) (hc : Change r a r') :
    r'.coordinator = (r.seen a).foldl Shutdown.step r.coordinator := by
  cases hc with
  | signalled => simp [seen, Shutdown.step, Shutdown.trigger, coordinator, h.live]
  | started hp =>
    have hw : r.sweeping = false := by
      by_contra hw
      rw [Bool.not_eq_false] at hw
      exact h.waiting_iff.mp hp (h.sweeping_of hw)
    simp [seen, Shutdown.step, Shutdown.subscribe, coordinator, h.live, hp, hw]
  | served hp => simp [seen, coordinator, hp]
  | told hp hs =>
    simp [seen, Shutdown.step, Shutdown.poll, waiter?_gateway, releases_coordinator h.live,
      remove_gateway, hp, hs]
  | sweeperTold hw hk hs =>
    simp [seen, Shutdown.step, Shutdown.poll, waiter?_sweeper, releases_coordinator h.live,
      remove_sweeper, hw, hk, hs]
  | joined hp hw => simp [seen, coordinator, hp, hw]
  | idle htrigger hclose hstart hlook hsweeper =>
    cases a with
    | trigger => contradiction
    | close => contradiction
    | start => simp [seen, hstart rfl]
    | serve => rfl
    | look =>
      by_cases hp : r.phase = .serving
      · simp [seen, Shutdown.step, Shutdown.poll, waiter?_gateway, releases_coordinator h.live, hp,
          Nat.not_lt.mpr (hlook rfl hp)]
      · simp [seen, hp]
    | sweeperLook =>
      cases hw : r.sweeping with
      | false => simp [seen, Shutdown.step, Shutdown.poll, waiter?_sweeper, hw]
      | true =>
        obtain ⟨k, hk, -⟩ := h.sweeperSince (h.sweeping_of hw)
        simp [seen, Shutdown.step, Shutdown.poll, waiter?_sweeper, releases_coordinator h.live, hw,
          hk, Nat.not_lt.mpr (hsweeper rfl hw k hk)]
    | join => rfl

/-- A run of the gateway is a run of the coordinator and its waiters. -/
theorem coordinator_run (first : Nat) (actions : List Action) (hlive : .close ∉ actions) :
    ((subscribed first).run actions).coordinator =
      ((subscribed first).seenOf actions).foldl Shutdown.step (subscribed first).coordinator := by
  induction actions using List.reverseRecOn with
  | nil => rfl
  | append_singleton actions a ih =>
    rw [List.mem_append, List.mem_singleton, not_or] at hlive
    have h := reached_run first actions hlive.1
    rw [run_concat, seenOf_concat, List.foldl_append, ← ih hlive.1]
    exact coordinator_change h (change_step h.live (Ne.symm hlive.2))

/-! ## Stranded gateways -/

/-- The gateway serves no more and waits for its sweeper, which has not stopped and has no signal
to stop for. -/
def Stranded (r : Runner) : Prop :=
  r.phase = .joining ∧ r.sweeping = true ∧ ∀ k ∈ r.sweeperSince, r.released k = false

/-- What becomes of signals in a run of a gateway that subscribed after `first` of them. -/
structure SignalLaw (first : Nat) (actions : List Action) (r : Runner) : Prop where
  /-- The gateway and the sweeper are waiters of one coordinator. -/
  coordinator : r.coordinator =
    ((subscribed first).seenOf actions).foldl Shutdown.step (subscribed first).coordinator
  /-- The gateway stops only when it is told. -/
  told : r.phase = .joining ∨ r.phase = .stopped → .trigger ∈ actions
  /-- It is stranded when no signal came after its start. -/
  stranded_iff : r.Stranded ↔ r.phase = .joining ∧ .trigger ∉ sinceStart actions
  /-- Then the sweeper is a waiter that is not released. -/
  poll_of_stranded : r.Stranded → (r.coordinator.poll 1).1 = some false
  /-- Only another signal can help. -/
  stays : r.Stranded → ∀ more : List Action, .trigger ∉ more → .close ∉ more → r.run more = r
  /-- A signal after the start stops the gateway and its sweeper, once they look. -/
  stops : .trigger ∈ sinceStart actions →
    (r.run [.serve, .look, .sweeperLook, .join]).phase = .stopped

namespace Reached

variable {first : Nat} {actions : List Action} {r : Runner}

theorem stranded_iff (h : Reached first actions r) :
    r.Stranded ↔ r.phase = .joining ∧ .trigger ∉ sinceStart actions := by
  unfold Stranded
  refine and_congr_right fun hp => ?_
  have hs : .start ∈ actions := h.started_of (by simp [hp])
  obtain ⟨k, hk, hcount⟩ := h.sweeperSince hs
  simp only [hk, Option.mem_def, Option.some.injEq, forall_eq', released_of_live h.live,
    decide_eq_false_iff_not]
  constructor
  · rintro ⟨-, hno⟩ htrigger
    rw [← List.count_pos_iff] at htrigger
    omega
  · intro hno
    refine ⟨?_, ?_⟩
    · by_contra hw
      exact hno (h.swept hs (Bool.not_eq_true _ ▸ hw))
    · rw [← List.count_eq_zero] at hno
      omega

theorem stops (h : Reached first actions r) (htrigger : .trigger ∈ sinceStart actions) :
    (r.run [.serve, .look, .sweeperLook, .join]).phase = .stopped := by
  have hs : .start ∈ actions := by
    by_contra hno
    rw [sinceStart_of_not_mem hno] at htrigger
    cases htrigger
  obtain ⟨k, hk, hcount⟩ := h.sweeperSince hs
  have hle := count_sinceStart_le actions
  rw [← List.count_pos_iff] at htrigger
  have hsweeper : k < r.signals := by omega
  have hgateway : r.since < r.signals := by
    have hsince := h.since
    have hsignals := h.signals
    omega
  have hstarted : r.phase ≠ .waiting := fun hp => h.waiting_iff.mp hp hs
  cases hp : r.phase with
  | waiting => contradiction
  | starting | serving | joining | stopped =>
    cases hw : r.sweeping <;>
      simp [run, step, released, hp, hw, hk, h.live, hsweeper, hgateway]

end Reached

theorem Stranded.step {r : Runner} (h : r.Stranded) {a : Action} (htrigger : a ≠ .trigger)
    (hclose : a ≠ .close) : r.step a = r := by
  obtain ⟨hp, hw, hno⟩ := h
  cases a with
  | trigger | close => contradiction
  | start | serve | look => simp [Runner.step, hp]
  | sweeperLook =>
    have hany : r.sweeperSince.any r.released = false := by
      cases hk : r.sweeperSince with
      | none => rfl
      | some k => exact hno k hk
    simp [Runner.step, hany]
  | join => simp [Runner.step, hw]

theorem Stranded.run {r : Runner} (h : r.Stranded) {more : List Action} (htrigger : .trigger ∉ more)
    (hclose : .close ∉ more) : r.run more = r := by
  induction more with
  | nil => rfl
  | cons a more ih =>
    rw [List.mem_cons, not_or] at htrigger hclose
    show (r.step a).run more = r
    rw [h.step (Ne.symm htrigger.1) (Ne.symm hclose.1)]
    exact ih htrigger.2 hclose.2

theorem Stranded.poll {first : Nat} {actions : List Action} {r : Runner}
    (hr : Reached first actions r) (h : r.Stranded) : (r.coordinator.poll 1).1 = some false := by
  obtain ⟨-, hw, hno⟩ := h
  obtain ⟨k, hk, -⟩ := hr.sweeperSince (hr.sweeping_of hw)
  have hk' := hno k hk
  rw [released_of_live hr.live] at hk'
  simp [Shutdown.poll, waiter?_sweeper, releases_coordinator hr.live, hw, hk, hk']

/-- **A signal is lost on the sweeper exactly when it comes before the start**, and on no one
else. -/
theorem signalLaw (first : Nat) (actions : List Action) (hlive : .close ∉ actions) :
    SignalLaw first actions ((subscribed first).run actions) := by
  have h := reached_run first actions hlive
  exact {
    coordinator := coordinator_run first actions hlive
    told := h.left
    stranded_iff := h.stranded_iff
    poll_of_stranded := fun hs => hs.poll h
    stays := fun hs _ htrigger hclose => hs.run htrigger hclose
    stops := h.stops }

/-- A signal between the subscription and the start. -/
def earlySignal : List Action := [.trigger, .start, .serve, .look]

/-- The gateway has left and its sweeper has not been told; the coordinator sees two subscriptions
with a signal between them, and a look at the first. -/
theorem signalLaw_earlySignal :
    .close ∉ earlySignal ∧
      (subscribed 0).seenOf earlySignal = [.trigger, .subscribe, .poll 0] ∧
      ((subscribed 0).run earlySignal).coordinator = ⟨true, 1, 2, [⟨1, 1⟩]⟩ ∧
      SignalLaw 0 earlySignal ((subscribed 0).run earlySignal) := by
  have hlive : .close ∉ earlySignal := by decide
  exact ⟨hlive, by decide, by decide, signalLaw 0 earlySignal hlive⟩

/-- A signal after the subscription can leave the gateway waiting for a sweeper that has neither got
it nor stopped. -/
theorem stranded_earlySignal :
    ¬ ∀ (first : Nat) (actions : List Action), .close ∉ actions → .trigger ∈ actions →
      ¬ ((subscribed first).run actions).Stranded := by
  intro hclaim
  refine hclaim 0 earlySignal (by decide) (by decide) ⟨by decide, by decide, ?_⟩
  intro k hk
  obtain rfl : 1 = k := Option.some.inj hk
  decide

end Gatehouse.Runner
