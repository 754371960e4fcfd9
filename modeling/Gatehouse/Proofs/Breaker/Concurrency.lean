import Gatehouse.Breaker.Call
import Gatehouse.Proofs.Breaker.Coherence
import Gatehouse.Proofs.Breaker.Registry
import Mathlib.Data.List.Nodup

/-!
# Concurrent calls through one breaker

Between the moment at which a call is let through and the moment at which it reports there may be
any number of other calls. The breaker never learns which call a report comes from; still it hears
of every call that ends, once, and of no other.

* `Change`, `change_use` : everything that a use of the calls may do;
* `endings`, `fates` : the reports in the order in which they come, and what becomes of the calls in
  the order in which they start;
* `endings_perm` : the reports are those of the calls that end;
* `run_breakerMoves`, `recorded_breakerMoves` : what the breaker goes through meanwhile;
* `failures_run` : how its count grows;
* `breaker_execute` : a call that does not wait;
* `CallLaw`, `callLaw` : all of it, for every run.
-/

namespace Gatehouse.Calls

open Gatehouse.Breaker (handBack maxCount)

variable {ε ρ : Type}

def act (now : Moment) (cs : Calls) (u : Use ε ρ) : Calls := (cs.use now u).2.1

/-- What came of an action. -/
def reply (o : Occurrence Calls (Use ε ρ)) : Reply ε ρ := (o.before.use o.moment o.action).1

section Runs
variable (service : String) (settings : Breaker.Settings) (start : Moment)

def fresh : Instant Calls := ⟨start, ⟨Breaker.new service settings start, []⟩⟩

def run (moves : List (Move (Use ε ρ))) : Instant Calls :=
  (fresh service settings start).run act moves

def past (moves : List (Move (Use ε ρ))) : List (Occurrence Calls (Use ε ρ)) :=
  (fresh service settings start).history act moves

end Runs

/-! ## One use -/

/-- How a breaker is told a result. -/
def recording (result : Except ε ρ) : Breaker.Action := if result.isOk then .succeed else .fail

/-- What a use of the calls at `now` may come to. -/
inductive Change (now : Moment) (cs : Calls) : Use ε ρ → Reply ε ρ → Calls → Prop
  | admitted {name : String} (h : cs.breaker.refuses now = false) :
    Change now cs (.start name) .running
      ⟨cs.breaker.act now .tryAcquire, name :: (cs.leave name).waiting⟩
  | refused {name : String} (h : cs.breaker.refuses now = true) :
    Change now cs (.start name) (.returned (.error .opened)) (cs.leave name)
  | finished {name : String} {result : Except ε ρ} (h : name ∈ cs.waiting) :
    Change now cs (.finish name result) (.returned (handBack result))
      ⟨cs.breaker.act now (recording result), (cs.leave name).waiting⟩
  | unknown {name : String} {result : Except ε ρ} (h : name ∉ cs.waiting) :
    Change now cs (.finish name result) .unknownCall cs
  | dropped {name : String} (reply : Reply ε ρ) : Change now cs (.drop name) reply (cs.leave name)
  | reset : Change now cs .reset .nothing ⟨cs.breaker.act now .reset, cs.waiting⟩

theorem leave_of_not_mem {cs : Calls} {name : String} (h : name ∉ cs.waiting) :
    cs.leave name = cs := by
  have hkeep : cs.waiting.filter (· ≠ name) = cs.waiting := by
    rw [List.filter_eq_self]
    intro other hother
    have hne : other ≠ name := fun heq => h (heq ▸ hother)
    exact decide_eq_true hne
  unfold leave
  rw [hkeep]

theorem record_eq_act (b : Breaker) (now : Moment) (result : Except ε ρ) :
    (b.record result.isOk now).1 = b.act now (recording result) := by
  unfold Breaker.record recording
  cases result.isOk <;> rfl

theorem change_use (now : Moment) (cs : Calls) (u : Use ε ρ) :
    Change now cs u (cs.use now u).1 (cs.act now u) := by
  unfold act use
  cases u with
  | start name =>
    simp only [Use.action, step]
    obtain ⟨hgranted, hbreaker⟩ := Breaker.begin_eq cs.breaker now
    rcases hbegin : cs.breaker.begin now with ⟨granted, b, events⟩
    simp only [leave, hbegin]
    rw [hbegin] at hgranted hbreaker
    cases hr : cs.breaker.refuses now with
    | true =>
      rw [Breaker.tryAcquire_of_refuses hr] at hgranted hbreaker
      obtain rfl : granted = false := hgranted
      obtain rfl : b = cs.breaker := hbreaker
      exact .refused hr
    | false =>
      have hasked : (cs.breaker.tryAcquire now).1 = true := by
        unfold Breaker.refuses at hr
        rwa [Bool.not_eq_false'] at hr
      obtain rfl : granted = true := hgranted.trans hasked
      obtain rfl : b = cs.breaker.act now .tryAcquire := hbreaker
      exact .admitted hr
  | finish name result =>
    simp only [Use.action, step]
    by_cases hmem : name ∈ cs.waiting
    · simp only [if_pos hmem, Use.reply, record_eq_act]
      exact .finished hmem
    · simp only [if_neg hmem, Use.reply]
      exact .unknown hmem
  | drop name =>
    simp only [Use.action, step]
    by_cases hmem : name ∈ cs.waiting
    · simp only [if_pos hmem]
      exact .dropped _
    · simp only [if_neg hmem]
      have hdropped : Change now cs (.drop name) (.unknownCall : Reply ε ρ) (cs.leave name) :=
        .dropped _
      rwa [leave_of_not_mem hmem] at hdropped
  | reset => exact .reset

theorem nodup_leave {cs : Calls} (h : cs.waiting.Nodup) (name : String) :
    (cs.leave name).waiting.Nodup := h.filter _

theorem not_mem_leave (cs : Calls) (name : String) : name ∉ (cs.leave name).waiting := by
  simp [leave]

theorem Change.nodup {now : Moment} {cs cs' : Calls} {u : Use ε ρ} {r : Reply ε ρ}
    (h : Change now cs u r cs') (hnodup : cs.waiting.Nodup) : cs'.waiting.Nodup := by
  cases h with
  | admitted _ => exact List.nodup_cons.mpr ⟨not_mem_leave cs _, nodup_leave hnodup _⟩
  | refused _ => exact nodup_leave hnodup _
  | finished _ => exact nodup_leave hnodup _
  | unknown _ => exact hnodup
  | dropped _ => exact nodup_leave hnodup _
  | reset => exact hnodup

/-! ## What becomes of calls -/

/-- A call has ended: the moment, the result of its action, and what its caller got. -/
structure Ending (ε ρ : Type) where
  moment : Moment
  result : Except ε ρ
  reply : Reply ε ρ

/-- The call whose action ends here, if there is one under way. -/
def ending? (o : Occurrence Calls (Use ε ρ)) : Option (Ending ε ρ) :=
  match o.action, reply o with
  | .finish _ _, .unknownCall => none
  | .finish _ result, r => some ⟨o.moment, result, r⟩
  | _, _ => none

/-- The calls that end, in the order in which they do. -/
def endings (history : List (Occurrence Calls (Use ε ρ))) : List (Ending ε ρ) :=
  history.filterMap ending?

theorem endings_cons (o : Occurrence Calls (Use ε ρ))
    (later : List (Occurrence Calls (Use ε ρ))) :
    endings (o :: later) = endings [o] ++ endings later :=
  List.filterMap_append (l := [o])

section Finish
variable {now : Moment} {name : String} {result : Except ε ρ} {cs cs' : Calls}

theorem endings_finish {given : Except (Breaker.CallError ε) ρ}
    (h : reply ⟨now, .finish name result, cs, cs'⟩ = .returned given) :
    endings [⟨now, .finish name result, cs, cs'⟩] = [⟨now, result, .returned given⟩] := by
  simp only [endings, List.filterMap_cons, ending?, h, List.filterMap_nil]

theorem endings_unknown (h : reply ⟨now, .finish name result, cs, cs'⟩ = .unknownCall) :
    endings [⟨now, .finish name result, cs, cs'⟩] = [] := by
  simp only [endings, List.filterMap_cons, ending?, h, List.filterMap_nil]

end Finish

inductive Fate (ε ρ : Type) where
  | refused
  | finished (ending : Ending ε ρ)
  | dropped
  | waiting

def Fate.ending? : Fate ε ρ → Option (Ending ε ρ)
  | finished e => some e
  | _ => none

def Use.name? : Use ε ρ → Option String
  | start name | finish name _ | drop name => some name
  | reset => none

/-- What becomes of the call under way that has a name: the next use of that name decides. -/
def fate (name : String) : List (Occurrence Calls (Use ε ρ)) → Fate ε ρ
  | [] => .waiting
  | o :: later =>
    if o.action.name? = some name then
      match o.action with
      | .finish _ result => .finished ⟨o.moment, result, reply o⟩
      | _ => .dropped
    else fate name later

/-- What becomes of the calls, in the order in which they start. -/
def fates : List (Occurrence Calls (Use ε ρ)) → List (Fate ε ρ)
  | [] => []
  | o :: later =>
    match o.action, reply o with
    | .start name, .running => fate name later :: fates later
    | .start _, _ => .refused :: fates later
    | _, _ => fates later

/-- The ends of the calls under way that have these names. -/
def pending (names : List String) (later : List (Occurrence Calls (Use ε ρ))) :
    List (Ending ε ρ) :=
  names.filterMap fun name => (fate name later).ending?

theorem fate_of_ne {o : Occurrence Calls (Use ε ρ)} {name : String}
    (h : o.action.name? ≠ some name) (later : List (Occurrence Calls (Use ε ρ))) :
    fate name (o :: later) = fate name later := if_neg h

theorem fate_finish (now : Moment) (cs cs' : Calls) (name : String) (result : Except ε ρ)
    (later : List (Occurrence Calls (Use ε ρ))) :
    fate name (⟨now, .finish name result, cs, cs'⟩ :: later) =
      .finished ⟨now, result, reply ⟨now, .finish name result, cs, cs'⟩⟩ := if_pos rfl

theorem pending_of_not_mem {o : Occurrence Calls (Use ε ρ)} {names : List String}
    (h : ∀ name ∈ names, o.action.name? ≠ some name)
    (later : List (Occurrence Calls (Use ε ρ))) :
    pending names (o :: later) = pending names later := by
  refine List.filterMap_congr fun name hname => ?_
  rw [fate_of_ne (h name hname)]

/-- The next use of a name is about the call under way that has it, and leaves the others. -/
theorem pending_cons {o : Occurrence Calls (Use ε ρ)} {name : String}
    (hname : o.action.name? = some name) {cs : Calls} (hnodup : cs.waiting.Nodup)
    (later : List (Occurrence Calls (Use ε ρ))) :
    (pending cs.waiting (o :: later)).Perm
      ((if name ∈ cs.waiting then (fate name (o :: later)).ending?.toList else []) ++
        pending (cs.leave name).waiting later) := by
  have hrest : pending (cs.leave name).waiting (o :: later) =
      pending (cs.leave name).waiting later := by
    refine pending_of_not_mem (fun other hother => ?_) later
    rw [hname]
    rintro heq
    obtain rfl : name = other := Option.some.inj heq
    exact not_mem_leave cs name hother
  by_cases hmem : name ∈ cs.waiting
  -- the names differ from one another, so to leave is to erase one of them
  · have herase : cs.waiting.erase name = (cs.leave name).waiting := by
      rw [hnodup.erase_eq_filter]
      refine List.filter_congr fun other _ => ?_
      exact (decide_not ..).symm
    have hperm := (List.perm_cons_erase hmem).filterMap
      fun name => (fate name (o :: later)).ending?
    rw [herase, List.filterMap_cons] at hperm
    rw [if_pos hmem, ← hrest]
    refine hperm.trans (List.Perm.of_eq ?_)
    cases (fate name (o :: later)).ending? <;> rfl
  · rw [if_neg hmem, ← hrest, leave_of_not_mem hmem]
    exact List.Perm.refl _

theorem pending_cons_of_gone {o : Occurrence Calls (Use ε ρ)} {name : String}
    (hname : o.action.name? = some name) (hgone : ∀ result, o.action ≠ .finish name result)
    {cs : Calls} (hnodup : cs.waiting.Nodup) (later : List (Occurrence Calls (Use ε ρ))) :
    (pending cs.waiting (o :: later)).Perm (pending (cs.leave name).waiting later) := by
  have hnone : (fate name (o :: later)).ending? = none := by
    rw [fate, if_pos hname]
    split
    · rename_i other result haction
      rw [haction] at hname
      obtain rfl : other = name := Option.some.inj hname
      exact absurd haction (hgone result)
    · rfl
  have hperm := pending_cons hname hnodup later
  rwa [hnone, Option.toList_none, ite_self, List.nil_append] at hperm

theorem pending_cons_name (name : String) (names : List String)
    (later : List (Occurrence Calls (Use ε ρ))) (others : List (Fate ε ρ)) :
    (pending (name :: names) later ++ others.filterMap Fate.ending?).Perm
      (pending names later ++ (fate name later :: others).filterMap Fate.ending?) := by
  unfold pending
  rw [List.filterMap_cons, List.filterMap_cons]
  cases (fate name later).ending? with
  | none => exact List.Perm.refl _
  | some e => exact List.perm_middle.symm

theorem Change.endings_perm {now : Moment} {cs cs' : Calls} {u : Use ε ρ} {r : Reply ε ρ}
    (h : Change now cs u r cs') (hr : reply ⟨now, u, cs, cs'⟩ = r) (hnodup : cs.waiting.Nodup)
    {later : List (Occurrence Calls (Use ε ρ))}
    (hlater : (endings later).Perm
      (pending cs'.waiting later ++ (fates later).filterMap Fate.ending?)) :
    (endings (⟨now, u, cs, cs'⟩ :: later)).Perm
      (pending cs.waiting (⟨now, u, cs, cs'⟩ :: later) ++
        (fates (⟨now, u, cs, cs'⟩ :: later)).filterMap Fate.ending?) := by
  cases h with
  | @admitted name _ =>
    simp only [endings, List.filterMap_cons, ending?, fates, hr]
    refine (hlater.trans (pending_cons_name name _ later _)).trans (List.Perm.append_right _ ?_)
    exact (pending_cons_of_gone rfl (by simp) hnodup later).symm
  | refused _ =>
    simp only [endings, List.filterMap_cons, ending?, fates, hr]
    refine hlater.trans (List.Perm.append_right _ ?_)
    exact (pending_cons_of_gone rfl (by simp) hnodup later).symm
  | finished hmem =>
    simp only [endings, List.filterMap_cons, ending?, fates, hr]
    refine (hlater.cons _).trans ?_
    rw [← List.cons_append]
    refine List.Perm.append_right _ ?_
    refine List.Perm.symm ((pending_cons rfl hnodup later).trans (List.Perm.of_eq ?_))
    rw [if_pos hmem, fate_finish, hr]
    rfl
  | unknown hmem =>
    simp only [endings, List.filterMap_cons, ending?, fates, hr]
    refine hlater.trans (List.Perm.append_right _ ?_)
    refine List.Perm.symm ((pending_cons rfl hnodup later).trans (List.Perm.of_eq ?_))
    rw [if_neg hmem, leave_of_not_mem hmem, List.nil_append]
  | dropped _ =>
    simp only [endings, List.filterMap_cons, ending?, fates]
    refine hlater.trans (List.Perm.append_right _ ?_)
    exact (pending_cons_of_gone rfl (by simp) hnodup later).symm
  | reset =>
    simp only [endings, List.filterMap_cons, ending?, fates]
    rw [pending_of_not_mem (by simp [Use.name?]) later]
    exact hlater

/-- The calls that end are those under way now that will end, and those that are still to start. -/
theorem endings_perm (s : Instant Calls) (hnodup : s.state.waiting.Nodup)
    (moves : List (Move (Use ε ρ))) :
    (endings (s.history act moves)).Perm
      (pending s.state.waiting (s.history act moves) ++
        (fates (s.history act moves)).filterMap Fate.ending?) := by
  -- from the front, where the fate of a call is decided; `s` has any calls under way
  induction moves generalizing s with
  | nil =>
    have hnone : pending s.state.waiting ([] : List (Occurrence Calls (Use ε ρ))) = [] :=
      List.filterMap_eq_nil_iff.mpr fun _ _ => rfl
    rw [Instant.history_nil, hnone]
    exact List.Perm.refl _
  | cons m moves ih =>
    cases m with
    | wait span => exact ih _ hnodup
    | act u =>
      have hchange := change_use s.now s.state u
      have hrest := ih (s.move act (.act u)) (hchange.nodup hnodup)
      exact hchange.endings_perm rfl hnodup hrest

/-! ## What the breaker goes through -/

/-- What is done with the breaker in a use of the calls. -/
def operations (cs : Calls) : Use ε ρ → List Breaker.Action
  | .start _ => [.tryAcquire]
  | .finish name result => if name ∈ cs.waiting then [recording result] else []
  | .drop _ => []
  | .reset => [.reset]

/-- The moves of the breaker in a run of the calls. -/
def breakerMoves (s : Instant Calls) : List (Move (Use ε ρ)) → List (Move Breaker.Action)
  | [] => []
  | .wait span :: moves => .wait span :: breakerMoves ⟨s.now + span, s.state⟩ moves
  | .act u :: moves =>
    (operations s.state u).map .act ++ breakerMoves (s.move act (.act u)) moves

def breakerAt (s : Instant Calls) : Instant Breaker := ⟨s.now, s.state.breaker⟩

theorem Change.run_operations {now : Moment} {cs cs' : Calls} {u : Use ε ρ} {r : Reply ε ρ}
    (h : Change now cs u r cs') :
    (Instant.mk now cs.breaker).run Breaker.act ((operations cs u).map .act) =
      ⟨now, cs'.breaker⟩ := by
  cases h with
  | admitted _ => rfl
  | refused hrefuses =>
    have hsame : cs.breaker.act now .tryAcquire = cs.breaker := by
      rw [Breaker.act, Breaker.tryAcquire_of_refuses hrefuses]
    show Instant.mk now (cs.breaker.act now .tryAcquire) = ⟨now, cs.breaker⟩
    rw [hsame]
  | finished hmem =>
    rw [operations, if_pos hmem]
    rfl
  | unknown hmem =>
    rw [operations, if_neg hmem]
    rfl
  | dropped _ => rfl
  | reset => rfl

theorem run_operations (s : Instant Calls) (u : Use ε ρ) :
    (breakerAt s).run Breaker.act ((operations s.state u).map .act) =
      breakerAt (s.move act (.act u)) := (change_use s.now s.state u).run_operations

/-- To its breaker, a run of calls is a run of the breaker alone. -/
theorem run_breakerMoves (s : Instant Calls) (moves : List (Move (Use ε ρ))) :
    (breakerAt s).run Breaker.act (breakerMoves s moves) = breakerAt (s.run act moves) := by
  induction moves generalizing s with
  | nil => rfl
  | cons m moves ih =>
    cases m with
    | wait span => exact ih ⟨s.now + span, s.state⟩
    | act u =>
      rw [breakerMoves, Instant.run_append, run_operations]
      exact ih (s.move act (.act u))

/-- The result that a breaker is told, if it is told one. -/
def recorded? (o : Occurrence Breaker Breaker.Action) : Option (Moment × Bool) :=
  match o.action with
  | .succeed => some (o.moment, true)
  | .fail => some (o.moment, false)
  | _ => none

theorem recorded?_recording (now : Moment) (result : Except ε ρ) (b b' : Breaker) :
    recorded? ⟨now, recording result, b, b'⟩ = some (now, result.isOk) := by
  cases result <;> rfl

theorem Change.recorded_operations {now : Moment} {cs cs' : Calls} {u : Use ε ρ} {r : Reply ε ρ}
    (h : Change now cs u r cs') (hr : reply ⟨now, u, cs, cs'⟩ = r) :
    ((Instant.mk now cs.breaker).history Breaker.act ((operations cs u).map .act)).filterMap
        recorded? =
      (endings [⟨now, u, cs, cs'⟩]).map fun e => (e.moment, e.result.isOk) := by
  cases h with
  | admitted _ => rfl
  | refused _ => rfl
  | finished hmem =>
    rw [endings_finish hr, operations, if_pos hmem]
    exact List.filterMap_cons_some (recorded?_recording ..)
  | unknown hmem =>
    rw [endings_unknown hr, operations, if_neg hmem]
    rfl
  | dropped _ => rfl
  | reset => rfl

/-- What the breaker is told are the results of the calls that end, when they do. -/
theorem recorded_breakerMoves (s : Instant Calls) (moves : List (Move (Use ε ρ))) :
    ((breakerAt s).history Breaker.act (breakerMoves s moves)).filterMap recorded? =
      (endings (s.history act moves)).map fun e => (e.moment, e.result.isOk) := by
  induction moves generalizing s with
  | nil => rfl
  | cons m moves ih =>
    cases m with
    | wait span => exact ih ⟨s.now + span, s.state⟩
    | act u =>
      have hchange := change_use s.now s.state u
      have hhistory : s.history act (.act u :: moves) =
          ⟨s.now, u, s.state, act s.now s.state u⟩ :: (s.move act (.act u)).history act moves := rfl
      rw [breakerMoves, Instant.history_append, List.filterMap_append, run_operations,
        ih (s.move act (.act u)), hhistory, endings_cons, List.map_append]
      exact congrArg (· ++ _) (hchange.recorded_operations rfl)

/-! ## Counting -/

theorem failures_tryAcquire (b : Breaker) (now : Moment) :
    (b.act now .tryAcquire).failures = b.failures := by
  show (b.tryAcquire now).2.1.failures = b.failures
  unfold Breaker.tryAcquire
  split
  · split <;> rfl
  · rfl

theorem failures_act_le {b : Breaker} (h : b.failures ≤ maxCount) (now : Moment)
    (a : Breaker.Action) : (b.act now a).failures ≤ maxCount := by
  cases a with
  | tryAcquire => exact Nat.le_trans (Nat.le_of_eq (failures_tryAcquire b now)) h
  | succeed =>
    show (b.recordSuccess now).1.failures ≤ maxCount
    cases hc : b.circuit with
    | closed =>
      rw [Breaker.recordSuccess_of_closed hc]
      exact Nat.le_trans (Nat.div_le_self _ _) h
    | opened =>
      rw [Breaker.recordSuccess_of_opened hc]
      exact h
    | halfOpen =>
      rw [Breaker.recordSuccess_of_halfOpen hc]
      exact Nat.zero_le _
  | fail =>
    rw [Breaker.failures_fail]
    exact Nat.min_le_right _ _
  | reset => exact Nat.zero_le _

theorem failures_le (service : String) (settings : Breaker.Settings) (start : Moment)
    (moves : List (Move (Use ε ρ))) :
    (run service settings start moves).state.breaker.failures ≤ maxCount := by
  have hbreaker : breakerAt (run service settings start moves) =
      Breaker.run service settings start (breakerMoves (fresh service settings start) moves) :=
    (run_breakerMoves _ moves).symm
  have hle : ∀ moves, (Breaker.run service settings start moves).state.failures ≤ maxCount :=
    Instant.history_induction Breaker.act (P := fun _ _ b => b.failures ≤ maxCount) _
      (Nat.zero_le _) (fun _ _ _ _ h => h) fun _ now _ a h => failures_act_le h now a
  show (breakerAt (run service settings start moves)).state.failures ≤ maxCount
  rw [hbreaker]
  exact hle _

theorem Change.failures {now : Moment} {cs cs' : Calls} {u : Use ε ρ} {r : Reply ε ρ}
    (h : Change now cs u r cs') (hr : reply ⟨now, u, cs, cs'⟩ = r)
    (hle : cs.breaker.failures ≤ maxCount) (hreset : u ≠ .reset)
    (hok : ∀ e ∈ endings [⟨now, u, cs, cs'⟩], e.result.isOk = false) :
    cs'.breaker.failures =
      min (cs.breaker.failures + (endings [⟨now, u, cs, cs'⟩]).length) maxCount := by
  have hsame : cs.breaker.failures = min (cs.breaker.failures + 0) maxCount :=
    (Nat.min_eq_left hle).symm
  cases h with
  | admitted _ => exact (failures_tryAcquire _ _).trans hsame
  | refused _ => exact hsame
  | @finished name result _ =>
    rw [endings_finish hr] at hok ⊢
    have herror : result.isOk = false := hok _ List.mem_cons_self
    have hfail : recording result = .fail := by simp [recording, herror]
    rw [hfail]
    exact Breaker.failures_fail now cs.breaker
  | unknown _ =>
    rw [endings_unknown hr]
    exact hsame
  | dropped _ => exact hsame
  | reset => contradiction

/-- While there is no reset and no call ends with a value, the count grows by one with every call
that ends, up to the greatest number of thirty-two bits. -/
theorem failures_run (s : Instant Calls) (hle : s.state.breaker.failures ≤ maxCount)
    (moves : List (Move (Use ε ρ)))
    (hreset : ∀ o ∈ s.history act moves, o.action ≠ .reset)
    (hok : ∀ e ∈ endings (s.history act moves), e.result.isOk = false) :
    (s.run act moves).state.breaker.failures =
      min (s.state.breaker.failures + (endings (s.history act moves)).length) maxCount := by
  induction moves generalizing s with
  | nil => exact (Nat.min_eq_left hle).symm
  | cons m moves ih =>
    cases m with
    | wait span => exact ih ⟨s.now + span, s.state⟩ hle hreset hok
    | act u =>
      have hhistory : s.history act (.act u :: moves) =
          ⟨s.now, u, s.state, act s.now s.state u⟩ :: (s.move act (.act u)).history act moves := rfl
      rw [hhistory, List.forall_mem_cons] at hreset
      rw [hhistory, endings_cons] at hok ⊢
      have hone := (change_use s.now s.state u).failures rfl hle hreset.1
        fun e he => hok e (List.mem_append_left _ he)
      have hstep : (s.move act (.act u)).state.breaker.failures =
          min (s.state.breaker.failures +
            (endings [⟨s.now, u, s.state, act s.now s.state u⟩]).length) maxCount := hone
      have hrest := ih (s.move act (.act u)) (by omega) hreset.2
        fun e he => hok e (List.mem_append_right _ he)
      rw [Instant.run_cons, hrest, List.length_append]
      omega

/-! ## Runs -/

theorem change_of_mem_past {service : String} {settings : Breaker.Settings} {start : Moment}
    {moves : List (Move (Use ε ρ))} {o : Occurrence Calls (Use ε ρ)}
    (h : o ∈ past service settings start moves) :
    Change o.moment o.before o.action (reply o) o.after := by
  rw [Instant.after_of_mem_history act h]
  exact change_use o.moment o.before o.action

section Change
variable {now : Moment} {cs cs' : Calls} {r : Reply ε ρ}

theorem Change.reply_ending {u : Use ε ρ} (h : Change now cs u r cs')
    (hr : reply ⟨now, u, cs, cs'⟩ = r) {e : Ending ε ρ} (he : ending? ⟨now, u, cs, cs'⟩ = some e) :
    e.reply = .returned (handBack e.result) := by
  unfold ending? at he
  rw [hr] at he
  cases h with
  | finished _ =>
    obtain rfl := Option.some.inj he
    rfl
  | admitted _ | refused _ | unknown _ | dropped _ | reset => cases he

theorem Change.of_start {name : String} (h : Change now cs (.start name) r cs') :
    (cs.breaker.refuses now = false →
        r = .running ∧ name ∈ cs'.waiting ∧ cs'.breaker = cs.breaker.act now .tryAcquire) ∧
      (cs.breaker.refuses now = true →
        r = .returned (.error .opened) ∧ name ∉ cs'.waiting ∧ cs'.breaker = cs.breaker) := by
  cases h with
  | admitted hadmits =>
    refine ⟨fun _ => ⟨rfl, List.mem_cons_self, rfl⟩, fun hrefuses => ?_⟩
    rw [hadmits] at hrefuses
    cases hrefuses
  | refused hrefuses =>
    refine ⟨fun hadmits => ?_, fun _ => ⟨rfl, not_mem_leave cs name, rfl⟩⟩
    rw [hrefuses] at hadmits
    cases hadmits

theorem Change.of_finish {name : String} {result : Except ε ρ}
    (h : Change now cs (.finish name result) r cs') :
    cs'.breaker =
      if name ∈ cs.waiting then cs.breaker.act now (recording result) else cs.breaker := by
  cases h with
  | finished hmem => exact (if_pos hmem).symm
  | unknown hmem => exact (if_neg hmem).symm

theorem Change.of_drop {name : String} (h : Change now cs (.drop name) r cs') :
    name ∉ cs'.waiting ∧ cs'.breaker = cs.breaker := by
  cases h with
  | dropped _ => exact ⟨not_mem_leave cs name, rfl⟩

end Change

/-- To the breaker, a call that does not wait is one that starts and finishes at once. -/
theorem breaker_execute (now : Moment) (cs : Calls) (name : String) (result : Except ε ρ) :
    (cs.breaker.execute now result).2.1 =
      ((cs.act now (.start name : Use ε ρ)).act now (.finish name result)).breaker := by
  have hstart := (change_use now cs (.start name : Use ε ρ)).of_start
  have hfinish := (change_use now (cs.act now (.start name : Use ε ρ))
    (.finish name result)).of_finish
  obtain ⟨hgranted, hbreaker⟩ := Breaker.begin_eq cs.breaker now
  unfold Breaker.execute
  rcases hbegin : cs.breaker.begin now with ⟨granted, b, events⟩
  rw [hbegin] at hgranted hbreaker
  rw [hfinish]
  cases hr : cs.breaker.refuses now with
  | true =>
    obtain ⟨-, hout, hsame⟩ := hstart.2 hr
    rw [Breaker.tryAcquire_of_refuses hr] at hgranted hbreaker
    obtain rfl : granted = false := hgranted
    rw [if_neg hout, hsame]
    exact hbreaker
  | false =>
    obtain ⟨-, hmem, hasked⟩ := hstart.1 hr
    obtain rfl : granted = true := hgranted.trans (by simpa [Breaker.refuses] using hr)
    rw [if_pos hmem, hasked, ← record_eq_act]
    exact congrArg (fun b => (b.record result.isOk now).1) hbreaker

/-- What is so in every run of calls through one breaker. -/
structure CallLaw (service : String) (settings : Breaker.Settings) (start : Moment)
    (moves : List (Move (Use ε ρ))) : Prop where
  /-- The breaker goes through a run of its own. -/
  breaker : Breaker.run service settings start (breakerMoves (fresh service settings start) moves) =
    breakerAt (run service settings start moves)
  /-- There it is told the results of the calls that end, in the order in which they do. -/
  recorded : (Breaker.past service settings start
      (breakerMoves (fresh service settings start) moves)).filterMap recorded? =
    (endings (past service settings start moves)).map fun e => (e.moment, e.result.isOk)
  /-- The calls that end are, each once, those that are let through and finish. -/
  endings_perm : (endings (past service settings start moves)).Perm
    ((fates (past service settings start moves)).filterMap Fate.ending?)
  /-- A result is handed back as it is. -/
  handedBack : ∀ e ∈ endings (past service settings start moves),
    (∀ value, e.result = .ok value → e.reply = .returned (.ok value)) ∧
      ∀ error, e.result = .error error → e.reply = .returned (.error (.inner error))
  /-- A call is let through unless the breaker refuses. -/
  admitted : ∀ o ∈ past service settings start moves, ∀ name, o.action = .start name →
    o.before.breaker.refuses o.moment = false →
      reply o = .running ∧ name ∈ o.after.waiting ∧
        o.after.breaker = o.before.breaker.act o.moment .tryAcquire
  /-- A call that is refused does not run, and leaves the breaker as it is. -/
  refused : ∀ o ∈ past service settings start moves, ∀ name, o.action = .start name →
    o.before.breaker.refuses o.moment = true →
      reply o = .returned (.error .opened) ∧ name ∉ o.after.waiting ∧
        o.after.breaker = o.before.breaker
  /-- A call that is dropped leaves the breaker as it is. -/
  dropped : ∀ o ∈ past service settings start moves, ∀ name, o.action = .drop name →
    name ∉ o.after.waiting ∧ o.after.breaker = o.before.breaker
  /-- In a stretch without a reset in which no call ends with a value, every call that ends is
  counted. -/
  counted : ∀ earlier stretch, moves = earlier ++ stretch →
    (∀ o ∈ (run service settings start earlier).history act stretch, o.action ≠ .reset) →
    (∀ e ∈ endings ((run service settings start earlier).history act stretch),
      e.result.isOk = false) →
    (run service settings start moves).state.breaker.failures =
      min ((run service settings start earlier).state.breaker.failures +
        (endings ((run service settings start earlier).history act stretch)).length) maxCount

theorem callLaw (service : String) (settings : Breaker.Settings) (start : Moment)
    (moves : List (Move (Use ε ρ))) : CallLaw service settings start moves where
  breaker := run_breakerMoves (fresh service settings start) moves
  recorded := recorded_breakerMoves (fresh service settings start) moves
  endings_perm := Calls.endings_perm (fresh service settings start) List.nodup_nil moves
  handedBack e he := by
    obtain ⟨o, ho, hending⟩ := List.mem_filterMap.mp he
    rw [(change_of_mem_past ho).reply_ending rfl hending]
    refine ⟨fun value hvalue => ?_, fun error herror => ?_⟩
    · rw [hvalue]
      rfl
    · rw [herror]
      rfl
  admitted o ho name haction hadmits := by
    have hchange := change_of_mem_past ho
    rw [haction] at hchange
    exact hchange.of_start.1 hadmits
  refused o ho name haction hrefuses := by
    have hchange := change_of_mem_past ho
    rw [haction] at hchange
    exact hchange.of_start.2 hrefuses
  dropped o ho name haction := by
    have hchange := change_of_mem_past ho
    rw [haction] at hchange
    exact hchange.of_drop
  counted earlier stretch hsplit hreset hok := by
    have hrun : run service settings start moves =
        (run service settings start earlier).run act stretch := by
      rw [hsplit]
      exact Instant.run_append act _ earlier stretch
    rw [hrun]
    exact failures_run _ (failures_le service settings start earlier) stretch hreset hok

/-- The first of two failures opens the circuit, and the second, which comes late, counts. -/
example : ((run "a" ⟨1, Span.seconds 30, Span.seconds 10⟩ 0
    [.act (.start "x"), .act (.start "y"), .act (.finish "x" (.error ())),
      .act (.finish "y" (.error () : Except Unit Unit))]).state.breaker).failures = 2 := by decide

end Gatehouse.Calls
