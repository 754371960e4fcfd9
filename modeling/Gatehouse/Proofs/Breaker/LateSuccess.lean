import Gatehouse.Proofs.Breaker.Concurrency

/-!
# Successes that come late

A half-open circuit closes with the first success that comes in, and the breaker does not know which
call it comes from. A call that was let through before the circuit opened may outlive the open
timeout; when it then succeeds it closes the circuit, although it says nothing about the backend as
it is now.

* `Trips`, `Probes`, `Closes` : the circuit opens, is half-opened, and is closed by a call that ends;
* `UnderWay` : when a call that is under way was let through, and what has happened since;
* `ClosedByTrials` : only calls that were let through since the last opening close the circuit;
* `Traced`, `traced_run` : what the history says of the circuit and of the calls under way;
* `ClosingLaw`, `closingLaw` : which calls close the circuit, and how late one must be to do so
  without being a trial;
* `not_closedByTrials_slow` : a call that does.
-/

namespace Gatehouse

/-- A circuit is half-open because it was, or because it was asked once the open timeout had
passed. -/
theorem Breaker.of_act_halfOpen {b : Breaker} {now : Moment} {a : Breaker.Action}
    (h : (b.act now a).circuit = .halfOpen) :
    b.circuit = .halfOpen ∨ a = .tryAcquire ∧ b.circuit = .opened ∧
      b.settings.openTimeout ≤ elapsed now b.lastChange := by
  cases a with
  | tryAcquire =>
    cases hr : b.refuses now with
    | true =>
      rw [Breaker.act, Breaker.tryAcquire_of_refuses hr] at h
      exact .inl h
    | false =>
      by_cases hc : b.circuit = .opened
      · refine .inr ⟨rfl, hc, ?_⟩
        by_contra hlt
        rw [(b.refuses_iff now).2 ⟨hc, Nat.lt_of_not_le hlt⟩] at hr
        cases hr
      · rw [Breaker.act, Breaker.tryAcquire_of_not_opened hc] at h
        exact .inl h
  | succeed =>
    cases hc : b.circuit with
    | halfOpen => exact .inl rfl
    | closed => simp [Breaker.act, Breaker.recordSuccess_of_closed hc, hc] at h
    | opened => simp [Breaker.act, Breaker.recordSuccess_of_opened hc, hc] at h
  | fail =>
    cases ho : b.opens (b.counted now).failures with
    | true => simp [Breaker.act, Breaker.recordFailure_of_opens ho] at h
    | false =>
      rw [Breaker.act, Breaker.recordFailure_of_not_opens ho] at h
      exact .inl h
  | reset => simp [Breaker.act, Breaker.reset] at h

namespace Calls

variable {ε ρ : Type}

/-! ## What happens to a circuit -/

def Trips (o : Occurrence Calls (Use ε ρ)) : Prop :=
  o.before.breaker.circuit ≠ .opened ∧ o.after.breaker.circuit = .opened

/-- A call is let through that half-opens the circuit. -/
def Probes (o : Occurrence Calls (Use ε ρ)) : Prop :=
  (∃ name, o.action = .start name) ∧ o.before.breaker.circuit = .opened ∧
    o.after.breaker.circuit = .halfOpen

/-- A call ends and closes the circuit, which was half-open. -/
def Closes (o : Occurrence Calls (Use ε ρ)) : Prop :=
  (∃ name result, o.action = .finish name result) ∧ o.before.breaker.circuit = .halfOpen ∧
    o.after.breaker.circuit = .closed

/-- After a history the call `name` is under way. It was let through at `since`, and `later` is what
has happened since then. -/
def UnderWay (history : List (Occurrence Calls (Use ε ρ))) (name : String)
    (since : Occurrence Calls (Use ε ρ)) (later : List (Occurrence Calls (Use ε ρ))) : Prop :=
  (∃ earlier, history = earlier ++ since :: later) ∧ since.action = .start name ∧
    reply since = .running ∧ ∀ o ∈ later, o.action.name? ≠ some name

/-- Whenever a call closes the circuit, the circuit has not opened since the call was let through. -/
def ClosedByTrials (history : List (Occurrence Calls (Use ε ρ))) : Prop :=
  ∀ earlier o rest, history = earlier ++ o :: rest → Closes o →
    ∀ name since later, o.action.name? = some name → UnderWay earlier name since later →
      ∀ p ∈ later, ¬ Trips p

theorem UnderWay.concat {history later : List (Occurrence Calls (Use ε ρ))} {name : String}
    {since o : Occurrence Calls (Use ε ρ)} (h : UnderWay history name since later)
    (ho : o.action.name? ≠ some name) : UnderWay (history ++ [o]) name since (later ++ [o]) := by
  obtain ⟨⟨earlier, rfl⟩, hstart, hrunning, hlater⟩ := h
  refine ⟨⟨earlier, by simp⟩, hstart, hrunning, ?_⟩
  intro q hq
  rcases List.mem_append.mp hq with hq | hq
  · exact hlater q hq
  · rwa [List.mem_singleton.mp hq]

section Change
variable {now : Moment} {cs cs' : Calls} {u : Use ε ρ} {r : Reply ε ρ}

/-- To the breaker a use is one action at most, and it is asked only when a call starts. -/
theorem Change.breaker_cases (h : Change now cs u r cs') :
    cs'.breaker = cs.breaker ∨ ∃ a, cs'.breaker = cs.breaker.act now a ∧
      (a = .tryAcquire → ∃ name, u = .start name) := by
  cases h with
  | admitted _ => exact .inr ⟨.tryAcquire, rfl, fun _ => ⟨_, rfl⟩⟩
  | refused _ => exact .inl rfl
  | @finished _ result _ =>
    refine .inr ⟨recording result, rfl, fun ha => ?_⟩
    unfold recording at ha
    split at ha <;> cases ha
  | unknown _ => exact .inl rfl
  | dropped _ => exact .inl rfl
  | reset => exact .inr ⟨.reset, rfl, nofun⟩

/-- A call is under way because it has just been let through, or because it was and this is not
about it. -/
theorem Change.of_mem_waiting (h : Change now cs u r cs') {name : String}
    (hname : name ∈ cs'.waiting) :
    u = .start name ∧ r = .running ∨ name ∈ cs.waiting ∧ u.name? ≠ some name := by
  have stays : ∀ other, name ∈ (cs.leave other).waiting → name ∈ cs.waiting ∧ some other ≠ some name := by
    intro other hmem
    simp only [leave, List.mem_filter, decide_eq_true_eq] at hmem
    exact ⟨hmem.1, fun he => hmem.2 (Option.some.inj he).symm⟩
  cases h with
  | @admitted other _ =>
    rcases List.mem_cons.mp hname with rfl | hname
    · exact .inl ⟨rfl, rfl⟩
    · exact .inr (stays other hname)
  | refused _ => exact .inr (stays _ hname)
  | finished _ => exact .inr (stays _ hname)
  | @unknown other _ hother => exact .inr ⟨hname, fun he => hother (Option.some.inj he ▸ hname)⟩
  | dropped _ => exact .inr (stays _ hname)
  | reset => exact .inr ⟨hname, Option.some_ne_none name ∘ Eq.symm⟩

end Change

/-! ## What the history says -/

/-- What a history says of the circuit and of the calls that are under way after it. -/
structure Traced (settings : Breaker.Settings) (history : List (Occurrence Calls (Use ε ρ)))
    (now : Moment) (cs : Calls) : Prop where
  settings_eq : cs.breaker.settings = settings
  moment_le : ∀ o ∈ history, o.moment ≤ now
  opened : cs.breaker.circuit = .opened → ∀ p ∈ history, Trips p →
    p.moment ≤ cs.breaker.lastChange
  probed : cs.breaker.circuit = .halfOpen → ∀ earlier p later, history = earlier ++ p :: later →
    Trips p → ∃ t ∈ later, Probes t ∧ p.moment + settings.openTimeout ≤ t.moment
  underWay : ∀ name ∈ cs.waiting, ∃ since later, UnderWay history name since later

namespace Traced

variable {settings : Breaker.Settings} {history : List (Occurrence Calls (Use ε ρ))} {now : Moment}
  {cs : Calls}

theorem wait (h : Traced settings history now cs) (span : Span) :
    Traced settings history (now + span) cs :=
  { h with moment_le := fun o ho => Nat.le_trans (h.moment_le o ho) (Nat.le_add_right _ _) }

section Act
variable {u : Use ε ρ} {r : Reply ε ρ} {cs' : Calls}

theorem act_moment_le (h : Traced settings history now cs) :
    ∀ o ∈ history ++ [⟨now, u, cs, cs'⟩], o.moment ≤ now := by
  intro o ho
  rcases List.mem_append.mp ho with ho | ho
  · exact h.moment_le o ho
  · obtain rfl := List.mem_singleton.mp ho
    exact Nat.le_refl now

theorem act_opened (h : Traced settings history now cs) (hc : Change now cs u r cs')
    (hopened : cs'.breaker.circuit = .opened) :
    ∀ p ∈ history ++ [⟨now, u, cs, cs'⟩], Trips p → p.moment ≤ cs'.breaker.lastChange := by
  intro p hp htrips
  -- a circuit that stays open has not been opened now; one that is opened now has this moment
  have stays (hsame : cs'.breaker.circuit = cs.breaker.circuit)
      (hchange : cs'.breaker.lastChange = cs.breaker.lastChange) :
      p.moment ≤ cs'.breaker.lastChange := by
    rw [hsame] at hopened
    rw [hchange]
    rcases List.mem_append.mp hp with hp | hp
    · exact h.opened hopened p hp htrips
    · rw [List.mem_singleton.mp hp] at htrips
      exact absurd hopened htrips.1
  rcases hc.breaker_cases with hb | ⟨a, hb, -⟩
  · exact stays (by rw [hb]) (by rw [hb])
  · rcases (cs.breaker.act_cases now a).2.2 with ⟨hsame, hchange⟩ | hchange
    · exact stays (hb ▸ hsame) (hb ▸ hchange)
    · rw [hb, hchange]
      exact h.act_moment_le p hp

theorem act_probed (h : Traced settings history now cs) (hc : Change now cs u r cs')
    (hhalf : cs'.breaker.circuit = .halfOpen) {earlier later : List (Occurrence Calls (Use ε ρ))}
    {p : Occurrence Calls (Use ε ρ)} (hsplit : history ++ [⟨now, u, cs, cs'⟩] = earlier ++ p :: later)
    (htrips : Trips p) :
    ∃ t ∈ later, Probes t ∧ p.moment + settings.openTimeout ≤ t.moment := by
  rcases split_concat hsplit with ⟨rfl, rfl, rfl⟩ | ⟨before, rfl, rfl⟩
  · rw [htrips.2] at hhalf
    cases hhalf
  · have old (hbefore : cs.breaker.circuit = .halfOpen) :
        ∃ t ∈ before ++ [⟨now, u, cs, cs'⟩], Probes t ∧
          p.moment + settings.openTimeout ≤ t.moment := by
      obtain ⟨t, ht, hprobe⟩ := h.probed hbefore earlier p before rfl htrips
      exact ⟨t, List.mem_append_left _ ht, hprobe⟩
    rcases hc.breaker_cases with hb | ⟨a, hb, hasked⟩
    · exact old (hb ▸ hhalf)
    · rcases Breaker.of_act_halfOpen (hb ▸ hhalf) with hbefore | ⟨ha, hopened, hdue⟩
      · exact old hbefore
      · have hlast : (⟨now, u, cs, cs'⟩ : Occurrence Calls (Use ε ρ)) ∈
            before ++ [⟨now, u, cs, cs'⟩] := by simp
        refine ⟨_, hlast, ⟨hasked ha, hopened, hhalf⟩, ?_⟩
        have hp : p ∈ earlier ++ p :: before := by simp
        have hle := h.opened hopened p hp htrips
        have hlong : settings.openTimeout ≤ elapsed now p.moment :=
          Nat.le_trans (h.settings_eq ▸ hdue) (Nat.sub_le_sub_left hle now)
        exact Nat.add_le_of_le_sub' (h.moment_le p hp) hlong

theorem act (h : Traced settings history now cs) (hc : Change now cs u r cs')
    (hr : reply ⟨now, u, cs, cs'⟩ = r) :
    Traced settings (history ++ [⟨now, u, cs, cs'⟩]) now cs' where
  settings_eq := by
    rcases hc.breaker_cases with hb | ⟨a, hb, -⟩
    · rw [hb, h.settings_eq]
    · rw [hb, (cs.breaker.act_cases now a).2.1, h.settings_eq]
  moment_le := h.act_moment_le
  opened hopened := h.act_opened hc hopened
  probed hhalf _ _ _ hsplit htrips := h.act_probed hc hhalf hsplit htrips
  underWay name hname := by
    rcases hc.of_mem_waiting hname with ⟨rfl, hrunning⟩ | ⟨hwaiting, hother⟩
    · exact ⟨_, [], ⟨history, rfl⟩, rfl, hr.trans hrunning, by simp⟩
    · obtain ⟨since, later, hunder⟩ := h.underWay name hwaiting
      exact ⟨since, later ++ [_], hunder.concat hother⟩

end Act

end Traced

theorem traced_run (service : String) (settings : Breaker.Settings) (start : Moment)
    (moves : List (Move (Use ε ρ))) :
    Traced settings (past service settings start moves) (run service settings start moves).now
      (run service settings start moves).state := by
  refine Instant.history_induction act (P := Traced settings) _ ?_ (fun _ _ _ span h => h.wait span)
    (fun _ now cs u h => h.act (change_use now cs u) rfl) moves
  exact ⟨rfl, by simp [fresh], nofun, nofun, by simp [fresh]⟩

/-! ## Calls that close a circuit -/

/-- In a history the call `name` ends with a result, after what is in `earlier`. -/
def Ends (history earlier : List (Occurrence Calls (Use ε ρ))) (o : Occurrence Calls (Use ε ρ))
    (name : String) (result : Except ε ρ) : Prop :=
  (∃ rest, history = earlier ++ o :: rest) ∧ o.action = .finish name result

/-- Which calls close a circuit. -/
structure ClosingLaw (settings : Breaker.Settings) (history : List (Occurrence Calls (Use ε ρ))) :
    Prop where
  /-- A half-open circuit is closed by every success, of whichever call under way. -/
  closes_iff : ∀ earlier o name result, Ends history earlier o name result →
    (Closes o ↔ o.before.breaker.circuit = .halfOpen ∧ result.isOk = true ∧
      name ∈ o.before.waiting)
  /-- Of each of them it is known when it was let through. -/
  underWay : ∀ earlier o name result, Ends history earlier o name result → Closes o →
    ∃ since later, UnderWay earlier name since later
  /-- One that was let through before an opening has outlived the open timeout: another call has
  half-opened the circuit meanwhile. -/
  outlives : ∀ earlier o name result, Ends history earlier o name result → Closes o →
    ∀ since later, UnderWay earlier name since later → ∀ p ∈ later, Trips p →
      since.moment + settings.openTimeout ≤ o.moment ∧
        ∃ t ∈ later, Probes t ∧ t.action ≠ .start name ∧
          p.moment + settings.openTimeout ≤ t.moment
  /-- A success that comes while the circuit is open does not close it, whenever the call was let
  through. -/
  opened : ∀ earlier o name result, Ends history earlier o name result → result.isOk = true →
    o.before.breaker.circuit = .opened → o.after.breaker = o.before.breaker
  /-- Where every call that closes the circuit takes less than the open timeout, all of them are
  trials. -/
  closedByTrials : (∀ earlier o name result, Ends history earlier o name result → Closes o →
    ∀ since later, UnderWay earlier name since later →
      o.moment < since.moment + settings.openTimeout) → ClosedByTrials history

/-- What a success does to a breaker that is half-open or open. -/
theorem Closes.iff_of_finish {now : Moment} {cs cs' : Calls} {name : String} {result : Except ε ρ}
    {r : Reply ε ρ} (hc : Change now cs (.finish name result) r cs') :
    Closes ⟨now, .finish name result, cs, cs'⟩ ↔
      cs.breaker.circuit = .halfOpen ∧ result.isOk = true ∧ name ∈ cs.waiting := by
  have hafter := hc.of_finish
  unfold Closes
  simp only [hafter]
  by_cases hmem : name ∈ cs.waiting
  · rw [if_pos hmem]
    cases result with
    | ok value =>
      have hsucceed : recording (.ok value : Except ε ρ) = .succeed := rfl
      constructor
      · exact fun h => ⟨h.2.1, rfl, hmem⟩
      · intro h
        refine ⟨⟨name, _, rfl⟩, h.1, ?_⟩
        rw [hsucceed, Breaker.act, Breaker.recordSuccess_of_halfOpen h.1, Breaker.enter_circuit]
    | error e =>
      have hfail : recording (.error e : Except ε ρ) = .fail := rfl
      constructor
      · rintro ⟨-, hhalf, hclosed⟩
        have hopens : cs.breaker.opens (cs.breaker.counted now).failures = true :=
          (cs.breaker.opens_iff _).2 (.inr hhalf)
        rw [hfail, Breaker.act, Breaker.recordFailure_of_opens hopens] at hclosed
        cases hclosed
      · exact fun h => absurd h.2.1 Bool.false_ne_true
  · rw [if_neg hmem]
    constructor
    · rintro ⟨-, hhalf, hclosed⟩
      rw [hhalf] at hclosed
      cases hclosed
    · exact fun h => absurd h.2.2 hmem

/-- What has happened so far leads to the state in which the call ends. -/
theorem Ends.exists_run {service : String} {settings : Breaker.Settings} {start : Moment}
    {moves : List (Move (Use ε ρ))} {earlier : List (Occurrence Calls (Use ε ρ))}
    {o : Occurrence Calls (Use ε ρ)} {name : String} {result : Except ε ρ}
    (h : Ends (past service settings start moves) earlier o name result) :
    Traced settings earlier o.moment o.before ∧
      Change o.moment o.before (.finish name result) (reply o) o.after := by
  obtain ⟨⟨rest, hsplit⟩, haction⟩ := h
  obtain ⟨done, rfl, hrun⟩ := Instant.exists_run_of_history act hsplit
  have htraced := traced_run service settings start done
  have hchange := change_of_mem_past (o := o) (by rw [hsplit]; simp)
  unfold run at htraced
  rw [hrun] at htraced
  rw [haction] at hchange
  exact ⟨htraced, hchange⟩

/-- **Which calls close a circuit**, for every run of calls: those that succeed while it is
half-open. One that is no trial has outlived the open timeout. -/
theorem closingLaw (service : String) (settings : Breaker.Settings) (start : Moment)
    (moves : List (Move (Use ε ρ))) : ClosingLaw settings (past service settings start moves) := by
  have hiff : ∀ earlier o name result, Ends (past service settings start moves) earlier o name result →
      (Closes o ↔ o.before.breaker.circuit = .halfOpen ∧ result.isOk = true ∧
        name ∈ o.before.waiting) := by
    rintro earlier ⟨moment, u, before, after⟩ name result hends
    obtain rfl : u = .finish name result := hends.2
    exact Closes.iff_of_finish hends.exists_run.2
  have houtlives : ∀ earlier o name result,
      Ends (past service settings start moves) earlier o name result → Closes o →
      ∀ since later, UnderWay earlier name since later → ∀ p ∈ later, Trips p →
        since.moment + settings.openTimeout ≤ o.moment ∧
          ∃ t ∈ later, Probes t ∧ t.action ≠ .start name ∧
            p.moment + settings.openTimeout ≤ t.moment := by
    rintro earlier o name result hends hcloses since later ⟨⟨first, rfl⟩, -, -, hother⟩ p hp htrips
    obtain ⟨htraced, -⟩ := hends.exists_run
    obtain ⟨rest, hsplit⟩ := hends.1
    obtain ⟨between, later', rfl⟩ := List.append_of_mem hp
    obtain ⟨t, ht, hprobes, hlong⟩ := htraced.probed hcloses.2.1 (first ++ since :: between) p later'
      (by simp) htrips
    have hmem : t ∈ between ++ p :: later' := by simp [ht]
    refine ⟨?_, t, hmem, hprobes, fun hsame => hother t hmem (by rw [hsame]; rfl), hlong⟩
    have hsince : since.moment ≤ p.moment := by
      have hplace : past service settings start moves =
          (first ++ since :: between) ++ p :: (later' ++ o :: rest) := by simp [hsplit]
      exact Instant.moment_le_of_history act hplace since (by simp)
    have htrial : t.moment ≤ o.moment := htraced.moment_le t (by simp [ht])
    exact Nat.le_trans (Nat.le_trans (Nat.add_le_add_right hsince _) hlong) htrial
  refine ⟨hiff, ?_, houtlives, ?_, ?_⟩
  · intro earlier o name result hends hcloses
    have hwaiting := ((hiff earlier o name result hends).1 hcloses).2.2
    exact hends.exists_run.1.underWay name hwaiting
  · intro earlier o name result hends hok hopened
    have hafter := hends.exists_run.2.of_finish
    have hsucceed : recording result = .succeed := by simp [recording, hok]
    rw [hafter, hsucceed, Breaker.act, Breaker.recordSuccess_of_opened hopened, ite_self]
  · intro hbrief earlier o rest hsplit hcloses name since later hname hunder p hp htrips
    obtain ⟨other, result, haction⟩ := hcloses.1
    obtain rfl : other = name := by
      rw [haction] at hname
      exact Option.some.inj hname
    have hends : Ends (past service settings start moves) earlier o other result :=
      ⟨⟨rest, hsplit⟩, haction⟩
    have hlong := (houtlives earlier o other result hends hcloses since later hunder p hp htrips).1
    exact Nat.not_lt.mpr hlong (hbrief earlier o other result hends hcloses since later hunder)

/-- The call `x` is let through, and another one opens the circuit. After the open timeout `z` is
let through as a trial. It is `x` that closes the circuit, while the trial is still under way. -/
theorem not_closedByTrials_slow :
    ¬ ClosedByTrials (past (ε := Unit) (ρ := Unit) "a" ⟨1, Span.seconds 30, Span.seconds 10⟩ 0
      [.act (.start "x"), .act (.start "y"), .act (.finish "y" (.error ())),
        .wait (Span.seconds 30), .act (.start "z"), .act (.finish "x" (.ok ()))]) := by
  intro h
  let settings : Breaker.Settings := ⟨1, Span.seconds 30, Span.seconds 10⟩
  let closed : Breaker := ⟨"a", settings, .closed, 0, none, 0⟩
  let opened : Breaker := ⟨"a", settings, .opened, 1, some 0, 0⟩
  let half : Breaker := ⟨"a", settings, .halfOpen, 1, some 0, Span.seconds 30⟩
  let letThrough : Occurrence Calls (Use Unit Unit) :=
    ⟨0, .start "x", ⟨closed, []⟩, ⟨closed, ["x"]⟩⟩
  let trips : Occurrence Calls (Use Unit Unit) :=
    ⟨0, .finish "y" (.error ()), ⟨closed, ["y", "x"]⟩, ⟨opened, ["x"]⟩⟩
  let others : List (Occurrence Calls (Use Unit Unit)) :=
    [⟨0, .start "y", ⟨closed, ["x"]⟩, ⟨closed, ["y", "x"]⟩⟩, trips,
      ⟨Span.seconds 30, .start "z", ⟨opened, ["x"]⟩, ⟨half, ["z", "x"]⟩⟩]
  have hunder : UnderWay (letThrough :: others) "x" letThrough others :=
    ⟨⟨[], rfl⟩, rfl, rfl, by simp [others, trips, Use.name?]⟩
  have hcloses : Closes (⟨Span.seconds 30, .finish "x" (.ok ()), ⟨half, ["z", "x"]⟩,
      ⟨⟨"a", settings, .closed, 0, some 0, Span.seconds 30⟩, ["z"]⟩⟩ :
        Occurrence Calls (Use Unit Unit)) :=
    ⟨⟨"x", .ok (), rfl⟩, rfl, rfl⟩
  exact h (letThrough :: others) _ [] rfl hcloses "x" letThrough others rfl hunder trips
    (by simp [others]) ⟨by decide, rfl⟩

end Calls

end Gatehouse
