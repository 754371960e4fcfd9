import Gatehouse.Proofs.RateLimit.Buckets
import Gatehouse.Proofs.Unwinding

/-!
# Clients apart from each other

What other clients do makes no difference to a client: not to the answers that it gets, and not to
whether it is kept. This holds whatever tokens are counted in.

* `Limiter.own`, `Limiter.answersTo` : a run without the attempts of others; what a client is told;
* `Limiter.Alike` : limiters that are the same to a client;
* `Limiter.unwinding` : what single moves do to two such limiters;
* `Limiter.answersTo_own`, `Limiter.alike_run` : what follows for runs.
-/

namespace Gatehouse.Limiter

variable {α : Type}

def isOthers (client : String) : Move Action → Bool
  | .act (.attempt other) => other ≠ client
  | _ => false

/-- A run without the attempts of other clients. -/
def own (client : String) (moves : List (Move Action)) : List (Move Action) :=
  moves.filter fun m => !isOthers client m

/-- The moments of the attempts of a client, and whether it was admitted. -/
def answersTo [TokenArithmetic α] (client : String)
    (history : List (Occurrence (Limiter α) Action)) : List (Moment × Bool) :=
  (history.filter fun o => o.action = .attempt client).map fun o =>
    (o.moment, (o.before.attempt client o.moment).1)

theorem answersTo_cons_self [TokenArithmetic α] {client : String}
    {o : Occurrence (Limiter α) Action} (ho : o.action = .attempt client)
    (history : List (Occurrence (Limiter α) Action)) :
    answersTo client (o :: history) =
      (o.moment, (o.before.attempt client o.moment).1) :: answersTo client history := by
  unfold answersTo
  rw [List.filter_cons_of_pos (by simp [ho]), List.map_cons]

theorem answersTo_cons_of_ne [TokenArithmetic α] {client : String}
    {o : Occurrence (Limiter α) Action} (ho : o.action ≠ .attempt client)
    (history : List (Occurrence (Limiter α) Action)) :
    answersTo client (o :: history) = answersTo client history := by
  unfold answersTo
  rw [List.filter_cons_of_neg (by simp [ho])]

/-- The same limiters at the same moment, as far as a client is concerned. -/
structure Alike (client : String) (s t : Instant (Limiter α)) : Prop where
  now : s.now = t.now
  capacity : s.state.capacity = t.state.capacity
  rate : s.state.rate = t.state.rate
  idleTimeout : s.state.idleTimeout = t.state.idleTimeout
  bucket : s.state.bucket? client = t.state.bucket? client

theorem alike_equivalence (client : String) : Equivalence (Alike (α := α) client) where
  refl _ := ⟨rfl, rfl, rfl, rfl, rfl⟩
  symm h := ⟨h.now.symm, h.capacity.symm, h.rate.symm, h.idleTimeout.symm, h.bucket.symm⟩
  trans h h' := ⟨h.now.trans h'.now, h.capacity.trans h'.capacity, h.rate.trans h'.rate,
    h.idleTimeout.trans h'.idleTimeout, h.bucket.trans h'.bucket⟩

namespace Alike

variable {client : String} {s t : Instant (Limiter α)}

theorem met (h : Alike client s t) : s.state.met client s.now = t.state.met client t.now := by
  unfold Limiter.met
  rw [h.bucket, h.capacity, h.now]

variable [TokenArithmetic α]

theorem attempt_fst (h : Alike client s t) :
    (s.state.attempt client s.now).1 = (t.state.attempt client t.now).1 := by
  rw [Limiter.attempt_fst, Limiter.attempt_fst, h.met, h.capacity, h.rate, h.now]

theorem act (h : Alike client s t) (a : Action)
    (hbucket : (act s.now s.state a).bucket? client = (act t.now t.state a).bucket? client) :
    Alike client (s.move Limiter.act (.act a)) (t.move Limiter.act (.act a)) := by
  obtain ⟨hcapacity, hrate, hidle⟩ := act_settings s.state s.now a
  obtain ⟨hcapacity', hrate', hidle'⟩ := act_settings t.state t.now a
  exact ⟨h.now, hcapacity.trans (h.capacity.trans hcapacity'.symm),
    hrate.trans (h.rate.trans hrate'.symm), hidle.trans (h.idleTimeout.trans hidle'.symm), hbucket⟩

theorem move_of_isOthers (client : String) (s : Instant (Limiter α)) {m : Move Action}
    (hm : isOthers client m = true) : Alike client (s.move Limiter.act m) s := by
  cases m with
  | wait span => cases hm
  | act a =>
    cases a with
    | sweep => cases hm
    | attempt other =>
      have hne : client ≠ other := Ne.symm (of_decide_eq_true hm)
      exact ⟨rfl, rfl, rfl, rfl, bucket?_attempt_of_ne s.state other s.now hne⟩

theorem move (h : Alike client s t) (hs : s.state.Keyed) (ht : t.state.Keyed) {m : Move Action}
    (hm : isOthers client m = false) :
    Alike client (s.move Limiter.act m) (t.move Limiter.act m) := by
  cases m with
  | wait span => exact ⟨congrArg (· + span) h.now, h.capacity, h.rate, h.idleTimeout, h.bucket⟩
  | act a =>
    refine h.act a ?_
    cases a with
    | attempt other =>
      obtain rfl : other = client := of_not_not (of_decide_eq_false hm)
      refine (bucket?_attempt s.state other s.now).trans
        (Eq.trans ?_ (bucket?_attempt t.state other t.now).symm)
      rw [h.met, h.capacity, h.rate, h.now]
    | sweep =>
      have hfresh : s.state.isFresh s.now = t.state.isFresh t.now := by
        unfold isFresh
        rw [h.idleTimeout, h.now]
      refine (bucket?_sweep s.state client s.now hs).trans
        (Eq.trans ?_ (bucket?_sweep t.state client t.now ht).symm)
      rw [h.bucket, hfresh]

end Alike

section Runs
variable [TokenArithmetic α] (client : String)

theorem keyed_move (s : Instant (Limiter α)) (hs : s.state.Keyed) (m : Move Action) :
    (s.move act m).state.Keyed := by
  cases m with
  | wait span => exact hs
  | act a => exact hs.act s.now a

/-- Attempts of other clients are not seen by a client. -/
theorem unwinding : Unwinding (Instant.move (act (α := α))) (isOthers client) (fun _ => True)
    (fun s => s.state.Keyed) (Alike client) where
  equivalence := alike_equivalence client
  sound_step s m _ hs := keyed_move s hs m
  near_hidden s _ _ hm _ := Alike.move_of_isOthers client s hm
  near_step _ _ _ _ hm hs ht h := h.move hs ht hm

variable {client}

/-- Runs that are the same but for what other clients do leave a client with the same bucket. -/
theorem alike_run {s t : Instant (Limiter α)} (hs : s.state.Keyed) (ht : t.state.Keyed)
    (h : Alike client s t) {moves moves' : List (Move Action)}
    (hown : own client moves = own client moves') :
    Alike client (s.run act moves) (t.run act moves') :=
  (unwinding client).foldl_near (fun _ _ => trivial) (fun _ _ => trivial) hown hs ht h

/-- A client gets the same answers when the attempts of other clients are left out. -/
theorem answersTo_own {s t : Instant (Limiter α)} (hs : s.state.Keyed) (ht : t.state.Keyed)
    (h : Alike client s t) (moves : List (Move Action)) :
    answersTo client (s.history act moves) = answersTo client (t.history act (own client moves)) := by
  induction moves generalizing s t with
  | nil => rfl
  | cons m moves ih =>
    cases hm : isOthers client m with
    | true =>
      have hrest := ih (keyed_move s hs m) ht
        ((alike_equivalence client).trans (Alike.move_of_isOthers client s hm) h)
      rw [own, List.filter_cons_of_neg (by simp [hm])]
      cases m with
      | wait span => cases hm
      | act a =>
        have hnot : a ≠ .attempt client := by
          rintro rfl
          exact absurd rfl (of_decide_eq_true hm)
        exact (answersTo_cons_of_ne (o := ⟨s.now, a, s.state, act s.now s.state a⟩) hnot _).trans hrest
    | false =>
      have hrest := ih (keyed_move s hs m) (keyed_move t ht m) (h.move hs ht hm)
      rw [own, List.filter_cons_of_pos (by simp [hm])]
      cases m with
      | wait span => exact hrest
      | act a =>
        let o : Occurrence (Limiter α) Action := ⟨s.now, a, s.state, act s.now s.state a⟩
        let o' : Occurrence (Limiter α) Action := ⟨t.now, a, t.state, act t.now t.state a⟩
        change answersTo client (o :: _) = answersTo client (o' :: _)
        by_cases ha : a = .attempt client
        · rw [answersTo_cons_self (o := o) ha, answersTo_cons_self (o := o') ha]
          exact congrArg₂ List.cons (congrArg₂ Prod.mk h.now h.attempt_fst) hrest
        · rw [answersTo_cons_of_ne (o := o) ha, answersTo_cons_of_ne (o := o') ha]
          exact hrest

end Runs

end Gatehouse.Limiter
