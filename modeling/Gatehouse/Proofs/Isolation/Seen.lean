import Gatehouse.Proofs.Isolation.World

/-!
# What is seen apart from one service

Two lists of what is seen are alike when they are the same but for what has to do with one service.

* `Seen.Alike` : the same but for what has to do with one service;
* `Seen.alike_nil` : what has to do with the service may be left out;
* `Seen.alike_ofEvents_nil`, `Seen.alike_ofChange` : measurements and breakers.
-/

namespace Gatehouse.Seen

/-- The same but for what has to do with one service. -/
def Alike (service : String) (x y : List Seen) : Prop :=
  (x.filter fun s => !s.concerns service) = y.filter fun s => !s.concerns service

variable {service : String} {x y z x' y' : List Seen}

theorem Alike.append (h : Alike service x y) (h' : Alike service x' y') :
    Alike service (x ++ x') (y ++ y') := by
  unfold Alike at *
  rw [List.filter_append, List.filter_append, h, h']

theorem Alike.trans (h : Alike service x y) (h' : Alike service y z) : Alike service x z :=
  Eq.trans h h'

theorem Alike.symm (h : Alike service x y) : Alike service y x := Eq.symm h

theorem Alike.of_eq (h : x = y) : Alike service x y := congrArg _ h

theorem alike_nil (h : ∀ s ∈ x, s.concerns service = true) : Alike service x [] := by
  unfold Alike
  rw [List.filter_nil, List.filter_eq_nil_iff]
  intro s hs
  rw [h s hs]
  exact Bool.false_ne_true

/-- What has to do with the service may come after. -/
theorem alike_append_of_nil (h : Alike service y []) (x : List Seen) :
    Alike service (x ++ y) x := by
  have happend := Alike.append (Alike.of_eq (rfl : x = x)) h
  rw [List.append_nil] at happend
  exact happend

theorem ofAnswers_append (subjects : List (String × Subject)) (answers more : List (String × Answer)) :
    ofAnswers subjects (answers ++ more) =
      ofAnswers subjects answers ++ ofAnswers subjects more :=
  List.map_append

theorem alike_ofAnswers_nil {subjects : List (String × Subject)} {id : String}
    (hid : subjects.lookup id = some (.service service)) (a : Answer) :
    Alike service (ofAnswers subjects [(id, a)]) [] := by
  refine alike_nil fun s hs => ?_
  obtain rfl := List.mem_singleton.mp hs
  change ((subjects.lookup id).getD .nothing).concerns service = true
  rw [hid]
  exact decide_eq_true rfl

theorem ofEvents_append (events more : List Event) :
    ofEvents (events ++ more) = ofEvents events ++ ofEvents more := by
  unfold ofEvents
  rw [Event.measurements_append, List.map_append]

theorem alike_ofEvents_nil {events : List Event} (h : Event.Labelled service events) :
    Alike service (ofEvents events) [] := by
  refine alike_nil fun s hs => ?_
  obtain ⟨m, hm, rfl⟩ := List.mem_map.mp hs
  exact decide_eq_true (h m hm)

theorem alike_ofBreaker_nil {before : Option Breaker} {r : Registry} :
    Alike service (ofBreaker before (r.get? service)) [] := by
  refine alike_nil fun s hs => ?_
  unfold ofBreaker at hs
  split_ifs at hs
  · cases hs
  · cases hb : r.get? service with
    | none =>
      rw [hb] at hs
      cases hs
    | some b =>
      rw [hb] at hs
      obtain rfl : s = .breaker b := List.mem_singleton.mp hs
      exact decide_eq_true (Registry.service_of_get? hb)

/-- The breakers that change are the same but for that of the service. -/
theorem alike_ofChange {r₁ r₂ r₁' r₂' : Registry} (h : r₁.Near service r₂)
    (h' : r₁'.Near service r₂') : Alike service (ofChange r₁ r₁') (ofChange r₂ r₂') := by
  unfold ofChange
  rw [h'.entries]
  induction r₂'.entries with
  | nil => rfl
  | cons e entries ih =>
    rw [List.flatMap_cons, List.flatMap_cons]
    refine Alike.append ?_ ih
    by_cases hn : e.service = service
    · rw [hn]
      exact alike_ofBreaker_nil.trans alike_ofBreaker_nil.symm
    · rw [h.get? _ hn, h'.get? _ hn]
      exact .of_eq rfl

/-- Nothing changes but what has to do with the service. -/
theorem alike_ofChange_nil {r r' : Registry} (h : r'.Near service r) :
    Alike service (ofChange r r') [] := by
  refine (alike_ofChange (.refl service r) h).trans (.of_eq ?_)
  unfold ofChange ofBreaker
  simp

end Gatehouse.Seen
