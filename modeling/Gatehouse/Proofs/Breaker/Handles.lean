import Gatehouse.Proofs.Breaker.Operations
import Gatehouse.Proofs.Gateway.OwnBreaker
import Mathlib.Data.List.Nodup

/-!
# Breakers that are shared

Whoever looks up a breaker holds on to the place where it is kept and goes on to use it there, without
its name. The names lead to the places through a map that gives them out in an order of its own. What
is done and seen this way is what is done and seen by names.

* `Registry.names` : the names that have a breaker, each once;
* `Shared`, `Shared.perform` : the breakers in their places, and what is done with them there;
* `Shared.Keeps` : the places keep the breakers of a registry;
* `Shared.Keeps.get?`, `Shared.Keeps.snapshots` : what is seen through the places;
* `Shared.Keeps.perform` : what is done there, and what is done by names;
* `Shared.Keeps.run` : the same for runs.
-/

namespace Gatehouse

namespace Breaker.Snapshot

def sort (shots : List Snapshot) : List Snapshot := shots.mergeSort fun a b => a.service ≤ b.service

theorem sort_perm (shots : List Snapshot) : (sort shots).Perm shots := List.mergeSort_perm ..

theorem sorted_sort (shots : List Snapshot) :
    (sort shots).Pairwise fun a b => a.service ≤ b.service := by
  have htrans : ∀ a b c : Snapshot, decide (a.service ≤ b.service) = true →
      decide (b.service ≤ c.service) = true → decide (a.service ≤ c.service) = true :=
    fun a b c hab hbc => decide_eq_true (le_trans (of_decide_eq_true hab) (of_decide_eq_true hbc))
  have htotal : ∀ a b : Snapshot,
      (decide (a.service ≤ b.service) || decide (b.service ≤ a.service)) = true := by
    intro a b
    rw [Bool.or_eq_true, decide_eq_true_iff, decide_eq_true_iff]
    exact le_total a.service b.service
  exact (List.pairwise_mergeSort htrans htotal shots).imp fun hab => of_decide_eq_true hab

/-- Snapshots of different services are sorted in one way only. -/
theorem sort_eq_of_perm {shots others : List Snapshot} (hp : shots.Perm others)
    (hn : (others.map (·.service)).Nodup) : sort shots = sort others := by
  have hsame : ∀ a b : Snapshot, a ∈ sort shots → b ∈ sort others → a.service ≤ b.service →
      b.service ≤ a.service → a = b := by
    intro a b ha hb hab hba
    have ha' : a ∈ others := hp.mem_iff.mp ((sort_perm shots).mem_iff.mp ha)
    exact List.inj_on_of_nodup_map hn ha' ((sort_perm others).mem_iff.mp hb) (le_antisymm hab hba)
  exact List.Perm.eq_of_pairwise hsame (sorted_sort shots) (sorted_sort others)
    (((sort_perm shots).trans hp).trans (sort_perm others).symm)

end Breaker.Snapshot

namespace Registry

variable {r : Registry}

def names (r : Registry) : List String := r.breakers.map (·.service)

def step {ε ρ : Type} (now : Moment) (r : Registry) (o : Operation ε ρ) : Registry :=
  (r.perform now o).2.1

theorem names_replace (r : Registry) (b : Breaker) : (r.replace b).names = r.names := by
  unfold names replace
  rw [List.map_map]
  refine List.map_congr_left fun c _ => ?_
  show (if c.service = b.service then b else c).service = c.service
  split_ifs with hc
  · exact hc.symm
  · rfl

theorem names_perform {ε ρ : Type} (now : Moment) (r : Registry) (o : Operation ε ρ) :
    (r.perform now o).2.1.names = r.names := by
  cases ho : o.deed? with
  | none => rw [perform_of_looking now r ho]
  | some x =>
    rw [perform_of_deed now r ho]
    unfold update
    cases r.get? x.1 with
    | none => rfl
    | some b => exact names_replace r _

theorem get?_eq_some_iff (hn : r.names.Nodup) {name : String} {b : Breaker} :
    r.get? name = some b ↔ b ∈ r.breakers ∧ b.service = name := by
  constructor
  · intro h
    exact ⟨List.mem_of_find?_eq_some h, service_of_get? h⟩
  · rintro ⟨hb, rfl⟩
    have hsome : (r.get? b.service).isSome = true :=
      List.find?_isSome.mpr ⟨b, hb, decide_eq_true rfl⟩
    obtain ⟨c, hc⟩ := Option.isSome_iff_exists.mp hsome
    rw [hc, List.inj_on_of_nodup_map hn (List.mem_of_find?_eq_some hc) hb (service_of_get? hc)]

theorem isSome_get?_iff_mem_names {name : String} : (r.get? name).isSome = true ↔ name ∈ r.names := by
  unfold get? names
  simp [List.find?_isSome]

theorem breakers_replace (hn : r.names.Nodup) {k : Nat} {b b' : Breaker}
    (hb : r.breakers[k]? = some b) (hservice : b'.service = b.service) :
    (r.replace b').breakers = r.breakers.set k b' := by
  refine List.ext_getElem? fun j => ?_
  unfold replace
  rw [List.getElem?_map, List.getElem?_set, hservice]
  by_cases hj : k = j
  · subst hj
    obtain ⟨hk, hbk⟩ := List.getElem?_eq_some_iff.mp hb
    rw [hb, Option.map_some, if_pos rfl, if_pos rfl, if_pos hk]
  · rw [if_neg hj]
    cases hc : r.breakers[j]? with
    | none => rfl
    | some c =>
      have hne : c.service ≠ b.service := by
        intro hsame
        have hcj : r.names[j]? = some b.service := by
          unfold names
          rw [List.getElem?_map, hc, Option.map_some, hsame]
        have hbk : r.names[k]? = some b.service := by
          unfold names
          rw [List.getElem?_map, hb, Option.map_some]
        obtain ⟨hk, -⟩ := List.getElem?_eq_some_iff.mp hbk
        exact hj ((List.getElem?_inj hk hn).mp (hbk.trans hcj.symm))
      rw [Option.map_some, if_neg hne]

end Registry

/-- Breakers in the places where they are kept, and the names that lead there, in the order in which
a map gives them out. -/
structure Shared where
  cells : List Breaker
  table : List (String × Nat)
  entries : List Registry.Entry

namespace Shared

/-- What may be done. A breaker is used by its place alone. -/
inductive Use (ε ρ : Type) where
  | through (place : Nat) (deed : Breaker.Deed ε ρ)
  | get (service : String)
  | resolve (target : Url)
  | reset (service : String)
  | snapshots
  deriving Repr

inductive Reply (ε ρ : Type) where
  | told (reply : Breaker.Reply ε ρ)
  /-- Nothing is kept there. -/
  | unknown
  | reset (known : Bool)
  | place (place : Option Nat)
  | shown (snapshots : List Breaker.Snapshot)

variable {ε ρ : Type} (s : Shared)

def place? (service : String) : Option Nat := (s.table.find? fun e => e.1 = service).map (·.2)

def breaker? (place : Nat) : Option Breaker := s.cells[place]?

def get? (service : String) : Option Breaker := (s.place? service).bind s.breaker?

def resolve (target : Url) : Option Nat := s.place? (Registry.serviceName ⟨s.cells, s.entries⟩ target)

/-- The breakers as the map gives them out, sorted by name. -/
def snapshots (now : Moment) : List Breaker.Snapshot :=
  Breaker.Snapshot.sort (s.table.filterMap fun e => (s.breaker? e.2).map (·.snapshot now))

/-- Something is done with the breaker at a place. -/
def through (now : Moment) (place : Nat) (d : Breaker.Deed ε ρ) :
    Reply ε ρ × Shared × List Event :=
  match s.breaker? place with
  | some b =>
    let (reply, b, events) := b.perform now d
    (.told reply, { s with cells := s.cells.set place b }, events)
  | none => (.unknown, s, [])

def reset (now : Moment) (service : String) : Bool × Shared × List Event :=
  match s.place? service with
  | some place => (true, (s.through now place (.reset : Breaker.Deed Empty Empty)).2)
  | none => (false, s, [])

def perform (now : Moment) : Use ε ρ → Reply ε ρ × Shared × List Event
  | .through place d => s.through now place d
  | .get service => (.place (s.place? service), s, [])
  | .resolve target => (.place (s.resolve target), s, [])
  | .reset service => (.reset (s.reset now service).1, (s.reset now service).2)
  | .snapshots => (.shown (s.snapshots now), s, [])

def step (now : Moment) (s : Shared) (u : Use ε ρ) : Shared := (s.perform now u).2.1

/-- What is done, said by names, if there is something at the place where it is done. -/
def Use.named (names : List String) : Use ε ρ → Option (Registry.Operation ε ρ)
  | through place d => names[place]?.map fun name => .on name d
  | get service => some (.get service)
  | resolve target => some (.resolve target)
  | reset service => some (.reset service)
  | snapshots => some .snapshots

/-- What the caller sees who looks at the places that it gets. -/
def Reply.seen : Reply ε ρ → Registry.Reply ε ρ
  | told reply => .told reply
  | unknown => .unknown
  | reset known => .reset known
  | place p => .breaker (p.bind s.breaker?)
  | shown snapshots => .shown snapshots

/-- The breakers of `r` are kept in their places, and each name leads to its own, in any order. -/
structure Keeps (s : Shared) (r : Registry) : Prop where
  cells : s.cells = r.breakers
  entries : s.entries = r.entries
  nodup : r.names.Nodup
  table : s.table.Perm r.names.zipIdx

namespace Keeps

variable {s} {r : Registry} (h : s.Keeps r)
include h

theorem place?_eq_some_iff {name : String} {place : Nat} :
    s.place? name = some place ↔ ∃ b, s.breaker? place = some b ∧ b.service = name := by
  have hmem : (name, place) ∈ s.table ↔ ∃ b, s.breaker? place = some b ∧ b.service = name := by
    rw [h.table.mem_iff, List.mem_zipIdx_iff_getElem?]
    unfold Registry.names breaker?
    rw [List.getElem?_map, Option.map_eq_some_iff, h.cells]
  rw [← hmem]
  unfold place?
  constructor
  · intro hfind
    obtain ⟨e, he, rfl⟩ := Option.map_eq_some_iff.mp hfind
    have hname : e.1 = name := by simpa using List.find?_some he
    rw [← hname]
    exact List.mem_of_find?_eq_some he
  · intro hentry
    have hkeys : (s.table.map Prod.fst).Nodup := by
      rw [(h.table.map Prod.fst).nodup_iff, List.zipIdx_map_fst]
      exact h.nodup
    have hsome : (s.table.find? fun e => e.1 = name).isSome = true :=
      List.find?_isSome.mpr ⟨(name, place), hentry, by simp⟩
    obtain ⟨e, he⟩ := Option.isSome_iff_exists.mp hsome
    have hname : e.1 = name := by simpa using List.find?_some he
    rw [he, List.inj_on_of_nodup_map hkeys (List.mem_of_find?_eq_some he) hentry hname]
    rfl

theorem get? (name : String) : s.get? name = r.get? name := by
  unfold Shared.get?
  refine Option.ext fun b => ?_
  rw [Registry.get?_eq_some_iff h.nodup, Option.bind_eq_some_iff]
  constructor
  · rintro ⟨place, hplace, hb⟩
    obtain ⟨c, hc, rfl⟩ := h.place?_eq_some_iff.mp hplace
    obtain rfl : b = c := Option.some.inj (hb.symm.trans hc)
    refine ⟨?_, rfl⟩
    rw [← h.cells]
    exact List.mem_of_getElem? hb
  · rintro ⟨hb, rfl⟩
    rw [← h.cells] at hb
    obtain ⟨place, hplace⟩ := List.mem_iff_getElem?.mp hb
    exact ⟨place, h.place?_eq_some_iff.mpr ⟨b, hplace, rfl⟩, hplace⟩

theorem serviceName (target : Url) :
    Registry.serviceName ⟨s.cells, s.entries⟩ target = r.serviceName target := by
  rw [h.cells, h.entries]

theorem resolve (target : Url) : (s.resolve target).bind s.breaker? = r.resolve target := by
  unfold Shared.resolve
  rw [h.serviceName]
  exact h.get? _

/-- The order in which the map gives out the breakers does not show. -/
theorem snapshots (now : Moment) : s.snapshots now = r.snapshots now := by
  have hshots : (s.table.filterMap fun e => (s.breaker? e.2).map (·.snapshot now)).Perm
      (r.breakers.map (·.snapshot now)) := by
    refine (h.table.filterMap _).trans (List.Perm.of_eq ?_)
    unfold Registry.names breaker?
    rw [List.zipIdx_map, List.filterMap_map, h.cells]
    calc r.breakers.zipIdx.filterMap _
      _ = r.breakers.zipIdx.filterMap (some ∘ (fun b : Breaker => b.snapshot now) ∘ Prod.fst) := by
          refine List.filterMap_congr fun e he => ?_
          have hcell := List.mem_zipIdx_iff_getElem?.mp he
          show (r.breakers[e.2]?).map (·.snapshot now) = some (e.1.snapshot now)
          rw [hcell, Option.map_some]
      _ = r.breakers.map (·.snapshot now) := by
          rw [List.filterMap_eq_map, ← List.map_map, List.zipIdx_map_fst]
  refine Breaker.Snapshot.sort_eq_of_perm hshots ?_
  rw [List.map_map]
  exact h.nodup

theorem get?_of_breaker? {place : Nat} {b : Breaker} (hb : s.breaker? place = some b) :
    r.get? b.service = some b := by
  rw [← h.get?]
  unfold Shared.get?
  rw [h.place?_eq_some_iff.mpr ⟨b, hb, rfl⟩]
  exact hb

theorem set {place : Nat} {b b' : Breaker} (hb : s.breaker? place = some b)
    (hservice : b'.service = b.service) :
    Keeps { s with cells := s.cells.set place b' } (r.replace b') where
  cells := by
    unfold breaker? at hb
    rw [h.cells] at hb
    rw [Registry.breakers_replace h.nodup hb hservice, h.cells]
  entries := h.entries
  nodup := by
    rw [Registry.names_replace]
    exact h.nodup
  table := by
    rw [Registry.names_replace]
    exact h.table

theorem through {place : Nat} {b : Breaker} (hb : s.breaker? place = some b) (now : Moment)
    (d : Breaker.Deed ε ρ) :
    s.through now place d = (.told (b.perform now d).1,
        { s with cells := s.cells.set place (b.perform now d).2.1 }, (b.perform now d).2.2) ∧
      Keeps { s with cells := s.cells.set place (b.perform now d).2.1 }
        (r.replace (b.perform now d).2.1) := by
  refine ⟨?_, h.set hb (Breaker.tells_perform b now d).service⟩
  unfold Shared.through
  rw [hb]

/-- **What is done and seen through places is what is done and seen by names.** -/
theorem perform (now : Moment) {u : Use ε ρ} {o : Registry.Operation ε ρ}
    (hu : u.named r.names = some o) :
    (s.perform now u).1.seen s = (r.perform now o).1 ∧
      (s.perform now u).2.1.Keeps (r.perform now o).2.1 ∧
      (s.perform now u).2.2 = (r.perform now o).2.2 := by
  cases u with
  | through place d =>
    obtain ⟨name, hname, rfl⟩ := Option.map_eq_some_iff.mp hu
    unfold Registry.names at hname
    rw [List.getElem?_map, ← h.cells] at hname
    obtain ⟨b, hb, rfl⟩ := Option.map_eq_some_iff.mp hname
    obtain ⟨hdone, hkeeps⟩ := h.through hb now d
    have hperform : s.perform now (.through place d) = s.through now place d := rfl
    rw [Registry.perform_on_of_known now (h.get?_of_breaker? hb) d, hperform, hdone]
    exact ⟨rfl, hkeeps, rfl⟩
  | get service =>
    obtain rfl := Option.some.inj hu
    exact ⟨congrArg Registry.Reply.breaker (h.get? service), h, rfl⟩
  | resolve target =>
    obtain rfl := Option.some.inj hu
    exact ⟨congrArg Registry.Reply.breaker (h.resolve target), h, rfl⟩
  | reset service =>
    obtain rfl := Option.some.inj hu
    have hperform : s.perform now (.reset service : Use ε ρ) =
        (.reset (s.reset now service).1, (s.reset now service).2) := rfl
    rw [hperform]
    unfold Shared.reset
    have hget := h.get? service
    unfold Shared.get? at hget
    cases hplace : s.place? service with
    | none =>
      rw [hplace] at hget
      rw [Registry.perform_reset_of_unknown now hget.symm]
      exact ⟨rfl, h, rfl⟩
    | some place =>
      obtain ⟨b, hb, rfl⟩ := h.place?_eq_some_iff.mp hplace
      obtain ⟨hdone, hkeeps⟩ := h.through hb now (.reset : Breaker.Deed Empty Empty)
      rw [Registry.perform_reset_of_known now (h.get?_of_breaker? hb)]
      dsimp only
      rw [hdone]
      exact ⟨rfl, hkeeps, rfl⟩
  | snapshots =>
    obtain rfl := Option.some.inj hu
    exact ⟨congrArg Registry.Reply.shown (h.snapshots now), h, rfl⟩

theorem perform_nowhere (now : Moment) {u : Use ε ρ} (hu : u.named r.names = none) :
    s.perform now u = (.unknown, s, []) := by
  cases u with
  | through place d =>
    have hname := Option.map_eq_none_iff.mp hu
    unfold Registry.names at hname
    rw [List.getElem?_map, ← h.cells] at hname
    have hb : s.breaker? place = none := Option.map_eq_none_iff.mp hname
    have hperform : s.perform now (.through place d) = s.through now place d := rfl
    rw [hperform]
    unfold Shared.through
    rw [hb]
  | get service => cases hu
  | resolve target => cases hu
  | reset service => cases hu
  | snapshots => cases hu

end Keeps

/-! ## Runs -/

def namedMoves (names : List String) :
    List (Move (Use ε ρ)) → List (Move (Registry.Operation ε ρ))
  | [] => []
  | .wait span :: moves => .wait span :: namedMoves names moves
  | .act u :: moves => (u.named names).toList.map .act ++ namedMoves names moves

theorem Keeps.run {s : Shared} {r : Registry} (h : s.Keeps r) (start : Moment)
    (moves : List (Move (Use ε ρ))) :
    ((Instant.mk start s).run step moves).state.Keeps
        ((Instant.mk start r).run Registry.step (namedMoves r.names moves)).state ∧
      ((Instant.mk start s).run step moves).now =
        ((Instant.mk start r).run Registry.step (namedMoves r.names moves)).now := by
  induction moves generalizing s r start with
  | nil => exact ⟨h, rfl⟩
  | cons m moves ih =>
    cases m with
    | wait span => exact ih h (start + span)
    | act u =>
      cases hu : u.named r.names with
      | none =>
        have hmoves : namedMoves r.names (.act u :: moves) = namedMoves r.names moves := by
          rw [namedMoves, hu]
          rfl
        have hstep : step start s u = s := congrArg (·.2.1) (h.perform_nowhere start hu)
        rw [hmoves, Instant.run_cons]
        show Keeps (Instant.run step ⟨start, step start s u⟩ moves).state _ ∧
          (Instant.run step ⟨start, step start s u⟩ moves).now = _
        rw [hstep]
        exact ih h start
      | some o =>
        have hmoves : namedMoves r.names (.act u :: moves) = .act o :: namedMoves r.names moves := by
          rw [namedMoves, hu]
          rfl
        have hnext := ih (h.perform start hu).2.1 start
        rw [Registry.names_perform] at hnext
        rw [hmoves]
        exact hnext

end Shared

end Gatehouse
