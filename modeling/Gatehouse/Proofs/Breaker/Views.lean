import Gatehouse.Gateway.Admin
import Gatehouse.Proofs.Breaker.Handles
import Mathlib.Data.List.Dedup

/-!
# What a registry shows

A registry shows its breakers by name, in a list, and as a number on the status page. The views agree
with each other and with the breakers after every run, also of those who look up a breaker once and go
on to use it where it is kept.

* `Registry.names_ofServices` : the names that a new registry has;
* `Registry.strictly_sorted_snapshots`, `Registry.mem_snapshots_iff` : the list of snapshots;
* `Breaker.Snapshot.Shows` : what a snapshot says about a breaker;
* `Registry.openCircuits_eq` : the number of circuits that are not closed;
* `Registry.Consistent` : how the views of a registry agree;
* `Shared.ViewLaw`, `Shared.viewLaw` : the same seen through the places, after every run.

Ages are whole milliseconds in sixty-four bits.
-/

namespace Gatehouse

open Gatehouse.Document

/-- A snapshot shows the breaker `b` as it is at `now`. -/
structure Breaker.Snapshot.Shows (shot : Snapshot) (b : Breaker) (now : Moment) : Prop where
  service : shot.service = b.service
  circuit : shot.circuit = b.circuit
  failures : shot.failures = b.failures
  /-- The time since the last change in whole milliseconds, as far as sixty-four bits go. -/
  ageMs : shot.ageMs = elapsed now b.lastChange / 1000000 % 2 ^ 64
  /-- The time since the last failure, if there was one. -/
  lastFailureMsAgo : shot.lastFailureMsAgo =
    b.lastFailure.map fun t => elapsed now t / 1000000 % 2 ^ 64

theorem Breaker.shows_snapshot (b : Breaker) (now : Moment) : (b.snapshot now).Shows b now :=
  ⟨rfl, rfl, rfl, rfl, rfl⟩

namespace Registry

/-! ## Names -/

theorem names_add [Idna] (settings : Breaker.Settings) (now : Moment) (service base : String)
    (r : Registry) : (r.add settings now service base).1.names =
      if service ∈ r.names then r.names else r.names ++ [service] := by
  unfold add names
  cases hb : r.get? service with
  | some b =>
    have hmem : service ∈ r.breakers.map (·.service) :=
      isSome_get?_iff_mem_names.mp (Option.isSome_of_eq_some hb)
    rw [if_pos hmem]
    rfl
  | none =>
    have hmem : service ∉ r.breakers.map (·.service) := fun hmem => by
      have hsome := isSome_get?_iff_mem_names.mpr hmem
      rw [hb] at hsome
      cases hsome
    rw [if_neg hmem]
    exact List.map_append

theorem names_ofServices [Idna] (services : List (String × String)) (settings : Breaker.Settings)
    (now : Moment) : (ofServices services settings now).1.names.Nodup ∧
      ∀ name, name ∈ (ofServices services settings now).1.names ↔ name ∈ services.map Prod.fst := by
  have h : ∀ r : Registry, r.names.Nodup →
      (services.foldl (fun r s => (r.add settings now s.1 s.2).1) r).names.Nodup := by
    induction services with
    | nil => exact fun r hr => hr
    | cons s services ih =>
      intro r hr
      refine ih _ ?_
      rw [names_add]
      split_ifs with hmem
      · exact hr
      · rw [← List.concat_eq_append]
        exact hr.concat hmem
  constructor
  · rw [ofServices_fst]
    exact h ⟨[], []⟩ List.nodup_nil
  · intro name
    rw [← isSome_get?_iff_mem_names, get?_ofServices]
    split_ifs with hmem
    · exact iff_of_true rfl hmem
    · exact iff_of_false Bool.false_ne_true hmem

theorem length_names (r : Registry) : r.names.length = r.breakers.length := List.length_map _

theorem names_perm_dedup {r : Registry} (hn : r.names.Nodup) {configured : List String}
    (hnames : ∀ name, name ∈ r.names ↔ name ∈ configured) : r.names.Perm configured.dedup :=
  (List.perm_ext_iff_of_nodup hn configured.nodup_dedup).mpr fun name => by
    rw [hnames, List.mem_dedup]

theorem names_run {ε ρ : Type} (r : Registry) (start : Moment) (moves : List (Move (Operation ε ρ))) :
    ((Instant.mk start r).run step moves).state.names = r.names :=
  Instant.history_induction step (P := fun _ _ t => t.names = r.names) ⟨start, r⟩ rfl
    (fun _ _ _ _ h => h) (fun _ now t o h => (names_perform now t o).trans h) moves

/-! ## Snapshots -/

section Snapshots
variable (now : Moment) {r : Registry}

theorem snapshots_perm (r : Registry) :
    (r.snapshots now).Perm (r.breakers.map (·.snapshot now)) :=
  List.mergeSort_perm ..

/-- The snapshots of different services stand in the strict order of their names. -/
theorem strictly_sorted_snapshots (hn : r.names.Nodup) :
    (r.snapshots now).Pairwise fun a b => a.service < b.service := by
  have hservices : ((r.snapshots now).map (·.service)).Nodup := by
    rw [((snapshots_perm now r).map (·.service)).nodup_iff, List.map_map]
    exact hn
  have hsorted : (r.snapshots now).Pairwise fun a b => a.service ≤ b.service :=
    Breaker.Snapshot.sorted_sort (r.breakers.map fun b : Breaker => b.snapshot now)
  exact hsorted.imp₂ (fun _ _ hle hne => lt_of_le_of_ne hle hne) (List.pairwise_map.mp hservices)

theorem mem_snapshots_iff (hn : r.names.Nodup) {shot : Breaker.Snapshot} :
    shot ∈ r.snapshots now ↔ ∃ b, r.get? shot.service = some b ∧ shot = b.snapshot now := by
  rw [(snapshots_perm now r).mem_iff, List.mem_map]
  constructor
  · rintro ⟨b, hb, rfl⟩
    exact ⟨b, (get?_eq_some_iff hn).mpr ⟨hb, rfl⟩, rfl⟩
  · rintro ⟨b, hb, hshot⟩
    exact ⟨b, ((get?_eq_some_iff hn).mp hb).1, hshot.symm⟩

theorem mem_services_snapshots_iff {name : String} :
    name ∈ (r.snapshots now).map (·.service) ↔ name ∈ r.names := by
  rw [((snapshots_perm now r).map (·.service)).mem_iff, List.map_map]
  rfl

/-- How many of some names have a circuit that is not closed. -/
def notClosed (names : List String) (r : Registry) : Nat :=
  names.countP fun name => (r.get? name).any fun b => b.circuit ≠ .closed

/-- The circuits that are shown not to be closed are those of the names whose breaker is not. -/
theorem openCircuits_eq (hn : r.names.Nodup) {configured : List String}
    (hnames : ∀ name, name ∈ r.names ↔ name ∈ configured) :
    Admin.openCircuits (r.snapshots now) = r.notClosed configured.dedup := by
  have hperm := names_perm_dedup hn hnames
  unfold Admin.openCircuits notClosed
  rw [← List.countP_eq_length_filter, (snapshots_perm now r).countP_eq, List.countP_map,
    ← hperm.countP_eq]
  unfold names
  rw [List.countP_map]
  refine List.countP_congr fun b hb => ?_
  have hget : r.get? b.service = some b := (get?_eq_some_iff hn).mpr ⟨hb, rfl⟩
  simp [hget, Breaker.snapshot]

end Snapshots

theorem status_entries (r : Registry) (routes clients : Nat) (now : Moment) : ∃ entries,
    Admin.status r routes clients now = Reply.json .ok (.table entries) ∧
      Tree.find? "services" entries = some (.int r.breakers.length) ∧
      Tree.find? "open_circuits" entries = some (.int (Admin.openCircuits (r.snapshots now))) ∧
      Tree.find? "status" entries = some (.text
        (if Admin.openCircuits (r.snapshots now) = 0 then "operational" else "degraded")) :=
  ⟨_, rfl, rfl, rfl, rfl⟩

/-! ## All views -/

/-- The views of a registry with the names `configured` as they are at `now`, and what operations do
to them at any later moment. -/
structure Consistent (ε ρ : Type) (configured : List String) (now : Moment) (r : Registry) :
    Prop where
  /-- There is one breaker for each configured name, and none besides. -/
  names_nodup : r.names.Nodup
  mem_names_iff : ∀ name, name ∈ r.names ↔ name ∈ configured
  known_iff : ∀ name, (r.get? name).isSome = true ↔ name ∈ configured
  /-- So there is one snapshot for each. They are in the strict order of the names. -/
  sorted : (r.snapshots now).Pairwise fun a b => a.service < b.service
  mem_services_iff : ∀ name, name ∈ (r.snapshots now).map (·.service) ↔ name ∈ configured
  /-- Each shows the breaker of its name. -/
  shows : ∀ shot ∈ r.snapshots now, ∃ b, r.get? shot.service = some b ∧ shot.Shows b now
  /-- Looking changes nothing. -/
  looking : ∀ o : Operation ε ρ, o.deed? = none → ∀ later, (r.perform later o).2 = (r, [])
  /-- What is done with the breaker of a name shows. -/
  done : ∀ (o : Operation ε ρ) (service : String) (d : Breaker.Deed ε ρ),
    o.deed? = some (service, d) → ∀ b, r.get? service = some b → ∀ later,
      (r.step later o).get? service = some (b.perform later d).2.1 ∧
        (b.perform later d).2.1.snapshot later ∈ (r.step later o).snapshots later
  /-- And it shows nowhere else. -/
  apart : ∀ (o : Operation ε ρ) (service : String) (d : Breaker.Deed ε ρ),
    o.deed? = some (service, d) → ∀ name ≠ service, ∀ later,
      (r.step later o).get? name = r.get? name
  /-- The status page says how many of the names have a circuit that is not closed, and whether there
  is one. -/
  status : ∀ routes clients : Nat, ∃ entries,
    Admin.status r routes clients now = Reply.json .ok (.table entries) ∧
      Tree.find? "services" entries = some (.int configured.dedup.length) ∧
      Tree.find? "open_circuits" entries = some (.int (r.notClosed configured.dedup)) ∧
      (Tree.find? "status" entries = some (.text "degraded") ↔ 0 < r.notClosed configured.dedup) ∧
      (Tree.find? "status" entries = some (.text "operational") ↔
        r.notClosed configured.dedup = 0)

theorem consistent (ε ρ : Type) {configured : List String} (now : Moment) {r : Registry}
    (hn : r.names.Nodup) (hnames : ∀ name, name ∈ r.names ↔ name ∈ configured) :
    r.Consistent ε ρ configured now where
  names_nodup := hn
  mem_names_iff := hnames
  known_iff name := isSome_get?_iff_mem_names.trans (hnames name)
  sorted := strictly_sorted_snapshots now hn
  mem_services_iff name := (mem_services_snapshots_iff now).trans (hnames name)
  shows := by
    intro shot hshot
    obtain ⟨b, hb, rfl⟩ := (mem_snapshots_iff now hn).mp hshot
    exact ⟨b, hb, b.shows_snapshot now⟩
  looking o ho later := perform_of_looking later r ho
  done := by
    intro o service d ho b hb later
    have hservice := (Breaker.tells_perform b later d).service
    have hget : (r.step later o).get? service = some (b.perform later d).2.1 := by
      unfold step
      rw [perform_of_deed later r ho,
        get?_update _ _ _ (fun b => (Breaker.tells_perform b later d).service), if_pos rfl, hb]
      rfl
    have hn' : (r.step later o).names.Nodup := by
      unfold step
      rw [names_perform]
      exact hn
    refine ⟨hget, (mem_snapshots_iff later hn').mpr ⟨_, ?_, rfl⟩⟩
    rw [(Breaker.shows_snapshot _ later).service, hservice, service_of_get? hb]
    exact hget
  apart := by
    intro o service d ho name hname later
    unfold step
    rw [perform_of_deed later r ho,
      get?_update _ _ _ (fun b => (Breaker.tells_perform b later d).service), if_neg hname]
  status := by
    intro routes clients
    have hlength : r.breakers.length = configured.dedup.length := by
      rw [← length_names, (names_perm_dedup hn hnames).length_eq]
    have hopen : Admin.openCircuits (r.snapshots now) = r.notClosed configured.dedup :=
      openCircuits_eq now hn hnames
    obtain ⟨entries, hpage, hservices, hcircuits, hstatus⟩ := status_entries r routes clients now
    rw [hlength] at hservices
    rw [hopen] at hcircuits hstatus
    refine ⟨entries, hpage, hservices, hcircuits, ?_, ?_⟩
    · rw [hstatus]
      split_ifs with hnone
      · simp [hnone]
      · simp [Nat.pos_of_ne_zero hnone]
    · rw [hstatus]
      split_ifs with hnone
      · simp [hnone]
      · simp [hnone]

end Registry

/-! ## Views through places -/

namespace Shared

variable {ε ρ : Type}

/-- The names go on leading to the same places, and the services stay as they were given. -/
theorem table_perform (now : Moment) (s : Shared) (u : Use ε ρ) :
    (s.perform now u).2.1.table = s.table ∧ (s.perform now u).2.1.entries = s.entries := by
  have hthrough : ∀ {ε' ρ' : Type} (place : Nat) (d : Breaker.Deed ε' ρ'),
      (s.through now place d).2.1.table = s.table ∧
        (s.through now place d).2.1.entries = s.entries := by
    intro ε' ρ' place d
    unfold through
    split
    · exact ⟨rfl, rfl⟩
    · exact ⟨rfl, rfl⟩
  cases u with
  | through place d => exact hthrough place d
  | get service => exact ⟨rfl, rfl⟩
  | resolve target => exact ⟨rfl, rfl⟩
  | reset service =>
    show (s.reset now service).2.1.table = s.table ∧ (s.reset now service).2.1.entries = s.entries
    unfold reset
    split
    · exact hthrough _ _
    · exact ⟨rfl, rfl⟩
  | snapshots => exact ⟨rfl, rfl⟩

theorem table_run (s : Shared) (start : Moment) (moves : List (Move (Use ε ρ))) :
    ((Instant.mk start s).run step moves).state.table = s.table ∧
      ((Instant.mk start s).run step moves).state.entries = s.entries := by
  refine Instant.history_induction step (P := fun _ _ t => t.table = s.table ∧ t.entries = s.entries)
    ⟨start, s⟩ ⟨rfl, rfl⟩ (fun _ _ _ _ h => h) ?_ moves
  intro _ now t u h
  have hstep := table_perform now t u
  exact ⟨hstep.1.trans h.1, hstep.2.trans h.2⟩

def Use.looks : Use ε ρ → Bool
  | get _ => true
  | resolve _ => true
  | snapshots => true
  | _ => false

/-- What is seen at `now`, and done later on, through the places where breakers are kept, by those who
look them up now and by those who have looked them up in `s₀`. By name the registry `r` is seen. -/
structure ViewLaw (ε ρ : Type) (configured : List String) (s₀ : Shared) (now : Moment) (s : Shared)
    (r : Registry) : Prop where
  /-- The views by name agree with each other. -/
  consistent : r.Consistent ε ρ configured now
  /-- The list of snapshots does not depend on the order in which the map gives out the breakers. -/
  snapshots : s.snapshots now = r.snapshots now
  /-- A name leads where it always led, and the breaker of that name is kept there. -/
  get? : ∀ name, s.place? name = s₀.place? name ∧ s.get? name = r.get? name
  /-- So does a target. -/
  resolve : ∀ target,
    s.resolve target = s₀.resolve target ∧ (s.resolve target).bind s.breaker? = r.resolve target
  /-- Looking changes nothing. -/
  looking : ∀ u : Use ε ρ, u.looks = true → ∀ later, (s.perform later u).2 = (s, [])
  /-- What is done with a breaker where it is kept is seen through its name, in the list and nowhere
  else. -/
  through : ∀ place b, s.breaker? place = some b → ∀ (d : Breaker.Deed ε ρ) later,
    (s.through later place d).1 = .told (b.perform later d).1 ∧
      (s.through later place d).2.1.get? b.service = some (b.perform later d).2.1 ∧
      (b.perform later d).2.1.snapshot later ∈ (s.through later place d).2.1.snapshots later ∧
      ∀ name ≠ b.service, (s.through later place d).2.1.get? name = s.get? name
  /-- A reset under a name that leads nowhere does nothing. -/
  reset : ∀ service later, ((s.reset later service).1 = true ↔ service ∈ configured) ∧
    ∀ name, (s.reset later service).2.1.get? name =
      if name = service then (s.get? name).map fun b => (b.reset later).1 else s.get? name

theorem Keeps.lawful (ε ρ : Type) {configured : List String} {s₀ s : Shared} {r : Registry}
    (now : Moment) (h : s.Keeps r) (hnames : ∀ name, name ∈ r.names ↔ name ∈ configured)
    (htable : s.table = s₀.table) (hentries : s.entries = s₀.entries) :
    ViewLaw ε ρ configured s₀ now s r where
  consistent := r.consistent ε ρ now h.nodup hnames
  snapshots := h.snapshots now
  get? name := by
    refine ⟨?_, h.get? name⟩
    unfold Shared.place?
    rw [htable]
  resolve target := by
    refine ⟨?_, h.resolve target⟩
    have hservice : Registry.serviceName ⟨s.cells, s.entries⟩ target =
        Registry.serviceName ⟨s₀.cells, s₀.entries⟩ target := by
      rw [hentries]
      rfl
    unfold Shared.resolve Shared.place?
    rw [htable, hservice]
  looking u hu later := by
    cases u with
    | through place d => cases hu
    | get service => rfl
    | resolve target => rfl
    | reset service => cases hu
    | snapshots => rfl
  through place b hb d later := by
    obtain ⟨hdone, hkeeps⟩ := h.through hb later d
    have hservice := (Breaker.tells_perform b later d).service
    have hget := h.get?_of_breaker? hb
    have hown : (r.replace (b.perform later d).2.1).get? b.service = some (b.perform later d).2.1 := by
      rw [Registry.get?_replace, hservice, if_pos rfl, hget, Option.map_some]
    rw [hdone]
    refine ⟨rfl, ?_, ?_, fun name hname => ?_⟩
    · rw [hkeeps.get?, hown]
    · rw [hkeeps.snapshots, Registry.mem_snapshots_iff later hkeeps.nodup]
      refine ⟨_, ?_, rfl⟩
      rw [(Breaker.shows_snapshot _ later).service, hservice]
      exact hown
    · rw [hkeeps.get?, h.get?, Registry.get?_replace, hservice, if_neg hname]
  reset service later := by
    obtain ⟨hreply, hkeeps, -⟩ := h.perform later (u := (.reset service : Use ε ρ)) rfl
    have hreset : (r.perform later (.reset service : Registry.Operation ε ρ)).2 =
        r.update service fun b => b.reset later := (Registry.reset_eq_update r service later).2
    have hknown : (s.reset later service).1 = (r.get? service).isSome :=
      (Registry.Reply.reset.inj hreply).trans (Registry.reset_eq_update r service later).1
    refine ⟨?_, fun name => ?_⟩
    · rw [hknown, Registry.isSome_get?_iff_mem_names, hnames]
    · rw [hreset] at hkeeps
      refine (hkeeps.get? name).trans ?_
      rw [Registry.get?_update _ _ _ (fun b => Breaker.service_reset b later), h.get?]

/-- **The views of a registry agree after every run**, through places and by names, in whatever order
its map gives out the breakers. -/
theorem viewLaw [Idna] {ε ρ : Type} (services : List (String × String))
    (settings : Breaker.Settings)
    (start : Moment) {s₀ : Shared} (h : s₀.Keeps (Registry.ofServices services settings start).1)
    (moves : List (Move (Use ε ρ))) :
    ViewLaw ε ρ (services.map Prod.fst) s₀ ((Instant.mk start s₀).run step moves).now
      ((Instant.mk start s₀).run step moves).state
      ((Instant.mk start (Registry.ofServices services settings start).1).run Registry.step
        (namedMoves (Registry.ofServices services settings start).1.names moves)).state := by
  obtain ⟨hkeeps, -⟩ := h.run start moves
  obtain ⟨htable, hentries⟩ := table_run s₀ start moves
  refine hkeeps.lawful ε ρ _ (fun name => ?_) htable hentries
  rw [Registry.names_run]
  exact (Registry.names_ofServices services settings start).2 name

/-- The breakers of three services of which two have one name, given out in the order `b`, `a`. -/
def twice : Shared :=
  ⟨[Breaker.new "b" ⟨1, Span.seconds 30, Span.seconds 10⟩ 0,
      Breaker.new "a" ⟨1, Span.seconds 30, Span.seconds 10⟩ 0],
    [("a", 1), ("b", 0)],
    [⟨"b", (Url.parse "http://b:1".toList).toOption⟩, ⟨"a", (Url.parse "http://a:1".toList).toOption⟩,
      ⟨"b", (Url.parse "http://c:1".toList).toOption⟩]⟩

/-- A failure opens the circuit of `b` through its place, and a reset by name closes it. -/
theorem viewLaw_twice :
    twice.Keeps (Registry.ofServices [("b", "http://b:1"), ("a", "http://a:1"), ("b", "http://c:1")]
        ⟨1, Span.seconds 30, Span.seconds 10⟩ 0).1 ∧
      ViewLaw Unit Unit ["b", "a", "b"] twice (Span.seconds 1)
        ((Instant.mk 0 twice).run step
          [.act (.through 0 (.fail : Breaker.Deed Unit Unit)), .wait (Span.seconds 1),
            .act (.reset "b")]).state
        ((Instant.mk 0 (Registry.ofServices
            [("b", "http://b:1"), ("a", "http://a:1"), ("b", "http://c:1")]
            ⟨1, Span.seconds 30, Span.seconds 10⟩ 0).1).run Registry.step
          [.act (.on "b" (.fail : Breaker.Deed Unit Unit)), .wait (Span.seconds 1),
            .act (.reset "b")]).state := by
  have hkeeps : twice.Keeps (Registry.ofServices
      [("b", "http://b:1"), ("a", "http://a:1"), ("b", "http://c:1")]
      ⟨1, Span.seconds 30, Span.seconds 10⟩ 0).1 :=
    ⟨by decide +kernel, by decide +kernel, by decide +kernel, by decide +kernel⟩
  refine ⟨hkeeps, ?_⟩
  have hlaw := viewLaw [("b", "http://b:1"), ("a", "http://a:1"), ("b", "http://c:1")]
    ⟨1, Span.seconds 30, Span.seconds 10⟩ 0 hkeeps
    [.act (.through 0 (.fail : Breaker.Deed Unit Unit)), .wait (Span.seconds 1), .act (.reset "b")]
  have hnames : (Registry.ofServices
      [("b", "http://b:1"), ("a", "http://a:1"), ("b", "http://c:1")]
      ⟨1, Span.seconds 30, Span.seconds 10⟩ 0).1.names = ["b", "a"] := by
    decide +kernel
  rw [hnames] at hlaw
  exact hlaw

/-- An age of more milliseconds than go into sixty-four bits is not shown whole. -/
theorem not_whole_ageMs : ¬ ∀ (services : List (String × String)) (settings : Breaker.Settings)
    (start : Moment) (moves : List (Move (Registry.Operation Unit Unit))),
    let i := (Instant.mk start (Registry.ofServices services settings start).1).run Registry.step moves
    ∀ shot ∈ i.state.snapshots i.now, ∀ b, i.state.get? shot.service = some b →
      shot.ageMs = elapsed i.now b.lastChange / 1000000 := by
  intro h
  have hage := h [("a", "http://a:1")] ⟨2, Span.seconds 30, Span.seconds 10⟩ 0
    [.wait (Span.seconds 18446744073709552)]
    ((Breaker.new "a" ⟨2, Span.seconds 30, Span.seconds 10⟩ 0).snapshot
      (Span.seconds 18446744073709552))
    ((Registry.mem_snapshots_iff _ (by decide +kernel)).mpr
      ⟨Breaker.new "a" ⟨2, Span.seconds 30, Span.seconds 10⟩ 0, by decide +kernel, by decide +kernel⟩)
    (Breaker.new "a" ⟨2, Span.seconds 30, Span.seconds 10⟩ 0) (by decide +kernel)
  revert hage
  decide +kernel

end Shared

end Gatehouse
