import Gatehouse.Proofs.Shutdown.Channel
import Gatehouse.Proofs.Timeline
import Mathlib.Data.Set.Card

/-!
# What releases a waiter

A waiter is told that it is done when, since it subscribed, there was a signal or the coordinator
went away, and at no other time. This is said of the list of what has happened, whatever else others
have done in between.

* `Shutdown.Told` : there is something to hear since a waiter subscribed;
* `Shutdown.Left` : a waiter has been told so when it looked, or it has unsubscribed;
* `Shutdown.Waits` : those who have subscribed and have not left;
* `Shutdown.Follows` : what a run does with a waiter, and `Follows.step`, what every action does;
* `Shutdown.waiterLaw` : what a waiter is told when it looks, and how many wait.
-/

namespace Gatehouse

namespace Shutdown

/-- There was a signal, or the coordinator went away. -/
def Told (after : List Action) : Prop := .trigger ∈ after ∨ .close ∈ after

/-- A waiter that subscribed before these actions has left: it unsubscribed, or it looked when there
was something to hear. -/
def Left (id : Nat) (after : List Action) : Prop :=
  .unsubscribe id ∈ after ∨ ∃ before later, after = before ++ .poll id :: later ∧ Told before

/-- A waiter has subscribed and has not left. The name of a waiter is how many there were before. -/
def Waits (actions : List Action) (id : Nat) : Prop :=
  ∃ before after, actions = before ++ .subscribe :: after ∧ before.count .subscribe = id ∧
    ¬ Left id after

theorem told_concat (after : List Action) (a : Action) :
    Told (after ++ [a]) ↔ Told after ∨ a = .trigger ∨ a = .close := by
  simp only [Told, List.mem_append, List.mem_singleton, @eq_comm _ _ a]
  tauto

theorem left_concat (id : Nat) (after : List Action) (a : Action) :
    Left id (after ++ [a]) ↔
      Left id after ∨ a = .unsubscribe id ∨ a = .poll id ∧ Told after := by
  constructor
  · rintro (hgone | ⟨before, later, hsplit, htold⟩)
    · rcases List.mem_append.mp hgone with hgone | hlast
      · exact .inl (.inl hgone)
      · exact .inr (.inl (List.mem_singleton.mp hlast).symm)
    · rcases split_concat hsplit with ⟨-, rfl, hlast⟩ | ⟨rest, -, rfl⟩
      · exact .inr (.inr ⟨hlast.symm, htold⟩)
      · exact .inl (.inr ⟨before, rest, rfl, htold⟩)
  · rintro ((hgone | ⟨before, later, rfl, htold⟩) | rfl | ⟨rfl, htold⟩)
    · exact .inl (List.mem_append_left _ hgone)
    · exact .inr ⟨before, later ++ [a], by simp, htold⟩
    · exact .inl (List.mem_append_right _ (List.mem_singleton_self _))
    · exact .inr ⟨after, [], rfl, htold⟩

/-! ## Looking a waiter up -/

@[simp] theorem waiter?_remove_self (s : Shutdown) (id : Nat) : (s.remove id).waiter? id = none := by
  unfold waiter? remove
  simp

@[simp] theorem waiter?_remove_of_ne (s : Shutdown) {id other : Nat} (h : other ≠ id) :
    (s.remove other).waiter? id = s.waiter? id := by
  unfold waiter? remove
  rw [List.find?_filter]
  refine congrArg (fun p => List.find? p s.waiters) (funext fun w => ?_)
  by_cases hid : w.id = id
  · simp [hid, Ne.symm h]
  · simp [hid]

/-- A waiter that looks leaves, or everything stays as it is. -/
theorem poll_leaves (s : Shutdown) (id : Nat) :
    (s.poll id).2 = s ∨ (s.poll id).2 = s.remove id := by
  unfold poll
  cases s.waiter? id with
  | none => exact .inl rfl
  | some w =>
    dsimp only
    split
    · exact .inr rfl
    · exact .inl rfl

/-! ## One waiter -/

/-- What a run has done with a waiter after it subscribed. -/
structure Follows (w : Waiter) (after : List Action) (s : Shutdown) : Prop where
  since_le : w.since ≤ s.signals
  id_lt : w.id < s.nextId
  releases_iff : s.releases w = true ↔ Told after
  present : ¬ Left w.id after → s.waiter? w.id = some w
  gone : Left w.id after → s.waiter? w.id = none

namespace Follows

variable {w : Waiter} {after : List Action} {s : Shutdown}

/-- What neither signals nor touches the waiter makes no difference to it. -/
theorem quiet (h : Follows w after s) {a : Action} {t : Shutdown} (hlive : t.live = s.live)
    (hsignals : t.signals = s.signals) (hnext : s.nextId ≤ t.nextId)
    (hwaiter : t.waiter? w.id = s.waiter? w.id) (htold : Told (after ++ [a]) ↔ Told after)
    (hleft : Left w.id (after ++ [a]) ↔ Left w.id after) : Follows w (after ++ [a]) t where
  since_le := hsignals ▸ h.since_le
  id_lt := Nat.lt_of_lt_of_le h.id_lt hnext
  releases_iff := by
    unfold releases
    rw [htold, ← h.releases_iff, hlive, hsignals]
    rfl
  present := by rw [hleft, hwaiter]; exact h.present
  gone := by rw [hleft, hwaiter]; exact h.gone

theorem subscribe (h : Follows w after s) :
    Follows w (after ++ [.subscribe]) s.subscribe.2 := by
  have htold := told_concat after .subscribe
  have hleft := left_concat w.id after .subscribe
  unfold Shutdown.subscribe
  cases hlive : s.live with
  | false => exact h.quiet rfl rfl (Nat.le_refl _) rfl (by simp [htold]) (by simp [hleft])
  | true =>
    refine h.quiet hlive.symm rfl (Nat.le_succ _) ?_ (by simp [htold]) (by simp [hleft])
    have hne : s.nextId ≠ w.id := Ne.symm (Nat.ne_of_lt h.id_lt)
    simp [waiter?, List.find?_append, hne]

theorem trigger (h : Follows w after s) : Follows w (after ++ [.trigger]) s.trigger.2 := by
  have hleft : Left w.id (after ++ [.trigger]) ↔ Left w.id after := by simp [left_concat]
  have htold : Told (after ++ [.trigger]) := (told_concat after _).mpr (.inr (.inl rfl))
  unfold Shutdown.trigger
  cases hlive : s.live with
  | false =>
    refine ⟨h.since_le, h.id_lt, iff_of_true (by simp [releases, hlive]) htold, ?_, ?_⟩
    · rw [hleft]; exact h.present
    · rw [hleft]; exact h.gone
  | true =>
    have hlt : w.since < s.signals + 1 := Nat.lt_succ_of_le h.since_le
    refine ⟨Nat.le_of_lt hlt, h.id_lt, iff_of_true (by simp [releases, hlt]) htold, ?_, ?_⟩
    · rw [hleft]; exact h.present
    · rw [hleft]; exact h.gone

theorem close (h : Follows w after s) : Follows w (after ++ [.close]) s.close where
  since_le := h.since_le
  id_lt := h.id_lt
  releases_iff :=
    iff_of_true (by simp [releases, Shutdown.close])
      ((told_concat after _).mpr (.inr (.inr rfl)))
  present hstay := h.present fun hl => hstay ((left_concat _ _ _).mpr (.inl hl))
  gone hl := h.gone (by simpa [left_concat] using hl)

/-- A waiter that leaves, or has left. -/
theorem removed (h : Follows w after s) {a : Action} (htold : Told (after ++ [a]) ↔ Told after)
    (hleft : Left w.id (after ++ [a])) : Follows w (after ++ [a]) (s.remove w.id) where
  since_le := h.since_le
  id_lt := h.id_lt
  releases_iff := h.releases_iff.trans htold.symm
  present hstay := absurd hleft hstay
  gone _ := waiter?_remove_self s w.id

theorem poll (h : Follows w after s) (id : Nat) :
    Follows w (after ++ [.poll id]) (s.poll id).2 := by
  have htold : Told (after ++ [.poll id]) ↔ Told after := by simp [told_concat]
  have hleft : Left w.id (after ++ [.poll id]) ↔ Left w.id after ∨ id = w.id ∧ Told after := by
    simp [left_concat]
  by_cases hid : id = w.id
  · subst hid
    unfold Shutdown.poll
    by_cases hl : Left w.id after
    · rw [h.gone hl]
      exact h.quiet rfl rfl (Nat.le_refl _) rfl htold (by simp [hleft, hl])
    · rw [h.present hl]
      dsimp only
      by_cases ht : Told after
      · rw [if_pos (h.releases_iff.mpr ht)]
        exact h.removed htold (hleft.mpr (.inr ⟨rfl, ht⟩))
      · rw [if_neg fun hr => ht (h.releases_iff.mp hr)]
        exact h.quiet rfl rfl (Nat.le_refl _) rfl htold (by simp [hleft, hl, ht])
  · have hsame : Left w.id (after ++ [.poll id]) ↔ Left w.id after := by simp [hleft, hid]
    rcases s.poll_leaves id with hs | hs
    · rw [hs]
      exact h.quiet rfl rfl (Nat.le_refl _) rfl htold hsame
    · rw [hs]
      exact h.quiet rfl rfl (Nat.le_refl _) (waiter?_remove_of_ne s hid) htold hsame

theorem unsubscribe (h : Follows w after s) (id : Nat) :
    Follows w (after ++ [.unsubscribe id]) (s.unsubscribe id).2 := by
  have htold : Told (after ++ [.unsubscribe id]) ↔ Told after := by simp [told_concat]
  have hleft : Left w.id (after ++ [.unsubscribe id]) ↔ Left w.id after ∨ id = w.id := by
    simp [left_concat]
  unfold Shutdown.unsubscribe
  by_cases hid : id = w.id
  · subst hid
    exact h.removed htold (hleft.mpr (.inr rfl))
  · exact h.quiet rfl rfl (Nat.le_refl _) (waiter?_remove_of_ne s hid) htold (by simp [hleft, hid])

theorem step (h : Follows w after s) (a : Action) : Follows w (after ++ [a]) (s.step a) := by
  cases a with
  | subscribe => exact h.subscribe
  | trigger => exact h.trigger
  | close => exact h.close
  | poll id => exact h.poll id
  | unsubscribe id => exact h.unsubscribe id

/-- What a waiter is told when it looks. -/
theorem poll_eq (h : Follows w after s) :
    (Left w.id after ∧ (s.poll w.id).1 = none) ∨
      (¬ Left w.id after ∧ Told after ∧ (s.poll w.id).1 = some true) ∨
      (¬ Left w.id after ∧ ¬ Told after ∧ (s.poll w.id).1 = some false) := by
  unfold Shutdown.poll
  by_cases hl : Left w.id after
  · exact .inl ⟨hl, by rw [h.gone hl]⟩
  · rw [h.present hl]
    dsimp only
    by_cases ht : Told after
    · exact .inr (.inl ⟨hl, ht, by rw [if_pos (h.releases_iff.mpr ht)]⟩)
    · exact .inr (.inr ⟨hl, ht, by rw [if_neg fun hr => ht (h.releases_iff.mp hr)]⟩)

end Follows

/-! ## All the waiters -/

/-- What every run keeps. -/
structure Named (actions : List Action) (s : Shutdown) : Prop where
  live_iff : s.live = true ↔ .close ∉ actions
  nextId : .close ∉ actions → s.nextId = actions.count .subscribe
  id_lt : ∀ w ∈ s.waiters, w.id < s.nextId
  nodup : (s.waiters.map (·.id)).Nodup

namespace Named

variable {actions : List Action} {s : Shutdown}

theorem remove (h : Named actions s) {a : Action} (hclose : a ≠ .close) (hsubscribe : a ≠ .subscribe)
    (id : Nat) : Named (actions ++ [a]) (s.remove id) where
  live_iff := by simpa [Shutdown.remove, Ne.symm hclose] using h.live_iff
  nextId hc := by
    simpa [Shutdown.remove, hsubscribe] using h.nextId fun hmem => hc (List.mem_append_left _ hmem)
  id_lt w hw := h.id_lt w (List.mem_of_mem_filter hw)
  nodup := h.nodup.sublist (List.filter_sublist.map _)

/-- What leaves the waiters and the coordinator alone. -/
theorem same (h : Named actions s) {a : Action} (hclose : a ≠ .close) (hsubscribe : a ≠ .subscribe)
    {t : Shutdown} (hlive : t.live = s.live) (hnext : t.nextId = s.nextId)
    (hwaiters : t.waiters = s.waiters) : Named (actions ++ [a]) t where
  live_iff := by simpa [Ne.symm hclose, hlive] using h.live_iff
  nextId hc := by
    simpa [hsubscribe, hnext] using h.nextId fun hmem => hc (List.mem_append_left _ hmem)
  id_lt w hw := hnext ▸ h.id_lt w (hwaiters ▸ hw)
  nodup := hwaiters ▸ h.nodup

theorem subscribe (h : Named actions s) : Named (actions ++ [.subscribe]) s.subscribe.2 := by
  have hlive := h.live_iff
  unfold Shutdown.subscribe
  by_cases hc : .close ∈ actions
  · have hdead : s.live = false := by simpa [hc] using hlive
    rw [hdead]
    exact ⟨by simp [hdead, hc], fun hn => absurd (List.mem_append_left _ hc) hn, h.id_lt, h.nodup⟩
  · rw [hlive.mpr hc]
    refine ⟨by simp [hc], fun _ => by simp [h.nextId hc], ?_, ?_⟩
    · intro w hw
      rcases List.mem_append.mp hw with hw | hw
      · exact Nat.lt_succ_of_lt (h.id_lt w hw)
      · obtain rfl := List.mem_singleton.mp hw
        exact Nat.lt_succ_self _
    · have hnew : s.nextId ∉ s.waiters.map (·.id) := by
        intro hmem
        obtain ⟨w, hw, hid⟩ := List.mem_map.mp hmem
        exact Nat.ne_of_lt (h.id_lt w hw) hid
      simpa [List.nodup_append] using ⟨h.nodup, fun w hw hid => hnew (hid ▸ List.mem_map_of_mem hw)⟩

theorem step (h : Named actions s) (a : Action) : Named (actions ++ [a]) (s.step a) := by
  cases a with
  | subscribe => exact h.subscribe
  | trigger =>
    unfold Shutdown.step Shutdown.trigger
    cases hlive : s.live with
    | false => exact h.same (by simp) (by simp) rfl rfl rfl
    | true => exact h.same (by simp) (by simp) hlive.symm rfl rfl
  | close =>
    exact ⟨by simp [Shutdown.step, Shutdown.close], fun hc => absurd (by simp) hc, h.id_lt, h.nodup⟩
  | poll id =>
    rcases s.poll_leaves id with hsame | hremove
    · exact h.same (by simp) (by simp) (congrArg live hsame) (congrArg Shutdown.nextId hsame)
        (congrArg waiters hsame)
    · exact (congrArg (Named _) hremove).mpr (h.remove (by simp) (by simp) id)
  | unsubscribe id => exact h.remove (by simp) (by simp) id

end Named

@[simp] theorem run_concat (actions : List Action) (a : Action) :
    run (actions ++ [a]) = (run actions).step a := by
  simp [run]

theorem named_run (actions : List Action) : Named actions (run actions) := by
  induction actions using List.reverseRecOn with
  | nil => exact ⟨by simp [run, new], fun _ => rfl, by simp [run, new], by simp [run, new]⟩
  | append_singleton actions a ih =>
    rw [run_concat]
    exact ih.step a

/-- A waiter is followed from its subscription on. -/
theorem follows_run (before after : List Action) (h : .close ∉ before) :
    Follows ⟨before.count .subscribe, (run before).signals⟩ after
      (run (before ++ .subscribe :: after)) := by
  have hstart := named_run before
  have hlive := hstart.live_iff.mpr h
  have hnext := hstart.nextId h
  induction after using List.reverseRecOn with
  | nil =>
    have hnone : ¬ Left (before.count .subscribe) [] := by simp [Left]
    have hfresh : ∀ w ∈ (run before).waiters, w.id ≠ before.count .subscribe :=
      fun w hw => Nat.ne_of_lt (hnext ▸ hstart.id_lt w hw)
    rw [run_concat]
    refine ⟨?_, ?_, ?_, fun _ => ?_, fun hl => absurd hl hnone⟩
    · simp [Shutdown.step, Shutdown.subscribe, hlive]
    · simp [Shutdown.step, Shutdown.subscribe, hlive, hnext]
    · simp [Shutdown.step, Shutdown.subscribe, hlive, releases, Told]
    · have hfind : (run before).waiters.find? (fun w => w.id = before.count .subscribe) = none := by
        simpa [List.find?_eq_none] using hfresh
      simp [Shutdown.step, Shutdown.subscribe, hlive, waiter?, List.find?_append, hfind, hnext]
  | append_singleton after a ih =>
    rw [← List.cons_append, ← List.append_assoc, run_concat]
    exact ih.step a

/-- The place of the subscription of a name. -/
theorem exists_split_of_lt_count {id : Nat} {actions : List Action}
    (h : id < actions.count .subscribe) :
    ∃ before after, actions = before ++ .subscribe :: after ∧ before.count .subscribe = id := by
  induction actions generalizing id with
  | nil => simp at h
  | cons a actions ih =>
    by_cases ha : a = .subscribe
    · subst ha
      cases id with
      | zero => exact ⟨[], actions, rfl, rfl⟩
      | succ id =>
        obtain ⟨before, after, rfl, rfl⟩ := ih (by simpa using h)
        exact ⟨.subscribe :: before, after, rfl, by simp⟩
    · obtain ⟨before, after, rfl, rfl⟩ := ih (by simpa [ha] using h)
      exact ⟨a :: before, after, rfl, by simp [ha]⟩

theorem mem_ids_iff (s : Shutdown) (id : Nat) :
    id ∈ s.waiters.map (·.id) ↔ s.waiter? id ≠ none := by
  simp [waiter?, List.find?_eq_none]

/-- Those who wait are those who have subscribed and have not left. -/
theorem mem_ids_run_iff {actions : List Action} (h : .close ∉ actions) (id : Nat) :
    id ∈ (run actions).waiters.map (·.id) ↔ Waits actions id := by
  have hnamed := named_run actions
  constructor
  · intro hmem
    have hlt : id < actions.count .subscribe := by
      obtain ⟨w, hw, rfl⟩ := List.mem_map.mp hmem
      exact hnamed.nextId h ▸ hnamed.id_lt w hw
    obtain ⟨before, after, rfl, rfl⟩ := exists_split_of_lt_count hlt
    have hfollows := follows_run before after fun hc => h (List.mem_append_left _ hc)
    exact ⟨before, after, rfl, rfl, fun hl => (mem_ids_iff _ _).mp hmem (hfollows.gone hl)⟩
  · rintro ⟨before, after, rfl, rfl, hstay⟩
    have hfollows := follows_run before after fun hc => h (List.mem_append_left _ hc)
    rw [mem_ids_iff, hfollows.present hstay]
    exact Option.some_ne_none _

theorem receiverCount_run {actions : List Action} (h : .close ∉ actions) :
    (run actions).receiverCount = Set.ncard {id | Waits actions id} := by
  have hset : {id | Waits actions id} = ((run actions).waiters.map (·.id)).toFinset := by
    ext id
    rw [Set.mem_ofPred_eq, ← mem_ids_run_iff h, Finset.mem_coe, List.mem_toFinset]
  rw [hset, Set.ncard_coe_finset, List.toFinset_card_of_nodup (named_run actions).nodup,
    List.length_map]
  rfl

/-! ## The law -/

/-- What waiters are told in the course of some actions. A waiter is named by the number of those who
subscribed before it. -/
structure WaiterLaw (actions : List Action) : Prop where
  /-- While the coordinator is there, whoever subscribes gets the next name. -/
  subscribed : .close ∉ actions →
    (run actions).reply .subscribe = .subscribed (some (actions.count .subscribe))
  /-- A waiter that has not left is done when it looks if there was a signal or the coordinator went
  away since it subscribed, and only then. -/
  done : ∀ before after, actions = before ++ .subscribe :: after → .close ∉ before →
    ¬ Left (before.count .subscribe) after →
    ((run actions).reply (.poll (before.count .subscribe)) = .polled (some true) ↔ Told after)
  /-- A waiter that is not done when it looks goes on waiting. -/
  waiting : ∀ before after, actions = before ++ .subscribe :: after → .close ∉ before →
    ((run actions).reply (.poll (before.count .subscribe)) = .polled (some false) ↔
      ¬ Left (before.count .subscribe) after ∧ ¬ Told after)
  /-- A waiter that has left is not there any more. -/
  gone : ∀ before after, actions = before ++ .subscribe :: after → .close ∉ before →
    ((run actions).reply (.poll (before.count .subscribe)) = .polled none ↔
      Left (before.count .subscribe) after)
  /-- Signals before a waiter subscribed make no difference to it. -/
  earlier : ∀ before after, actions = before ++ .subscribe :: after → .close ∉ before →
    (run actions).reply (.poll (before.count .subscribe)) =
      (run (before.filter (· ≠ .trigger) ++ .subscribe :: after)).reply
        (.poll (before.count .subscribe))
  /-- While the coordinator is there, those who count as receivers are those who have subscribed
  and have not left. -/
  receiverCount : .close ∉ actions →
    (run actions).receiverCount = Set.ncard {id | Waits actions id}
  /-- A channel that keeps one message and tells a receiver that comes late that it lags gives the
  same answers, -/
  channel : ∀ a, (Channel.run actions).reply a = (run actions).reply a
  /-- and it has as many receivers. -/
  channelCount : (Channel.run actions).receivers.length = (run actions).receiverCount

theorem count_subscribe_filter (before : List Action) :
    (before.filter (· ≠ .trigger)).count .subscribe = before.count .subscribe :=
  List.count_filter (by simp)

/-- **Whatever happens in whatever order, a waiter is done when it looks if and only if, since it
subscribed, there was a signal or the coordinator went away.** -/
theorem waiterLaw (actions : List Action) : WaiterLaw actions where
  subscribed h := by
    have hnamed := named_run actions
    simp [reply, Shutdown.subscribe, hnamed.live_iff.mpr h, hnamed.nextId h]
  done := by
    rintro before after rfl hc hstay
    rcases (follows_run before after hc).poll_eq with ⟨hl, -⟩ | ⟨-, ht, heq⟩ | ⟨-, ht, heq⟩
    · exact absurd hl hstay
    · exact iff_of_true (congrArg Reply.polled heq) ht
    · exact iff_of_false (by simp [reply, heq]) ht
  waiting := by
    rintro before after rfl hc
    rcases (follows_run before after hc).poll_eq with ⟨hl, heq⟩ | ⟨hl, ht, heq⟩ | ⟨hl, ht, heq⟩
    · exact iff_of_false (by simp [reply, heq]) fun h => h.1 hl
    · exact iff_of_false (by simp [reply, heq]) fun h => h.2 ht
    · exact iff_of_true (congrArg Reply.polled heq) ⟨hl, ht⟩
  gone := by
    rintro before after rfl hc
    rcases (follows_run before after hc).poll_eq with ⟨hl, heq⟩ | ⟨hl, ht, heq⟩ | ⟨hl, ht, heq⟩
    · exact iff_of_true (congrArg Reply.polled heq) hl
    · exact iff_of_false (by simp [reply, heq]) hl
    · exact iff_of_false (by simp [reply, heq]) hl
  earlier := by
    rintro before after rfl hc
    have hleft := (follows_run before after hc).poll_eq
    have hright := (follows_run (before.filter (· ≠ .trigger)) after
      fun hmem => hc (List.mem_of_mem_filter hmem)).poll_eq
    simp only [count_subscribe_filter] at hright
    refine congrArg Reply.polled ?_
    rcases hleft with ⟨hl, heq⟩ | ⟨hl, ht, heq⟩ | ⟨hl, ht, heq⟩ <;> simp_all
  receiverCount := receiverCount_run
  channel := (Channel.carries_run actions).reply_eq
  channelCount := (Channel.carries_run actions).receivers.length_eq

/-- Three signals reach one who waited through them all, once; they do not reach one who subscribes
afterwards. -/
example :
    let s := run [.subscribe, .trigger, .trigger, .trigger, .subscribe]
    s.reply (.poll 0) = .polled (some true) ∧ s.reply (.poll 1) = .polled (some false) ∧
      (s.step (.poll 0)).reply (.poll 0) = .polled none ∧
      (s.step (.poll 0)).receiverCount = 1 := by
  decide

end Shutdown

end Gatehouse
