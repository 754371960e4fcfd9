import Mathlib.Data.List.Basic

/-!
# Runs that look alike

An observer takes some states for the same and does not see some of the steps. Two runs that differ
only in steps it does not see look alike to it, once this is known of single steps.

* `Unwinding` : what has to be known of single steps;
* `Unwinding.foldl_near` : what follows for runs.
-/

namespace Gatehouse

/-- Single steps of `step` look alike to an observer who takes states related by `Near` for the same
and does not see the steps that `hidden` holds of. `Sound` is kept by all the steps, which have
`Proper`. -/
structure Unwinding {σ τ : Type} (step : σ → τ → σ) (hidden : τ → Bool) (Proper : τ → Prop)
    (Sound : σ → Prop) (Near : σ → σ → Prop) : Prop where
  equivalence : Equivalence Near
  sound_step : ∀ s x, Proper x → Sound s → Sound (step s x)
  near_hidden : ∀ s x, Proper x → hidden x = true → Sound s → Near (step s x) s
  near_step : ∀ s t x, Proper x → hidden x = false → Sound s → Sound t → Near s t →
    Near (step s x) (step t x)

namespace Unwinding

variable {σ τ : Type} {step : σ → τ → σ} {hidden : τ → Bool} {Proper : τ → Prop} {Sound : σ → Prop}
  {Near : σ → σ → Prop}

theorem sound_foldl (u : Unwinding step hidden Proper Sound Near) (l : List τ)
    (hl : ∀ x ∈ l, Proper x) {s : σ} (hs : Sound s) : Sound (l.foldl step s) := by
  induction l generalizing s with
  | nil => exact hs
  | cons x l ih =>
    exact ih (fun y hy => hl y (List.mem_cons_of_mem x hy))
      (u.sound_step s x (hl x List.mem_cons_self) hs)

/-- A run looks like the one without its hidden steps. -/
theorem near_visible (u : Unwinding step hidden Proper Sound Near) (l : List τ)
    (hl : ∀ x ∈ l, Proper x) {s t : σ} (hs : Sound s) (ht : Sound t) (h : Near s t) :
    Near (l.foldl step s) ((l.filter fun x => !hidden x).foldl step t) := by
  induction l generalizing s t with
  | nil => exact h
  | cons x l ih =>
    have hx : Proper x := hl x List.mem_cons_self
    have hl : ∀ y ∈ l, Proper y := fun y hy => hl y (List.mem_cons_of_mem x hy)
    have hs' : Sound (step s x) := u.sound_step s x hx hs
    cases hh : hidden x with
    | true =>
      rw [List.filter_cons_of_neg (by simp [hh])]
      exact ih hl hs' ht (u.equivalence.trans (u.near_hidden s x hx hh hs) h)
    | false =>
      rw [List.filter_cons_of_pos (by simp [hh])]
      exact ih hl hs' (u.sound_step t x hx ht) (u.near_step s t x hx hh hs ht h)

/-- Two runs that differ only in their hidden steps look alike. -/
theorem foldl_near (u : Unwinding step hidden Proper Sound Near) {l₁ l₂ : List τ}
    (h₁ : ∀ x ∈ l₁, Proper x) (h₂ : ∀ x ∈ l₂, Proper x)
    (h : (l₁.filter fun x => !hidden x) = l₂.filter fun x => !hidden x) {s t : σ} (hs : Sound s)
    (ht : Sound t) (hn : Near s t) : Near (l₁.foldl step s) (l₂.foldl step t) := by
  have hleft := u.near_visible l₁ h₁ hs ht hn
  have hright := u.near_visible l₂ h₂ ht ht (u.equivalence.refl t)
  rw [h] at hleft
  exact u.equivalence.trans hleft (u.equivalence.symm hright)

end Unwinding

end Gatehouse
