import Mathlib.Data.List.Basic

/-!
# Stable sorting

A stable sort by an order that is transitive and total, but need not tell all elements apart.

* `filter_mergeSort` : what is left of a sorted list does not depend on what is left out;
* `head?_mergeSort` : at its head stands the first of the elements that may come before all others.
-/

namespace Gatehouse

variable {α : Type}

/-- A list falls apart in one way only into elements that fail a test and then elements that pass. -/
theorem append_cut {q : α → Bool} {l₁ l₂ m₁ m₂ : List α} (h : l₁ ++ l₂ = m₁ ++ m₂)
    (hl₁ : ∀ b ∈ l₁, q b = false) (hl₂ : ∀ b ∈ l₂, q b = true) (hm₁ : ∀ b ∈ m₁, q b = false)
    (hm₂ : ∀ b ∈ m₂, q b = true) : l₁ = m₁ ∧ l₂ = m₂ := by
  have passes : ∀ {x y : List α}, (∀ b ∈ x, q b = false) → (∀ b ∈ y, q b = true) →
      (x ++ y).filter q = y := by
    intro x y hx hy
    rw [List.filter_append, List.filter_eq_self.mpr hy, List.filter_eq_nil_iff.mpr, List.nil_append]
    intro b hb
    rw [hx b hb]
    exact Bool.false_ne_true
  have h₂ : l₂ = m₂ := by
    rw [← passes hl₁ hl₂, h, passes hm₁ hm₂]
  rw [h₂] at h
  exact ⟨List.append_cancel_right h, h₂⟩

/-- What comes after an element of a sorted list may come after it. -/
theorem le_of_sorted {le : α → α → Bool} {l l₁ l₂ : List α} {a : α}
    (trans : ∀ a b c, le a b → le b c → le a c) (total : ∀ a b, le a b || le b a)
    (h : l.mergeSort le = l₁ ++ a :: l₂) : ∀ b ∈ l₂, le a b = true := by
  have hp := List.pairwise_mergeSort trans total l
  rw [h] at hp
  intro b hb
  exact (List.pairwise_cons.mp (List.pairwise_append.mp hp).2.1).1 b hb

/-- What is left of a list that has been sorted is what is left of it, sorted. -/
theorem filter_mergeSort {le : α → α → Bool} (trans : ∀ a b c, le a b → le b c → le a c)
    (total : ∀ a b, le a b || le b a) (p : α → Bool) (l : List α) :
    (l.mergeSort le).filter p = (l.filter p).mergeSort le := by
  induction l with
  | nil => rw [List.mergeSort_nil, List.filter_nil, List.mergeSort_nil]
  | cons a l ih =>
    obtain ⟨l₁, l₂, hs, hl, hlt⟩ := List.mergeSort_cons trans total a l
    rw [hl, List.filter_append] at ih
    rw [hs, List.filter_append]
    by_cases ha : p a = true
    · obtain ⟨m₁, m₂, ht, hm, hmt⟩ := List.mergeSort_cons trans total a (l.filter p)
      rw [List.filter_cons_of_pos ha, List.filter_cons_of_pos ha, ht]
      -- Both lists are cut in front of the first element that may come after `a`.
      obtain ⟨h₁, h₂⟩ := append_cut (q := le a) (ih.trans hm)
        (fun b hb => by simpa using hlt b (List.mem_of_mem_filter hb))
        (fun b hb => le_of_sorted trans total hs b (List.mem_of_mem_filter hb))
        (fun b hb => by simpa using hmt b hb) (le_of_sorted trans total ht)
      rw [h₁, h₂]
    · rw [List.filter_cons_of_neg ha, List.filter_cons_of_neg ha, ih]

theorem find?_congr {p q : α → Bool} {l : List α} (h : ∀ a ∈ l, p a = q a) :
    l.find? p = l.find? q := by
  rw [← List.head?_filter, ← List.head?_filter, List.filter_congr h]

/-- The head of a sorted list is the first element of the list that may come before all of them. -/
theorem head?_mergeSort {le : α → α → Bool} (trans : ∀ a b c, le a b → le b c → le a c)
    (total : ∀ a b, le a b || le b a) (l : List α) :
    (l.mergeSort le).head? = l.find? fun a => l.all (le a) := by
  have refl (a : α) : le a a = true := by simpa using total a a
  induction l with
  | nil => rw [List.mergeSort_nil, List.find?_nil, List.head?_nil]
  | cons a l ih =>
    obtain ⟨l₁, l₂, hs, hl, hlt⟩ := List.mergeSort_cons trans total a l
    cases l₁ with
    | nil =>
      have hall : (a :: l).all (le a) = true := by
        rw [List.all_eq_true]
        intro b hb
        rcases List.mem_cons.mp hb with rfl | hb
        · exact refl b
        · refine le_of_sorted trans total hs b ?_
          rw [List.nil_append] at hl
          rw [← hl]
          exact List.mem_mergeSort.mpr hb
      rw [hs]
      exact (List.find?_cons_of_pos (p := fun c => (a :: l).all (le c)) hall).symm
    | cons b l₁ =>
      have hab : le a b = false := by simpa using hlt b List.mem_cons_self
      have hba : le b a = true := by simpa [hab] using total a b
      have hb : b ∈ l := by
        apply List.mem_mergeSort.mp
        rw [hl]
        exact List.mem_cons_self
      have hnot : ¬ (a :: l).all (le a) = true := by
        intro hall
        rw [List.all_eq_true.mp hall b (List.mem_cons_of_mem a hb)] at hab
        cases hab
      rw [hl] at ih
      rw [hs]
      refine ih.trans (Eq.trans (find?_congr fun c hc => ?_)
        (List.find?_cons_of_neg (p := fun c => (a :: l).all (le c)) hnot).symm)
      rw [List.all_cons]
      cases hall : l.all (le c) with
      | false => rw [Bool.and_false]
      | true => rw [trans c b a (List.all_eq_true.mp hall b hb) hba, Bool.true_and]

end Gatehouse
