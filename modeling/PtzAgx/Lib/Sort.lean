import Mathlib.Tactic.Common

/-! # Sorting that is only specified

A sort that need not be stable: what comes out is a permutation of what goes in,
and nothing in it is less than anything before it.
-/

namespace PtzAgx

structure StdSort {α : Type} (less : α → α → Bool) where
  run : List α → List α
  perm : ∀ l, (run l).Perm l
  sorted : ∀ l, (run l).Pairwise fun a b => less b a = false

namespace StdSort

variable {α : Type}

/-- One way to sort by a number. -/
def byKey (key : α → Int) : StdSort fun a b => decide (key a < key b) where
  run l := l.mergeSort fun a b => decide (key a ≤ key b)
  perm l := List.mergeSort_perm l _
  sorted l := by
    have ordered : (l.mergeSort fun a b => decide (key a ≤ key b)).Pairwise fun a b =>
        decide (key a ≤ key b) = true :=
      List.pairwise_mergeSort (fun a b c ab bc => by simp only [decide_eq_true_eq] at *; omega)
        (fun a b => by simp only [Bool.or_eq_true, decide_eq_true_eq]; omega) l
    refine ordered.imp fun le => ?_
    simp only [decide_eq_true_eq, decide_eq_false_iff_not] at *
    omega

theorem headD_mem {less : α → α → Bool} (sort : StdSort less) {l : List α} (fallback : α)
    (nonempty : l ≠ []) : (sort.run l).headD fallback ∈ l := by
  cases sorted : sort.run l with
  | nil =>
      have perm := sort.perm l
      rw [sorted] at perm
      exact absurd perm.symm.eq_nil nonempty
  | cons x rest =>
      rw [List.headD_cons, ← (sort.perm l).mem_iff, sorted]
      exact List.mem_cons_self

theorem headD_least {less : α → α → Bool} (sort : StdSort less) {l : List α} (fallback : α)
    (irrefl : ∀ x, less x x = false) : ∀ x ∈ l, less x ((sort.run l).headD fallback) = false := by
  intro x member
  have ordered := sort.sorted l
  rw [← (sort.perm l).mem_iff] at member
  cases sorted : sort.run l with
  | nil =>
      rw [sorted] at member
      cases member
  | cons first rest =>
      rw [sorted] at member ordered
      rw [List.headD_cons]
      rcases List.mem_cons.mp member with rfl | later
      · exact irrefl x
      · exact (List.pairwise_cons.mp ordered).1 x later

end StdSort

end PtzAgx
