import Mathlib.Algebra.BigOperators.Group.Finset.Piecewise
import Mathlib.Algebra.BigOperators.Ring.Finset
import Mathlib.Algebra.Order.BigOperators.Group.Finset
import Mathlib.Algebra.Order.Ring.Defs
import Mathlib.Data.Fintype.BigOperators
import Mathlib.Data.PEquiv
import Mathlib.Tactic.Linarith
import Mathlib.Tactic.Ring

/-! # Matchings with a limit

A matching that leaves rows and columns out, at half a limit for each, is a whole
assignment once there is a spare column for each row and a spare row for each
column. So an optimal assignment with the spares is a best matching, and no pair of
it costs more than the limit.
-/

namespace PtzAgx

variable {ι κ K : Type} [CommRing K] {cost : ι → κ → K} {fill : K}

/-- The costs with the spare rows and columns. -/
def spareCost (cost : ι → κ → K) (fill : K) : ι ⊕ κ → κ ⊕ ι → K
  | .inl i, .inl j => cost i j
  | .inl _, .inr _ => fill
  | .inr _, .inl _ => fill
  | .inr _, .inr _ => 0

/-- What a matching costs, with what is left out. -/
def matchingCost [Fintype ι] [Fintype κ] (cost : ι → κ → K) (fill : K) (m : ι ≃. κ) : K :=
  ∑ i, (m i).elim fill (cost i) + ∑ j, (m.symm j).elim fill fun _ => 0

/-- The pairs without spares. -/
def realPairs (σ : ι ⊕ κ ≃ κ ⊕ ι) : ι ≃. κ where
  toFun i := (σ (.inl i)).getLeft?
  invFun j := (σ.symm (.inl j)).getLeft?
  inv i j := by
    rw [Sum.getLeft?_eq_some_iff, Sum.getLeft?_eq_some_iff, Equiv.symm_apply_eq]
    exact eq_comm

/-- The spares of a matched pair are matched with each other. -/
def withSpares (m : ι ≃. κ) : ι ⊕ κ ≃ κ ⊕ ι where
  toFun
    | .inl i => (m i).elim (.inr i) .inl
    | .inr j => (m.symm j).elim (.inl j) .inr
  invFun
    | .inl j => (m.symm j).elim (.inr j) .inl
    | .inr i => (m i).elim (.inl i) .inr
  left_inv s := by
    cases s with
    | inl i => cases given : m i with
      | none => simp [given]
      | some j => simp [given, m.eq_some_iff.mpr given]
    | inr j => cases given : m.symm j with
      | none => simp [given]
      | some i => simp [given, m.eq_some_iff.mp given]
  right_inv t := by
    cases t with
    | inl j => cases given : m.symm j with
      | none => simp [given]
      | some i => simp [given, m.eq_some_iff.mp given]
    | inr i => cases given : m i with
      | none => simp [given]
      | some j => simp [given, m.eq_some_iff.mpr given]

theorem realPairs_withSpares (m : ι ≃. κ) : realPairs (withSpares m) = m := by
  ext i
  cases given : m i <;> simp [realPairs, withSpares, given]

section Pairs

variable [DecidableEq ι] [DecidableEq κ] {m : ι ≃. κ} {i : ι} {j : κ}

/-- The matching without a pair. -/
def unmatch (m : ι ≃. κ) (i : ι) (j : κ) (given : m i = some j) : ι ≃. κ where
  toFun r := if r = i then none else m r
  invFun c := if c = j then none else m.symm c
  inv r c := by
    by_cases here : r = i <;> by_cases there : c = j
    · simp [here, there]
    · subst here
      simp [there, m.eq_some_iff, given, Ne.symm there]
    · subst there
      have other : m r ≠ some c := fun also => here (m.inj also given)
      simp [here, other]
    · simp [here, there, m.eq_some_iff]

/-- The matching with one more pair. -/
def matchAlso (m : ι ≃. κ) (i : ι) (j : κ) (row : m i = none) (column : m.symm j = none) :
    ι ≃. κ where
  toFun r := if r = i then some j else m r
  invFun c := if c = j then some i else m.symm c
  inv r c := by
    by_cases here : r = i <;> by_cases there : c = j
    · simp [here, there]
    · have other : m.symm c ≠ some i :=
        fun given => by rw [m.eq_some_iff.mp given] at row; cases row
      simp [here, there, Ne.symm there, other]
    · have other : m r ≠ some j :=
        fun given => by rw [m.eq_some_iff.mpr given] at column; cases column
      simp [here, there, Ne.symm here, other]
    · simp [here, there, m.eq_some_iff]

theorem unmatch_apply (given : m i = some j) (r : ι) :
    unmatch m i j given r = if r = i then none else m r := rfl

theorem unmatch_symm (given : m i = some j) (c : κ) :
    (unmatch m i j given).symm c = if c = j then none else m.symm c := rfl

theorem matchAlso_apply (row : m i = none) (column : m.symm j = none) (r : ι) :
    matchAlso m i j row column r = if r = i then some j else m r := rfl

theorem matchAlso_symm (row : m i = none) (column : m.symm j = none) (c : κ) :
    (matchAlso m i j row column).symm c = if c = j then some i else m.symm c := rfl

end Pairs

theorem sum_change [Fintype ι] [DecidableEq ι] {f g : ι → K} (i : ι)
    (same : ∀ r, r ≠ i → g r = f r) :
    ∑ r, g r = ∑ r, f r - f i + g i := by
  have others : ∑ r ∈ Finset.univ.erase i, g r = ∑ r ∈ Finset.univ.erase i, f r :=
    Finset.sum_congr rfl fun r member => same r (Finset.ne_of_mem_erase member)
  rw [← Finset.add_sum_erase _ f (Finset.mem_univ i), ← Finset.add_sum_erase _ g
    (Finset.mem_univ i), others]
  ring

variable [Fintype ι] [Fintype κ]

/-- With the spares, an assignment costs what its real pairs cost as a matching. -/
theorem sum_spareCost (σ : ι ⊕ κ ≃ κ ⊕ ι) :
    ∑ s, spareCost cost fill s (σ s) = matchingCost cost fill (realPairs σ) := by
  -- A spare row pays for its real column.
  let paid (s : ι ⊕ κ) (t : κ ⊕ ι) : K :=
    s.elim (fun _ => 0) fun _ => t.elim (fun _ => fill) fun _ => 0
  have rows (i : ι) :
      spareCost cost fill (.inl i) (σ (.inl i)) = (realPairs σ i).elim fill (cost i) := by
    cases given : σ (.inl i) <;> simp [spareCost, realPairs, given]
  have spares (j : κ) : spareCost cost fill (.inr j) (σ (.inr j)) = paid (.inr j) (σ (.inr j)) := by
    cases given : σ (.inr j) <;> simp [spareCost, paid]
  have columns : ∑ s, paid s (σ s) = ∑ t, paid (σ.symm t) t := by
    rw [← Equiv.sum_comp σ.symm]
    simp only [Equiv.apply_symm_apply]
  have real (j : κ) :
      paid (σ.symm (.inl j)) (.inl j) = ((realPairs σ).symm j).elim fill fun _ => 0 := by
    cases given : σ.symm (.inl j) <;> simp [paid, realPairs, PEquiv.symm, given]
  have spare (i : ι) : paid (σ.symm (.inr i)) (.inr i) = 0 := by
    cases given : σ.symm (.inr i) <;> rfl
  rw [Fintype.sum_sum_type, Fintype.sum_sum_type] at columns
  rw [Fintype.sum_sum_type, matchingCost]
  simp only [rows, spares]
  simp only [real, spare, Finset.sum_const_zero, add_zero] at columns
  rw [← columns]
  simp [paid]

/-- An optimal assignment with the spares is a best matching. -/
theorem matchingCost_le [LinearOrder K] {σ : ι ⊕ κ ≃ κ ⊕ ι}
    (least : ∀ τ : ι ⊕ κ ≃ κ ⊕ ι, ∑ s, spareCost cost fill s (σ s) ≤ ∑ s,
      spareCost cost fill s (τ s)) (m : ι ≃. κ) :
    matchingCost cost fill (realPairs σ) ≤ matchingCost cost fill m := by
  have le := least (withSpares m)
  rwa [sum_spareCost, sum_spareCost, realPairs_withSpares] at le

/-! ## One pair more or less -/

section OnePair

variable [DecidableEq ι] [DecidableEq κ] {m : ι ≃. κ} {i : ι} {j : κ}

theorem matchingCost_unmatch (given : m i = some j) :
    matchingCost cost fill (unmatch m i j given) = matchingCost cost fill m - cost i j +
      2 * fill := by
  have rows : ∑ r, (unmatch m i j given r).elim fill (cost r) = ∑ r,
      (m r).elim fill (cost r) - cost i j + fill := by
    have apart (r : ι) (other : r ≠ i) :
        (unmatch m i j given r).elim fill (cost r) = (m r).elim fill (cost r) := by
      rw [unmatch_apply, if_neg other]
    rw [sum_change i apart, given, unmatch_apply, if_pos rfl]
    rfl
  have columns : ∑ c, ((unmatch m i j given).symm c).elim fill (fun _ => 0) =
      ∑ c, (m.symm c).elim fill (fun _ => 0) + fill := by
    have apart (c : κ) (other : c ≠ j) :
        ((unmatch m i j given).symm c).elim fill (fun _ => (0 : K)) =
          (m.symm c).elim fill fun _ => 0 := by
      rw [unmatch_symm, if_neg other]
    rw [sum_change j apart, m.eq_some_iff.mpr given, unmatch_symm, if_pos rfl, Option.elim_some,
      Option.elim_none, sub_zero]
  rw [matchingCost, rows, columns, matchingCost]
  ring

theorem matchingCost_matchAlso (row : m i = none) (column : m.symm j = none) :
    matchingCost cost fill (matchAlso m i j row column) = matchingCost cost fill m + cost i j -
      2 * fill := by
  have rows : ∑ r, (matchAlso m i j row column r).elim fill (cost r) =
      ∑ r, (m r).elim fill (cost r) - fill + cost i j := by
    have apart (r : ι) (other : r ≠ i) :
        (matchAlso m i j row column r).elim fill (cost r) = (m r).elim fill (cost r) := by
      rw [matchAlso_apply, if_neg other]
    rw [sum_change i apart, row, matchAlso_apply, if_pos rfl]
    rfl
  have columns : ∑ c, ((matchAlso m i j row column).symm c).elim fill (fun _ => 0) =
      ∑ c, (m.symm c).elim fill (fun _ => 0) - fill := by
    have apart (c : κ) (other : c ≠ j) :
        ((matchAlso m i j row column).symm c).elim fill (fun _ => (0 : K)) = (m.symm c).elim fill
        fun _ => 0 := by
      rw [matchAlso_symm, if_neg other]
    rw [sum_change j apart, column, matchAlso_symm, if_pos rfl, Option.elim_none, Option.elim_some,
      add_zero]
  rw [matchingCost, rows, columns, matchingCost]
  ring

variable [LinearOrder K] [IsStrictOrderedRing K]

theorem pair_le_limit (best : ∀ f : ι ≃. κ, matchingCost cost fill m ≤ matchingCost cost fill f)
    (given : m i = some j) :
    cost i j ≤ 2 * fill := by
  have le := best (unmatch m i j given)
  rw [matchingCost_unmatch given] at le
  linarith

theorem limit_le_pair (best : ∀ f : ι ≃. κ, matchingCost cost fill m ≤ matchingCost cost fill f)
    (row : m i = none)
    (column : m.symm j = none) : 2 * fill ≤ cost i j := by
  have le := best (matchAlso m i j row column)
  rw [matchingCost_matchAlso row column] at le
  linarith

end OnePair

end PtzAgx
