import Mathlib.Algebra.BigOperators.Fin
import Mathlib.Algebra.Order.Field.Rat
import PtzAgx.Algs.LapjvOptimal
import PtzAgx.Lib.PartialMatching

/-! # Which detection belongs to which track

`linear_assignment`, `lapjv`, `ious` and `iou_distance` of `utils.cpp`. A matrix of
costs is a function of its indices. A program that ends is `none`. The `float` and
`double` values are exact, in any ordered field.
-/

namespace PtzAgx.Algs

variable {K : Type} [Field K] [LinearOrder K] {r c : Nat}

/-! ## The matrix with the spares -/

/-- `LONG_MAX` -/
def longMax : K := 9223372036854775807

/-- The greatest cost, or -1. -/
def costMax (cost : Fin r → Fin c → K) : K :=
  (List.finRange r).foldl
    (fun max i => (List.finRange c).foldl
      (fun max j => if cost i j > max then cost i j else max) max) (-1)

/-- `cost_c_extended` -/
def costExtended (cost : Fin r → Fin c → K) (costLimit : K) (i j : Fin (r + c)) : K :=
  if inside : i.val < r ∧ j.val < c then cost ⟨i, inside.1⟩ ⟨j, inside.2⟩
  else if r ≤ i.val ∧ c ≤ j.val then 0
  else if costLimit < longMax then costLimit / 2.0
  else costMax cost + 1

/-- An index that is too great for the rows or the columns there are becomes -1. -/
def within (m : Nat) {n : Nat} (index : Option (Fin n)) : Option (Fin m) :=
  index.bind fun k => if inside : k.val < m then some ⟨k, inside⟩ else none

/-- `rowsol`, `colsol` and the cost, where `extend_cost` is set. -/
def lapjv [NeZero (r + c)] (cost : Fin r → Fin c → K) (costLimit : K) :
    Option ((Fin r → Option (Fin c)) × (Fin c → Option (Fin r)) × K) :=
  match lapjvInternal (costExtended cost costLimit) with
  | some (0, xC, yC) =>
      let rowsol (i : Fin r) : Option (Fin c) := within c (xC (Fin.castAdd c i))
      let colsol (j : Fin c) : Option (Fin r) := within r (yC (Fin.castLE (Nat.le_add_left c r) j))
      some (rowsol, colsol, ∑ i, (rowsol i).elim 0 (cost i))
  | _ => none

/-- What `linear_assignment` appends to its three lists. -/
structure Matches (r c : Nat) where
  pairs : List (Fin r × Fin c)
  unmatchedA : List (Fin r)
  unmatchedB : List (Fin c)

/-- A matrix without rows stands for one without rows or columns. -/
def linearAssignment (costMatrix : Fin r → Fin c → K) (thresh : K) : Option (Matches r c) :=
  if empty : r = 0 ∨ c = 0 then some ⟨[], List.finRange r, List.finRange c⟩
  else
    have : NeZero (r + c) := ⟨by omega⟩
    (lapjv costMatrix thresh).map fun (rowsol, colsol, _) =>
      { pairs := (List.finRange r).filterMap fun i => (rowsol i).map fun j => (i, j)
        unmatchedA := (List.finRange r).filter fun i => rowsol i = none
        unmatchedB := (List.finRange c).filter fun j => colsol j = none }

/-! ## Boxes -/

/-- `tlbr` -/
structure Tlbr (K : Type) where
  left : K
  top : K
  right : K
  bottom : K

/-- The inner loop of `ious`. -/
def iou (atlbr btlbr : Tlbr K) : K :=
  let boxArea := (btlbr.right - btlbr.left + 1) * (btlbr.bottom - btlbr.top + 1)
  let iw := min atlbr.right btlbr.right - max atlbr.left btlbr.left + 1
  if iw > 0 then
    let ih := min atlbr.bottom btlbr.bottom - max atlbr.top btlbr.top + 1
    if ih > 0 then
      let ua := (atlbr.right - atlbr.left + 1) * (atlbr.bottom - atlbr.top + 1) + boxArea - iw * ih
      iw * ih / ua
    else 0
  else 0

def iouDistance (atlbrs : Fin r → Tlbr K) (btlbrs : Fin c → Tlbr K) (i : Fin r) (j : Fin c) : K :=
  1 - iou (atlbrs i) (btlbrs j)

/-! ## The overlap is a part of the whole -/

section Overlap

variable [IsStrictOrderedRing K] {a b : Tlbr K}

theorem union_pos {x y aw ah bw bh : K} (x_pos : 0 < x) (y_pos : 0 < y) (aw_le : x ≤ aw)
    (ah_le : y ≤ ah) (bw_le : x ≤ bw)
    (bh_le : y ≤ bh) : 0 < x * y ∧ x * y ≤ aw * ah + bw * bh - x * y := by
  have positive : 0 < x * y := mul_pos x_pos y_pos
  have first : x * y ≤ aw * ah := mul_le_mul aw_le ah_le y_pos.le (x_pos.le.trans aw_le)
  have second : x * y ≤ bw * bh := mul_le_mul bw_le bh_le y_pos.le (x_pos.le.trans bw_le)
  exact ⟨positive, by linarith⟩

/-- Whatever the corners are, the division is by a positive number, and the result
    lies between 0 and 1. -/
theorem iou_unit (a b : Tlbr K) : 0 ≤ iou a b ∧ iou a b ≤ 1 := by
  unfold iou
  dsimp only
  split
  · rename_i iw
    split
    · rename_i ih
      have left := le_max_left a.left b.left
      have right := le_max_right a.left b.left
      have below := min_le_left a.right b.right
      have above := min_le_right a.right b.right
      have top := le_max_left a.top b.top
      have bottom := le_max_right a.top b.top
      have low := min_le_left a.bottom b.bottom
      have high := min_le_right a.bottom b.bottom
      have wide_a : min a.right b.right - max a.left b.left + 1 ≤ a.right - a.left + 1 := by
        linarith
      have high_a : min a.bottom b.bottom - max a.top b.top + 1 ≤ a.bottom - a.top + 1 := by
        linarith
      have wide_b : min a.right b.right - max a.left b.left + 1 ≤ b.right - b.left + 1 := by
        linarith
      have high_b : min a.bottom b.bottom - max a.top b.top + 1 ≤ b.bottom - b.top + 1 := by
        linarith
      obtain ⟨positive, part⟩ := union_pos iw ih wide_a high_a wide_b high_b
      have whole := positive.trans_le part
      exact ⟨div_nonneg positive.le whole.le, (div_le_one whole).mpr part⟩
    · exact ⟨le_rfl, zero_le_one⟩
  · exact ⟨le_rfl, zero_le_one⟩

theorem iouDistance_unit (atlbrs : Fin r → Tlbr K) (btlbrs : Fin c → Tlbr K) (i : Fin r)
    (j : Fin c) :
    0 ≤ iouDistance atlbrs btlbrs i j ∧ iouDistance atlbrs btlbrs i j ≤ 1 := by
  have unit := iou_unit (atlbrs i) (btlbrs j)
  unfold iouDistance
  constructor
  · linarith [unit.2]
  · linarith [unit.1]

end Overlap

/-! ## The best matching -/

section Best

variable {cost : Fin r → Fin c → K} {costLimit : K}

/-- The columns behind those there are belong to the rows. -/
def columnsFirst (r c : Nat) : Fin c ⊕ Fin r ≃ Fin (r + c) :=
  finSumFinEquiv.trans (finCongr (Nat.add_comm c r))

/-- The three lists of a matching. -/
def Matches.of (m : Fin r ≃. Fin c) : Matches r c where
  pairs := (List.finRange r).filterMap fun i => (m i).map fun j => (i, j)
  unmatchedA := (List.finRange r).filter fun i => m i = none
  unmatchedB := (List.finRange c).filter fun j => m.symm j = none

theorem Matches.mem_pairs {m : Fin r ≃. Fin c} {i : Fin r} {j : Fin c} :
    (i, j) ∈ (Matches.of m).pairs ↔ m i = some j := by
  simp [Matches.of]

theorem Matches.pairs_nodup (m : Fin r ≃. Fin c) : (Matches.of m).pairs.Nodup := by
  refine (List.nodup_finRange r).filterMap fun i k p first second => ?_
  simp only [Option.mem_def, Option.map_eq_some_iff] at first second
  obtain ⟨j, -, rfl⟩ := first
  obtain ⟨l, -, same⟩ := second
  exact (congrArg Prod.fst same).symm

theorem taken_perm {n : Nat} {taken : List (Fin n)} (Left : Fin n → Prop) [DecidablePred Left]
    (once : taken.Nodup) (apart : ∀ i, i ∈ taken ↔ ¬ Left i) :
    (taken ++ (List.finRange n).filter Left).Perm (List.finRange n) := by
  refine (List.perm_ext_iff_of_nodup ?_ (List.nodup_finRange n)).mpr fun i => ?_
  · refine List.nodup_append.mpr ⟨once, (List.nodup_finRange n).filter _,
      fun i first k second same => ?_⟩
    subst same
    exact (apart i).mp first (of_decide_eq_true (List.mem_filter.mp second).2)
  · refine ⟨fun _ => List.mem_finRange i, fun _ => List.mem_append.mpr ?_⟩
    by_cases left : Left i
    · exact .inr (List.mem_filter.mpr ⟨List.mem_finRange i, decide_eq_true left⟩)
    · exact .inl ((apart i).mpr left)

theorem Matches.rows_perm (m : Fin r ≃. Fin c) :
    ((Matches.of m).pairs.map Prod.fst ++ (Matches.of m).unmatchedA).Perm (List.finRange r) := by
  refine taken_perm (m · = none) ((Matches.pairs_nodup m).map_on ?_) fun i => ?_
  · rintro ⟨i, j⟩ first ⟨k, l⟩ second (rfl : i = k)
    rw [Option.some.inj ((mem_pairs.mp first).symm.trans (mem_pairs.mp second))]
  · simp [mem_pairs, ← ne_eq, Option.ne_none_iff_exists']

theorem Matches.columns_perm (m : Fin r ≃. Fin c) :
    ((Matches.of m).pairs.map Prod.snd ++ (Matches.of m).unmatchedB).Perm (List.finRange c) := by
  refine taken_perm (m.symm · = none) ((Matches.pairs_nodup m).map_on ?_) fun j => ?_
  · rintro ⟨i, j⟩ first ⟨k, l⟩ second (rfl : j = l)
    rw [m.inj (mem_pairs.mp first) (mem_pairs.mp second)]
  · simp [mem_pairs, ← ne_eq, Option.ne_none_iff_exists', ← m.eq_some_iff]

theorem within_columns (k : Fin (r + c)) :
    within c (some k) = ((columnsFirst r c).symm k).getLeft? := by
  obtain ⟨t, rfl⟩ := (columnsFirst r c).surjective k
  rw [Equiv.symm_apply_apply]
  cases t <;> simp [within, columnsFirst]

theorem within_rows (k : Fin (r + c)) :
    within r (some k) = (finSumFinEquiv.symm k : Fin r ⊕ Fin c).getLeft? := by
  obtain ⟨s, rfl⟩ := (finSumFinEquiv (m := r) (n := c)).surjective k
  rw [Equiv.symm_apply_apply]
  cases s <;> simp [within]

/-- The solver's assignment, with the columns there are first. -/
def withColumnsFirst (σ : Fin (r + c) ≃ Fin (r + c)) : Fin r ⊕ Fin c ≃ Fin c ⊕ Fin r :=
  finSumFinEquiv.trans (σ.trans (columnsFirst r c).symm)

variable [IsStrictOrderedRing K]

theorem costExtended_eq (limited : costLimit < longMax) (s : Fin r ⊕ Fin c) (t : Fin c ⊕ Fin r) :
    costExtended cost costLimit (finSumFinEquiv s) (columnsFirst r c t) =
      spareCost cost (costLimit / 2) s t := by
  have half : costLimit / 2.0 = costLimit / 2 := by norm_num
  cases s <;> cases t <;> simp [costExtended, columnsFirst, spareCost, limited, half]

theorem sum_costExtended (limited : costLimit < longMax) (σ : Fin (r + c) ≃ Fin (r + c)) :
    ∑ k, costExtended cost costLimit k (σ k) = ∑ s,
      spareCost cost (costLimit / 2) s (withColumnsFirst σ s) := by
  rw [← Equiv.sum_comp finSumFinEquiv]
  refine Finset.sum_congr rfl fun s _ => ?_
  rw [← costExtended_eq limited, withColumnsFirst]
  simp only [Equiv.trans_apply, Equiv.apply_symm_apply]

/-- An optimal assignment of the whole matrix gives a best matching. -/
theorem matchingCost_of_optimal (limited : costLimit < longMax) {σ : Fin (r + c) ≃ Fin (r + c)}
    (least : ∀ τ : Fin (r + c) ≃ Fin (r + c),
      ∑ k, costExtended cost costLimit k (σ k) ≤ ∑ k, costExtended cost costLimit k (τ k))
      (f : Fin r ≃. Fin c) :
    matchingCost cost (costLimit / 2) (realPairs (withColumnsFirst σ)) ≤
      matchingCost cost (costLimit / 2) f := by
  refine matchingCost_le (fun τ => ?_) f
  have le := least (finSumFinEquiv.symm.trans (τ.trans (columnsFirst r c)))
  rw [sum_costExtended limited, sum_costExtended limited] at le
  have same : withColumnsFirst (finSumFinEquiv.symm.trans (τ.trans (columnsFirst r c))) = τ := by
    ext s
    simp [withColumnsFirst]
  rwa [same] at le

theorem costExtended_moderate (range : ∀ i j, 0 ≤ cost i j ∧ 2 * cost i j ≤ large)
    (positive : 0 ≤ costLimit)
    (below : costLimit ≤ large) : Moderate (costExtended cost costLimit) := by
  have limited : costLimit < longMax := by
    refine lt_of_le_of_lt below ?_
    unfold large longMax
    norm_num
  have entry (i j : Fin (r + c)) :
      0 ≤ costExtended cost costLimit i j ∧ 2 * costExtended cost costLimit i j ≤ large := by
    have start := large_pos (K := K)
    simp only [costExtended, if_pos limited]
    split
    · exact range _ _
    · split
      · exact ⟨le_rfl, by linarith⟩
      · exact ⟨by linarith, by linarith⟩
  constructor
  case below =>
    intro i j
    have range := entry i j
    linarith [range.1, range.2]
  case spread =>
    intro i j k l
    have first := entry i j
    have second := entry k l
    linarith [first.2, second.1]

theorem linearAssignment_best (range : ∀ i j, 0 ≤ cost i j ∧ 2 * cost i j ≤ large)
    (positive : 0 ≤ costLimit)
    (below : costLimit ≤ large) (small : r + c < 2 ^ 16) :
    ∃ m : Fin r ≃. Fin c, linearAssignment cost costLimit = some (Matches.of m) ∧
      ∀ f : Fin r ≃. Fin c, matchingCost cost (costLimit / 2) m ≤
      matchingCost cost (costLimit / 2) f := by
  by_cases empty : r = 0 ∨ c = 0
  · -- There is one matching only.
    have alone (f g : Fin r ≃. Fin c) : f = g := by
      ext i j
      obtain rfl | rfl := empty
      · exact i.elim0
      · exact j.elim0
    refine ⟨⊥, ?_, fun f => le_of_eq (by rw [alone ⊥ f])⟩
    rw [linearAssignment, dif_pos empty]
    simp [Matches.of, PEquiv.symm_bot]
  · have : NeZero (r + c) := ⟨by omega⟩
    have limited : costLimit < longMax := by
      refine lt_of_le_of_lt below ?_
      unfold large longMax
      norm_num
    obtain ⟨x, y, σ, ran, optimal⟩ :=
      lapjvInternal_optimal _ (costExtended_moderate range positive below) small
    refine ⟨realPairs (withColumnsFirst σ), ?_, matchingCost_of_optimal limited optimal.least⟩
    have rowsol (i : Fin r) :
        within c (x (Fin.castAdd c i)) = realPairs (withColumnsFirst σ) i := by
      rw [optimal.rows, within_columns]
      rfl
    have colsol (j : Fin c) :
        within r (y (Fin.castLE (Nat.le_add_left c r) j)) =
        (realPairs (withColumnsFirst σ)).symm j := by
      rw [optimal.columns, within_rows]
      rfl
    rw [linearAssignment, dif_neg empty]
    simp only [lapjv, ran, rowsol, colsol, Option.map_some, Matches.of]

/-- With costs and a limit that are small against `LARGE`, the pairs are a best
    matching, none costs more than the limit, and none that could be added costs less. -/
theorem linearAssignment_bestMatching (range : ∀ i j, 0 ≤ cost i j ∧ 2 * cost i j ≤ large)
    (positive : 0 ≤ costLimit)
    (below : costLimit ≤ large) (small : r + c < 2 ^ 16) :
    ∃ m : Fin r ≃. Fin c, linearAssignment cost costLimit = some (Matches.of m) ∧
      (∀ f : Fin r ≃. Fin c, matchingCost cost (costLimit / 2) m ≤
        matchingCost cost (costLimit / 2) f) ∧
      (∀ {i j}, m i = some j → cost i j ≤ costLimit) ∧
      ∀ {i j}, m i = none → m.symm j = none → costLimit ≤ cost i j := by
  obtain ⟨m, ran, best⟩ := linearAssignment_best range positive below small
  have halves : 2 * (costLimit / 2) = costLimit := by ring
  refine ⟨m, ran, best, fun given => ?_, fun row column => ?_⟩
  · exact halves ▸ pair_le_limit best given
  · exact halves ▸ limit_le_pair best row column

/-- Two rows want the first column. -/
def twoCosts : Fin 2 → Fin 2 → ℚ := ![![1 / 10, 9 / 10], ![1 / 5, 9 / 10]]

theorem linearAssignment_bestMatching_two : ∃ m : Fin 2 ≃. Fin 2,
    linearAssignment twoCosts (4 / 5) = some (Matches.of m) ∧
      (∀ f : Fin 2 ≃. Fin 2, matchingCost twoCosts (4 / 5 / 2) m ≤
        matchingCost twoCosts (4 / 5 / 2) f) ∧
      (∀ {i j}, m i = some j → twoCosts i j ≤ 4 / 5) ∧ ∀ {i j}, m i = none → m.symm j = none →
      4 / 5 ≤ twoCosts i j :=
  linearAssignment_bestMatching
    (by intro i j; fin_cases i <;> fin_cases j <;> norm_num [twoCosts, large])
    (by norm_num) (by norm_num [large]) (by norm_num)

/-! ## Boxes -/

theorem iouDistance_range (atlbrs : Fin r → Tlbr K) (btlbrs : Fin c → Tlbr K) (i : Fin r)
    (j : Fin c) :
    0 ≤ iouDistance atlbrs btlbrs i j ∧ 2 * iouDistance atlbrs btlbrs i j ≤ large := by
  have unit := iouDistance_unit atlbrs btlbrs i j
  have two : (2 : K) ≤ large := by norm_num [large]
  exact ⟨unit.1, by linarith [unit.2]⟩

/-- Whatever the boxes are, they are matched, each with one at most, and the pairs
    overlap by enough. -/
theorem iouAssociation_overlaps {thresh : K} (atlbrs : Fin r → Tlbr K) (btlbrs : Fin c → Tlbr K)
    (positive : 0 ≤ thresh) (below : thresh ≤ large) (small : r + c < 2 ^ 16) :
    ∃ m : Fin r ≃. Fin c, linearAssignment (iouDistance atlbrs btlbrs) thresh =
      some (Matches.of m) ∧
      (∀ {i j}, m i = some j → 1 - thresh ≤ iou (atlbrs i) (btlbrs j)) ∧
      ∀ {i j}, m i = none → m.symm j = none → iou (atlbrs i) (btlbrs j) ≤ 1 - thresh := by
  obtain ⟨m, ran, best⟩ :=
    linearAssignment_best (iouDistance_range atlbrs btlbrs) positive below small
  refine ⟨m, ran, fun given => ?_, fun row column => ?_⟩
  · have le := pair_le_limit best given
    unfold iouDistance at le
    linarith
  · have le := limit_le_pair best row column
    unfold iouDistance at le
    linarith

theorem iouAssociation_overlaps_two :
    let boxes : Fin 2 → Tlbr ℚ := ![⟨0, 0, 9, 9⟩, ⟨20, 20, 29, 29⟩]
    ∃ m : Fin 2 ≃. Fin 2, linearAssignment (iouDistance boxes boxes) (4 / 5) = some (Matches.of m) ∧
      (∀ {i j}, m i = some j → 1 - 4 / 5 ≤ iou (boxes i) (boxes j)) ∧
      ∀ {i j}, m i = none → m.symm j = none → iou (boxes i) (boxes j) ≤ 1 - 4 / 5 :=
  iouAssociation_overlaps ![⟨0, 0, 9, 9⟩, ⟨20, 20, 29, 29⟩] ![⟨0, 0, 9, 9⟩, ⟨20, 20, 29, 29⟩]
    (by norm_num) (by norm_num [large]) (by norm_num)

end Best

end PtzAgx.Algs
