import Mathlib.Algebra.Order.Field.Rat
import Mathlib.Data.Fin.VecNotation
import Mathlib.Tactic.FinCases
import Mathlib.Tactic.NormNum
import PtzAgx.Algs.LapjvPath
import PtzAgx.Algs.LapjvRowReduction

/-! # The assignment solver finds an optimal assignment

Augmenting along the shortest path gives each free row a column, and takes none
from the rows that have one. Then all rows have their cheapest columns.
-/

namespace PtzAgx.Algs

variable {K : Type} [Field K] [LinearOrder K] {n : Nat} {cost : Fin n → Fin n → K}

section Augment

variable [IsStrictOrderedRing K] {v : Fin n → K} {freeI : Fin n} {rest : List (Fin n)}
  {pred : Fin n → Fin n}

/-- The loop over a path. The column at its front is open: who has it does not count. -/
theorem augment_path (path : List (Fin n)) {fuel : Nat} {j : Fin n} {x y : Fin n → Option (Fin n)}
    (assigns : Assigns cost v x (Function.update y j none))
    (rows : FreeList (Function.update y j none) (freeI :: rest))
    (alternates : Alternates y pred freeI (j :: path)) (nodup : (j :: path).Nodup)
    (cheapest : ∀ c ∈ j :: path, Cheapest cost v (pred c) c) (enough : path.length < fuel) :
    ∃ x' y', augment freeI pred fuel (some j) x y = some (x', y') ∧ Assigns cost v x' y' ∧
      FreeList y' rest := by
  induction path generalizing fuel j x y with
  | nil =>
      obtain ⟨fuel, rfl⟩ := Nat.exists_eq_succ_of_ne_zero (Nat.ne_of_gt enough)
      cases alternates with
      | start here =>
          have open_here : Function.update y j none j = none := Function.update_self ..
          have free := (rows.free freeI).mp List.mem_cons_self
          have taken := assigns.take free (fun _ => le_rfl) (fun _ _ => rfl)
            (here ▸ cheapest j List.mem_cons_self)
          have left := rows.take_none assigns.inj open_here
          rw [Function.update_idem] at taken left
          exact ⟨_, _, by simp only [augment, here, if_true], taken, left⟩
  | cons c path ih =>
      obtain ⟨fuel, rfl⟩ := Nat.exists_eq_succ_of_ne_zero (Nat.ne_of_gt (Nat.zero_lt_of_lt enough))
      obtain ⟨absent, later⟩ := List.nodup_cons.mp nodup
      cases alternates with
      | step reached alternates =>
          have other : c ≠ j := fun same => absent (same ▸ List.mem_cons_self)
          have had : Function.update y j none c = some (pred j) := by
            rw [Function.update_of_ne other, reached]
          have away : pred j ≠ freeI := by
            intro same
            exact (rows.free freeI).mp List.mem_cons_self c (same ▸ had)
          have known := assigns.known had
          -- The row leaves the next column for this one.
          have released := rows.release assigns.inj had
          have free := (released.free (pred j)).mp List.mem_cons_self
          have open_here : Function.update (Function.update y j none) c none j = none := by
            rw [Function.update_of_ne (Ne.symm other), Function.update_self]
          have moved : Function.update (Function.update (Function.update y j none) c none) j
            (some (pred j)) =
              Function.update (Function.update y j (some (pred j))) c none := by
            rw [Function.update_comm other, Function.update_idem]
          have taken := (assigns.release c).take free (fun _ => le_rfl) (fun _ _ => rfl)
            (cheapest j List.mem_cons_self)
          have left := released.take_none (assigns.release c).inj open_here
          rw [moved] at taken left
          have kept : Alternates (Function.update y j (some (pred j))) pred freeI (c :: path) := by
            refine alternates.congr (fun _ _ => rfl) fun b member => Function.update_of_ne ?_ _ _
            exact fun same => absent (List.mem_cons_of_mem c (same ▸ member))
          obtain ⟨x', y', ran, done⟩ := ih taken left kept later
            (fun b member => cheapest b (List.mem_cons_of_mem j member))
            (Nat.lt_of_succ_lt_succ enough)
          exact ⟨x', y', by simp only [augment, away, if_false, known, ran], done⟩

theorem caRow_sound {lap : Lap n K} (assigns : Assigns cost lap.v lap.x lap.y)
    (rows : FreeList lap.y (freeI :: rest)) :
    ∃ after, caRow cost lap freeI = some after ∧ Assigns cost after.v after.x after.y ∧
      FreeList after.y rest := by
  have free := (rows.free freeI).mp List.mem_cons_self
  obtain ⟨finalJ, v', pred, found, unused, repriced, path, alternates, nodup, cheapest⟩ :=
    findPathDense_path assigns free
  have same : Function.update lap.y finalJ none = lap.y :=
    Function.update_eq_self_iff.mpr unused.symm
  have short : (finalJ :: path).length ≤ n := by
    have le := nodup.length_le_card
    rwa [Fintype.card_fin] at le
  rw [List.length_cons] at short
  obtain ⟨x', y', augmented, done, left⟩ :=
    augment_path path (same.symm ▸ repriced) (same.symm ▸ rows) alternates nodup
    cheapest (show path.length < n + 1 by omega)
  exact ⟨{ lap with x := x', y := y', v := v' }, by
    simp only [caRow, found, augmented, Option.bind_eq_bind,
    Option.bind_some, Option.pure_def], done, left⟩

theorem caRows_sound (rows : List (Fin n)) {lap : Lap n K}
    (assigns : Assigns cost lap.v lap.x lap.y)
    (list : FreeList lap.y rows) :
    ∃ after, rows.foldlM (caRow cost) lap = some after ∧ Assigns cost after.v after.x after.y ∧
      FreeList after.y [] := by
  induction rows generalizing lap with
  | nil => exact ⟨lap, rfl, assigns, list⟩
  | cons freeI rows ih =>
      obtain ⟨next, first, assigned, left⟩ := caRow_sound assigns list
      obtain ⟨after, ran, done⟩ := ih assigned left
      exact ⟨after, by rw [List.foldlM_cons, first]; exact ran, done⟩

end Augment

/-! ## The solver -/

/-- `x` and `y` are one assignment, there and back, and no other one costs less. -/
structure Optimal (cost : Fin n → Fin n → K) (x y : Fin n → Option (Fin n)) (σ : Fin n ≃ Fin n) :
    Prop where
  rows : ∀ i, x i = some (σ i)
  columns : ∀ j, y j = some (σ.symm j)
  least : ∀ τ : Fin n ≃ Fin n, ∑ i, cost i (σ i) ≤ ∑ i, cost i (τ i)

section Solver

variable [IsStrictOrderedRing K]

theorem optimal_of_free_nil {lap : Lap n K} (assigns : Assigns cost lap.v lap.x lap.y)
    (none_free : FreeList lap.y []) :
    ∃ σ, Optimal cost lap.x lap.y σ := by
  obtain ⟨σ, rows, columns, cheapest⟩ := assigns.complete rfl fun i free =>
    absurd ((none_free.free i).mpr free) List.not_mem_nil
  exact ⟨σ, rows, columns, sum_le_sum_of_cheapest σ cheapest⟩

variable [NeZero n]

theorem carrRounds_sound (moderate : Moderate cost) (small : n < 2 ^ 16) (rounds : Nat)
    {lap : Lap n K}
    (sound : lap.Sound cost) :
    ∃ after, carrRounds cost rounds lap = some after ∧ after.Sound cost := by
  induction rounds generalizing lap with
  | zero => exact ⟨lap, rfl, sound⟩
  | succ rounds ih =>
      rw [carrRounds]
      split
      · obtain ⟨next, ran, kept⟩ := carrDense_sound moderate small sound
        rw [ran, Option.bind_some]
        exact ih kept
      · exact ⟨lap, rfl, sound⟩

/-- With costs that are moderate, the solver returns, says so with 0, and has found an
    optimal assignment. -/
theorem lapjvInternal_optimal (cost : Fin n → Fin n → K) (moderate : Moderate cost)
    (small : n < 2 ^ 16) :
    ∃ x y σ, lapjvInternal cost = some (0, x, y) ∧ Optimal cost x y σ := by
  obtain ⟨lap, ran, sound⟩ := carrRounds_sound moderate small 2 (ccrrtDense_sound moderate)
  by_cases some_free : lap.freeRows.length > 0
  · obtain ⟨after, augmented, assigns, none_free⟩ :=
      caRows_sound lap.freeRows sound.assigns sound.free
    obtain ⟨σ, optimal⟩ := optimal_of_free_nil assigns none_free
    refine ⟨after.x, after.y, σ, ?_, optimal⟩
    simp only [lapjvInternal, ran, some_free, if_true, caDense, augmented, Option.map_some]
  · have nothing : lap.freeRows = [] :=
      List.eq_nil_of_length_eq_zero (Nat.eq_zero_of_not_pos some_free)
    obtain ⟨σ, optimal⟩ := optimal_of_free_nil sound.assigns (nothing ▸ sound.free)
    refine ⟨lap.x, lap.y, σ, ?_, optimal⟩
    simp only [lapjvInternal, ran, nothing, List.length_nil]
    rfl

/-- The solver finds an assignment that no other one undercuts, and reports it for the
    rows as for the columns. -/
theorem lapjvInternal_least (cost : Fin n → Fin n → K) (moderate : Moderate cost)
    (small : n < 2 ^ 16) :
    ∃ σ : Fin n ≃ Fin n, lapjvInternal cost = some (0, fun i => some (σ i),
      fun j => some (σ.symm j)) ∧
      ∀ τ : Fin n ≃ Fin n, ∑ i, cost i (σ i) ≤ ∑ i, cost i (τ i) := by
  obtain ⟨x, y, σ, ran, optimal⟩ := lapjvInternal_optimal cost moderate small
  have rows : x = fun i => some (σ i) := funext optimal.rows
  have columns : y = fun j => some (σ.symm j) := funext optimal.columns
  subst rows columns
  exact ⟨σ, ran, optimal.least⟩

/-- Every row has its least cost in the first column. -/
def threeCosts : Fin 3 → Fin 3 → ℚ := ![![1, 5, 4], ![2, 4, 8], ![1, 3, 9]]

theorem lapjvInternal_least_three :
    ∃ σ : Fin 3 ≃ Fin 3, lapjvInternal threeCosts = some (0, fun i => some (σ i),
      fun j => some (σ.symm j)) ∧
      ∀ τ : Fin 3 ≃ Fin 3, ∑ i, threeCosts i (σ i) ≤ ∑ i, threeCosts i (τ i) := by
  have range (i j : Fin 3) : 0 ≤ threeCosts i j ∧ threeCosts i j ≤ 9 := by
    fin_cases i <;> fin_cases j <;> norm_num [threeCosts]
  have moderate : Moderate threeCosts := by
    constructor
    case below =>
      intro i j
      unfold large
      linarith [(range i j).2]
    case spread =>
      intro i j k l
      unfold large
      linarith [(range i j).2, (range k l).1]
  exact lapjvInternal_least threeCosts moderate (by norm_num)

end Solver

end PtzAgx.Algs
