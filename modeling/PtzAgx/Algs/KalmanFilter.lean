import Mathlib.Algebra.Order.Field.Rat
import Mathlib.Data.Matrix.ColumnRowPartitioned
import Mathlib.Data.Rat.Star
import Mathlib.LinearAlgebra.Matrix.SchurComplement
import Mathlib.Tactic.NormNum
import PtzAgx.Lib.Correction

/-! # The filter behind each track

`kalmanFilter.cpp`. A box is its centre, its aspect ratio and its height, and a state
is these and their velocities. The numbers are exact, and `llt().solve` is a parameter.
-/

namespace PtzAgx.Algs

open Matrix

variable {K : Type} [Field K]

/-- The entries of a `DETECTBOX`, in order. -/
inductive Entry where
  | x
  | y
  | a
  | h
deriving DecidableEq, Repr

instance : Fintype Entry where
  elems := {.x, .y, .a, .h}
  complete e := by cases e <;> decide

/-- `DETECTBOX` -/
abbrev DetectBox (K : Type) := Entry → K

def DetectBox.of (x y a h : K) : DetectBox K
  | .x => x
  | .y => y
  | .a => a
  | .h => h

/-- `KAL_MEAN`: a box, and how fast each of its entries changes. -/
abbrev KalMean (K : Type) := Entry ⊕ Entry → K

/-- `KAL_DATA`: `mean` and `covariance`. -/
structure KalData (K : Type) where
  mean : KalMean K
  covariance : Matrix (Entry ⊕ Entry) (Entry ⊕ Entry) K

namespace KalmanFilter

def motionMat (K : Type) [Field K] : Matrix (Entry ⊕ Entry) (Entry ⊕ Entry) K := fromBlocks 1 1 0 1

def updateMat (K : Type) [Field K] : Matrix Entry (Entry ⊕ Entry) K := fromCols 1 0

def stdWeightPosition : K := 1 / 20.0

def stdWeightVelocity : K := 1 / 160.0

/-- All deviations but the third are in proportion to the height. -/
def stds (height third : K) : DetectBox K
  | .a => third
  | _ => height

/-- The diagonal of the squares. -/
def squares {ι : Type} [DecidableEq ι] (std : ι → K) : Matrix ι ι K :=
  diagonal fun i => std i * std i

def initiate (measurement : DetectBox K) : KalData K where
  mean := Sum.elim measurement 0
  covariance :=
    squares (Sum.elim (stds (2.0 * stdWeightPosition * measurement .h) 1e-2)
      (stds (10.0 * stdWeightVelocity * measurement .h) 1e-5))

/-- `motion_cov` -/
def motionCov (mean : KalMean K) : Matrix (Entry ⊕ Entry) (Entry ⊕ Entry) K :=
  squares (Sum.elim (stds (stdWeightPosition * mean (.inl .h)) 1e-2)
    (stds (stdWeightVelocity * mean (.inl .h)) 1e-5))

def predict (s : KalData K) : KalData K where
  mean := motionMat K *ᵥ s.mean
  covariance := motionMat K * s.covariance * (motionMat K)ᵀ + motionCov s.mean

/-- What `project` adds to the covariance. -/
def projectCov (mean : KalMean K) : Matrix Entry Entry K :=
  squares (stds (stdWeightPosition * mean (.inl .h)) 1e-1)

def project (s : KalData K) : DetectBox K × Matrix Entry Entry K :=
  (updateMat K *ᵥ s.mean, updateMat K * s.covariance * (updateMat K)ᵀ + projectCov s.mean)

/-- `llt().solve` -/
abbrev Solver (K : Type) :=
  Matrix Entry Entry K → Matrix Entry (Entry ⊕ Entry) K → Matrix Entry (Entry ⊕ Entry) K

def kalmanGain (solve : Solver K) (s : KalData K) : Matrix (Entry ⊕ Entry) Entry K :=
  (solve (project s).2 (s.covariance * (updateMat K)ᵀ)ᵀ)ᵀ

def update (solve : Solver K) (s : KalData K) (measurement : DetectBox K) : KalData K where
  mean := s.mean + (measurement - (project s).1) ᵥ* (kalmanGain solve s)ᵀ
  covariance := s.covariance - kalmanGain solve s * (project s).2 * (kalmanGain solve s)ᵀ

/-! ## The matrices -/

/-- Each speed is added to its place, and can be taken off it again. -/
theorem motionMat_isUnit : IsUnit (motionMat K) :=
  isUnit_fromBlocks_zero₂₁.mpr ⟨isUnit_one, isUnit_one⟩

theorem motionMat_vecMul_injective : Function.Injective (motionMat K).vecMul :=
  vecMul_injective_iff_isUnit.mpr motionMat_isUnit

theorem stds_ne_zero {height third : K} (tall : height ≠ 0) (other : third ≠ 0) (i : Entry) :
    stds height third i ≠ 0 := by
  cases i
  case a => exact other
  all_goals exact tall

section Solving

variable [LinearOrder K] [StarRing K]

/-- What the solver is for: `solve A B` is what `A` makes `B` of. -/
def Solves (solve : Solver K) : Prop :=
  ∀ A B, A.PosDef → A * solve A B = B

theorem inverse_solves : Solves fun (A : Matrix Entry Entry K) B => A⁻¹ * B :=
  fun A B definite => mul_nonsing_inv_cancel_left A B ((isUnit_iff_isUnit_det A).mp definite.isUnit)

end Solving

section Definite

variable [LinearOrder K] [StarRing K] [StarOrderedRing K]

theorem squares_posSemidef {ι : Type} [Finite ι] [DecidableEq ι] (std : ι → K) :
    (squares std).PosSemidef :=
  PosSemidef.diagonal fun i => mul_self_nonneg (std i)

theorem squares_posDef {ι : Type} [Finite ι] [DecidableEq ι] {std : ι → K}
    (nonzero : ∀ i, std i ≠ 0) :
    (squares std).PosDef :=
  PosDef.diagonal fun i => mul_self_pos.mpr (nonzero i)

theorem projectCov_posDef {mean : KalMean K} (tall : mean (.inl .h) ≠ 0) :
    (projectCov mean).PosDef := by
  have position : stdWeightPosition * mean (.inl .h) ≠ 0 :=
    mul_ne_zero (by norm_num [stdWeightPosition]) tall
  exact squares_posDef (stds_ne_zero position (by norm_num))

theorem initiate_posDef {z : DetectBox K} (tall : z .h ≠ 0) : (initiate z).covariance.PosDef := by
  have position : 2.0 * stdWeightPosition * z .h ≠ 0 :=
    mul_ne_zero (by norm_num [stdWeightPosition]) tall
  have velocity : 10.0 * stdWeightVelocity * z .h ≠ 0 :=
    mul_ne_zero (by norm_num [stdWeightVelocity]) tall
  refine squares_posDef fun i => ?_
  cases i with
  | inl i => exact stds_ne_zero position (by norm_num) i
  | inr i => exact stds_ne_zero velocity (by norm_num) i

theorem predict_posDef {s : KalData K} (definite : s.covariance.PosDef) :
    (predict s).covariance.PosDef := by
  have moved := definite.mul_mul_conjTranspose_same motionMat_vecMul_injective
  rw [conjTranspose_eq_transpose_of_trivial] at moved
  exact moved.add_posSemidef (squares_posSemidef _)

/-! ## The correction -/

variable {solve : Solver K} {s : KalData K}

theorem kalmanGain_weighs (solves : Solves solve) (definite : s.covariance.PosDef)
    (tall : s.mean (.inl .h) ≠ 0) :
    Weighs s.covariance (updateMat K) (projectCov s.mean) (kalmanGain solve s) := by
  have solvable :=
      expectedCovariance_posDef (H := updateMat K) definite.posSemidef (projectCov_posDef tall)
  have solved := solves _ (s.covariance * (updateMat K)ᵀ)ᵀ solvable
  rw [Weighs, kalmanGain, transpose_transpose]
  refine solved.trans ?_
  rw [transpose_mul, transpose_transpose, (isSymm_of_posSemidef definite.posSemidef).eq]

theorem update_posDef (solves : Solves solve) (definite : s.covariance.PosDef)
    (tall : s.mean (.inl .h) ≠ 0) (z : DetectBox K) :
    (update solve s z).covariance.PosDef := by
  have weighs := kalmanGain_weighs solves definite tall
  have noise := projectCov_posDef tall
  have left := correctedCovariance_posDef (H := updateMat K) definite noise (kalmanGain solve s)
  rwa [weighs.correctedCovariance_eq (isSymm_of_posSemidef definite.posSemidef)
    (isSymm_of_posSemidef noise.posSemidef)] at left

/-! ## Runs -/

/-- The states a track's filter goes through. Boxes have a height when they are measured
    and when they are compared with a measurement. -/
inductive Reached (solve : Solver K) : KalData K → Prop
  | initiate {z : DetectBox K} : z .h ≠ 0 → Reached solve (initiate z)
  | stop {s : KalData K} :
      Reached solve s → Reached solve { s with mean := Function.update s.mean (.inr .h) 0 }
  | predict {s : KalData K} : Reached solve s → Reached solve (predict s)
  | update {s : KalData K} (z : DetectBox K) :
      Reached solve s → s.mean (.inl .h) ≠ 0 → Reached solve (update solve s z)

theorem Reached.posDef (solves : Solves solve) (reached : Reached solve s) :
    s.covariance.PosDef := by
  induction reached with
  | initiate tall => exact initiate_posDef tall
  | stop _ ih => exact ih
  | predict _ ih => exact predict_posDef ih
  | update z _ tall ih => exact update_posDef solves ih tall z

/-- In every run the covariance stays positive definite, so there is always a solution
    to ask the solver for. -/
theorem kalmanFilter_solvable (solves : Solves solve) (reached : Reached solve s) :
    s.covariance.PosDef ∧ (s.mean (.inl .h) ≠ 0 → (project s).2.PosDef) := by
  have definite := reached.posDef solves
  exact ⟨definite, fun tall => expectedCovariance_posDef definite.posSemidef
    (projectCov_posDef tall)⟩

/-- A box that is seen, and the frame after. -/
def seenOnce : KalData ℚ := predict (initiate (.of 10 10 1 20))

theorem seenOnce_tall : seenOnce.mean (.inl .h) ≠ 0 := by decide +kernel

theorem seenOnce_reached (solve : Solver ℚ) : Reached solve seenOnce :=
  .predict (.initiate (by decide +kernel))

theorem kalmanFilter_solvable_once :
    seenOnce.covariance.PosDef ∧ (seenOnce.mean (.inl .h) ≠ 0 → (project seenOnce).2.PosDef) :=
  kalmanFilter_solvable inverse_solves (seenOnce_reached _)

/-- Each measurement moves the state to the one that fits both best, and leaves the least
    covariance that any gain leaves. -/
theorem kalmanUpdate_best (solves : Solves solve) (reached : Reached solve s)
    (tall : s.mean (.inl .h) ≠ 0) (z : DetectBox K) :
    (∀ x, misfit s.covariance (updateMat K) (projectCov s.mean) s.mean z (update solve s z).mean ≤
        misfit s.covariance (updateMat K) (projectCov s.mean) s.mean z x) ∧
      ∀ N, (correctedCovariance s.covariance (updateMat K) (projectCov s.mean) N -
        (update solve s z).covariance).PosSemidef := by
  have definite := reached.posDef solves
  have weighs := kalmanGain_weighs solves definite tall
  have noise := projectCov_posDef tall
  refine ⟨fun x => ?_, fun N => weighs.least definite.posSemidef noise N⟩
  have fit := weighs.misfit_le definite noise s.mean z x
  rwa [← vecMul_transpose] at fit

theorem kalmanUpdate_best_once :
    let solve : Solver ℚ := fun A B => A⁻¹ * B
    let z : DetectBox ℚ := .of 12 11 1 21
    (∀ x, misfit seenOnce.covariance (updateMat ℚ) (projectCov seenOnce.mean) seenOnce.mean z
      (update solve seenOnce z).mean ≤
        misfit seenOnce.covariance (updateMat ℚ) (projectCov seenOnce.mean) seenOnce.mean z x) ∧
      ∀ N, (correctedCovariance seenOnce.covariance (updateMat ℚ) (projectCov seenOnce.mean) N -
        (update solve seenOnce z).covariance).PosSemidef :=
  kalmanUpdate_best inverse_solves (seenOnce_reached _) seenOnce_tall (.of 12 11 1 21)

end Definite

end KalmanFilter

end PtzAgx.Algs
