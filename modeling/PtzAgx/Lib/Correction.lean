import Mathlib.LinearAlgebra.Matrix.PosDef
import Mathlib.Tactic.Abel
import Mathlib.Tactic.Linarith
import Mathlib.Tactic.NoncommRing

/-! # Estimates that measurements correct

An estimate with a covariance, and a measurement of a linear function of it. The
gain that weighs the one against the other leaves the least covariance that any gain
leaves, and the estimate that fits both of them best.
-/

namespace PtzAgx

open Matrix

variable {ι κ K : Type} [Fintype ι] [Field K]
variable {P : Matrix ι ι K} {H : Matrix κ ι K} {R : Matrix κ κ K} {G : Matrix ι κ K}

/-- The covariance of the measurement that the estimate leads one to expect. -/
def expectedCovariance (P : Matrix ι ι K) (H : Matrix κ ι K) (R : Matrix κ κ K) : Matrix κ κ K :=
  H * P * Hᵀ + R

/-- The covariance of an estimate that is corrected with some gain. -/
def correctedCovariance [Fintype κ] [DecidableEq ι] (P : Matrix ι ι K) (H : Matrix κ ι K)
    (R : Matrix κ κ K) (G : Matrix ι κ K) : Matrix ι ι K :=
  (1 - G * H) * P * (1 - G * H)ᵀ + G * R * Gᵀ

/-- The gain that weighs the measurement against the estimate. -/
def Weighs [Fintype κ] (P : Matrix ι ι K) (H : Matrix κ ι K) (R : Matrix κ κ K) (G : Matrix ι κ K) :
    Prop :=
  expectedCovariance P H R * Gᵀ = H * P

/-! ## The least covariance -/

section Symmetric

theorem expectedCovariance_symm (estimate : P.IsSymm) (noise : R.IsSymm) :
    (expectedCovariance P H R).IsSymm := by
  rw [IsSymm, expectedCovariance, transpose_add, transpose_mul, transpose_mul, transpose_transpose,
    estimate.eq, noise.eq, Matrix.mul_assoc]

variable [Fintype κ]

theorem Weighs.transposed (weighs : Weighs P H R G) (estimate : P.IsSymm) (noise : R.IsSymm) :
    G * expectedCovariance P H R = P * Hᵀ := by
  have turned := congrArg transpose weighs
  rwa [transpose_mul, transpose_transpose, transpose_mul,
    (expectedCovariance_symm estimate noise).eq, estimate.eq] at turned

variable [DecidableEq ι]

theorem correctedCovariance_expand (N : Matrix ι κ K) :
    correctedCovariance P H R N =
      P - N * (H * P) - P * Hᵀ * Nᵀ + N * expectedCovariance P H R * Nᵀ := by
  rw [correctedCovariance, expectedCovariance, transpose_sub, transpose_one, transpose_mul]
  simp only [Matrix.sub_mul, Matrix.mul_sub, Matrix.add_mul, Matrix.mul_add, Matrix.one_mul,
    Matrix.mul_one, Matrix.mul_assoc]
  abel

/-- Against the gain that weighs, another one loses by its distance from it. -/
theorem Weighs.correctedCovariance_sub (weighs : Weighs P H R G) (estimate : P.IsSymm)
    (noise : R.IsSymm)
    (N : Matrix ι κ K) :
    correctedCovariance P H R N - (P - G * expectedCovariance P H R * Gᵀ) =
      (N - G) * expectedCovariance P H R * (N - G)ᵀ := by
  have left : N * (H * P) = N * (expectedCovariance P H R * Gᵀ) := congrArg (N * ·) weighs.symm
  have right : P * Hᵀ * Nᵀ = G * expectedCovariance P H R * Nᵀ := by
    rw [weighs.transposed estimate noise]
  rw [correctedCovariance_expand, left, right, transpose_sub]
  simp only [Matrix.sub_mul, Matrix.mul_sub, Matrix.mul_assoc]
  abel

theorem Weighs.correctedCovariance_eq (weighs : Weighs P H R G) (estimate : P.IsSymm)
    (noise : R.IsSymm) :
    correctedCovariance P H R G = P - G * expectedCovariance P H R * Gᵀ := by
  have none_lost := weighs.correctedCovariance_sub estimate noise G
  rwa [sub_self, Matrix.zero_mul, Matrix.zero_mul, sub_eq_zero] at none_lost

end Symmetric

theorem quadratic_add {μ : Type} [Fintype μ] {M : Matrix μ μ K} (symmetric : M.IsSymm)
    (a b : μ → K) :
    (a + b) ⬝ᵥ M *ᵥ (a + b) = a ⬝ᵥ M *ᵥ a + 2 * (b ⬝ᵥ M *ᵥ a) + b ⬝ᵥ M *ᵥ b := by
  have turned : a ⬝ᵥ M *ᵥ b = b ⬝ᵥ M *ᵥ a := by
    rw [dotProduct_mulVec, ← mulVec_transpose, symmetric.eq, dotProduct_comm]
  rw [mulVec_add, dotProduct_add, add_dotProduct, add_dotProduct, turned]
  ring

section Definite

variable [LinearOrder K] [StarRing K] [TrivialStar K]

theorem isSymm_of_posSemidef {μ : Type} {M : Matrix μ μ K} (semidefinite : M.PosSemidef) :
    M.IsSymm := by
  rw [IsSymm, ← conjTranspose_eq_transpose_of_trivial]
  exact semidefinite.isHermitian

variable [Fintype κ] [IsStrictOrderedRing K]

theorem expectedCovariance_posDef (estimate : P.PosSemidef) (noise : R.PosDef) :
    (expectedCovariance P H R).PosDef := by
  have seen := estimate.mul_mul_conjTranspose_same H
  rw [conjTranspose_eq_transpose_of_trivial] at seen
  exact PosDef.posSemidef_add seen noise

variable [DecidableEq ι]

theorem correctedCovariance_posDef (estimate : P.PosDef) (noise : R.PosDef) (N : Matrix ι κ K) :
    (correctedCovariance P H R N).PosDef := by
  have kept := estimate.posSemidef.mul_mul_conjTranspose_same (1 - N * H)
  have added := noise.posSemidef.mul_mul_conjTranspose_same N
  rw [correctedCovariance, ← conjTranspose_eq_transpose_of_trivial,
    ← conjTranspose_eq_transpose_of_trivial]
  refine PosDef.of_dotProduct_mulVec_pos (kept.add added).isHermitian fun x nonzero => ?_
  rw [add_mulVec, dotProduct_add]
  -- What the correction hides of the estimate, the noise of the measurement shows.
  by_cases hidden : (1 - N * H)ᴴ *ᵥ x = 0
  · have visible : Nᴴ *ᵥ x ≠ 0 := by
      intro both
      rw [conjTranspose_sub, conjTranspose_one, conjTranspose_mul, sub_mulVec, one_mulVec,
        ← mulVec_mulVec, both, mulVec_zero, sub_zero] at hidden
      exact nonzero hidden
    have positive := noise.dotProduct_mulVec_pos visible
    rw [star_mulVec, conjTranspose_conjTranspose, ← dotProduct_mulVec, mulVec_mulVec, mulVec_mulVec]
      at positive
    exact add_pos_of_nonneg_of_pos (kept.dotProduct_mulVec_nonneg x)
      (by rwa [Matrix.mul_assoc] at positive ⊢)
  · have positive := estimate.dotProduct_mulVec_pos hidden
    rw [star_mulVec, conjTranspose_conjTranspose, ← dotProduct_mulVec, mulVec_mulVec, mulVec_mulVec]
      at positive
    exact add_pos_of_pos_of_nonneg (by rwa [Matrix.mul_assoc] at positive ⊢)
      (added.dotProduct_mulVec_nonneg x)

/-- The gain that weighs leaves the least covariance. -/
theorem Weighs.least (weighs : Weighs P H R G) (estimate : P.PosSemidef) (noise : R.PosDef)
    (N : Matrix ι κ K) :
    (correctedCovariance P H R N - (P - G * expectedCovariance P H R * Gᵀ)).PosSemidef := by
  have loss := (expectedCovariance_posDef
    (H := H) estimate noise).posSemidef.mul_mul_conjTranspose_same (N - G)
  rw [conjTranspose_eq_transpose_of_trivial] at loss
  rwa [weighs.correctedCovariance_sub (isSymm_of_posSemidef estimate)
    (isSymm_of_posSemidef noise.posSemidef)]

/-! ## The best fit -/

/-- How far an estimate is from the one before and from the measurement, each weighed
    by its covariance. -/
noncomputable def misfit [DecidableEq κ] (P : Matrix ι ι K) (H : Matrix κ ι K) (R : Matrix κ κ K)
    (mean : ι → K) (z : κ → K)
    (x : ι → K) : K :=
  (x - mean) ⬝ᵥ P⁻¹ *ᵥ (x - mean) + (z - H *ᵥ x) ⬝ᵥ R⁻¹ *ᵥ (z - H *ᵥ x)

variable [DecidableEq κ]

theorem Weighs.balance (weighs : Weighs P H R G) (estimate : P.PosDef) (noise : R.PosDef)
    (ν : κ → K) :
    ∃ w, P⁻¹ *ᵥ (G *ᵥ ν) = Hᵀ *ᵥ w ∧ R⁻¹ *ᵥ (ν - H *ᵥ (G *ᵥ ν)) = w := by
  have invertible := (expectedCovariance_posDef (H := H) estimate.posSemidef noise).isUnit
  obtain ⟨w, rfl⟩ := (mulVec_surjective_iff_isUnit.mpr invertible) ν
  have gained := weighs.transposed (isSymm_of_posSemidef estimate.posSemidef)
    (isSymm_of_posSemidef noise.posSemidef)
  have corrected : G *ᵥ (expectedCovariance P H R *ᵥ w) = P *ᵥ (Hᵀ *ᵥ w) := by
    rw [mulVec_mulVec, mulVec_mulVec, gained]
  have missed : expectedCovariance P H R *ᵥ w - H *ᵥ (G *ᵥ (expectedCovariance P H R *ᵥ w)) =
      R *ᵥ w := by
    rw [corrected, expectedCovariance, add_mulVec, mulVec_mulVec, mulVec_mulVec, Matrix.mul_assoc,
      add_sub_cancel_left]
  have undo {μ : Type} [Fintype μ] [DecidableEq μ] {M : Matrix μ μ K} (definite : M.PosDef)
    (u : μ → K) :
      M⁻¹ *ᵥ (M *ᵥ u) = u := by
    rw [mulVec_mulVec, nonsing_inv_mul _ ((isUnit_iff_isUnit_det M).mp definite.isUnit), one_mulVec]
  exact ⟨w, by rw [corrected, undo estimate], by rw [missed, undo noise]⟩

/-- No estimate fits better than the corrected one. -/
theorem Weighs.misfit_le (weighs : Weighs P H R G) (estimate : P.PosDef) (noise : R.PosDef)
    (mean : ι → K) (z : κ → K)
    (x : ι → K) : misfit P H R mean z (mean + G *ᵥ (z - H *ᵥ mean)) ≤ misfit P H R mean z x := by
  obtain ⟨w, pulled, pulling⟩ := weighs.balance estimate noise (z - H *ᵥ mean)
  set ν := z - H *ᵥ mean with innovation
  set e := x - (mean + G *ᵥ ν) with deviation
  have moved : x - mean = G *ᵥ ν + e := by
    rw [deviation]
    abel
  have missed : z - H *ᵥ (mean + G *ᵥ ν) = ν - H *ᵥ (G *ᵥ ν) := by
    rw [mulVec_add, innovation]
    abel
  have missing : z - H *ᵥ x = (ν - H *ᵥ (G *ᵥ ν)) + -(H *ᵥ e) := by
    rw [deviation, mulVec_sub H x, mulVec_add, innovation]
    abel
  have across : -(H *ᵥ e) ⬝ᵥ w = -(e ⬝ᵥ Hᵀ *ᵥ w) := by
    rw [neg_dotProduct, dotProduct_mulVec, vecMul_transpose]
  have first := estimate.inv.posSemidef.dotProduct_mulVec_nonneg e
  have second := noise.inv.posSemidef.dotProduct_mulVec_nonneg (-(H *ᵥ e))
  rw [star_trivial] at first second
  rw [misfit, misfit, moved, missing, missed, add_sub_cancel_left,
    quadratic_add (isSymm_of_posSemidef estimate.inv.posSemidef),
    quadratic_add (isSymm_of_posSemidef noise.inv.posSemidef), pulled, pulling, across]
  linarith

end Definite

end PtzAgx
