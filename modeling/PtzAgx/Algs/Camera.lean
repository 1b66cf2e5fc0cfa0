import Mathlib.Analysis.Real.Sqrt
import PtzAgx.Algs.Guide

/-! # What the camera is told about a target

The height of the record that is selected and its distance over ground go through
`radar_read`, which takes both from `y`, and through `setPTZ0`, which is given the
distance as height and the height as distance.
-/

namespace PtzAgx.Algs

variable {K : Type} [Field K] [LinearOrder K]

/-- The command carries the height of the record and its distance over ground. -/
structure PtzMsgid0x03Addr.Reports (addrT : PtzMsgid0x03Addr K)
    (trackPoint : AlinkTrackTrackedItem) : Prop where
  altitude : addrT.targetAltitude = trackPoint.z / 64
  distance : addrT.distance ^ 2 = (trackPoint.x / 64 : K) ^ 2 + (trackPoint.y / 64 : K) ^ 2

/-- What `sqrt` does in exact arithmetic. -/
def ExactRoot (sqrt : K → K) : Prop := ∀ a, 0 ≤ a → 0 ≤ sqrt a ∧ sqrt a ^ 2 = a

section Report

variable [IsStrictOrderedRing K] {sqrt : K → K} {sort : StdSort (radarCompare (K := K))}
  {radarTargets : List AlinkTrackTrackedItem} {gNID : Int} {trackPoint : AlinkTrackTrackedItem}
  {addrT : PtzMsgid0x03Addr K}

theorem ExactRoot.sq (exact : ExactRoot sqrt) (a : K) : sqrt (a ^ 2) = |a| := by
  obtain ⟨nonneg, root⟩ := exact (a ^ 2) (sq_nonneg a)
  rw [← abs_of_nonneg nonneg]
  exact (sq_eq_sq_iff_abs_eq_abs _ _).mp root

omit [IsStrictOrderedRing K] in
/-- The height sent is the distance over ground, and the distance sent is `y`. -/
theorem addrOf_radarObjOf (sqrt : K → K) (trackPoint : AlinkTrackTrackedItem) :
    (addrOf sqrt (radarObjOf trackPoint)).targetAltitude =
        sqrt ((trackPoint.x / 64 : K) ^ 2 + (trackPoint.y / 64 : K) ^ 2) ∧
      (addrOf sqrt (radarObjOf trackPoint : RadarObj K)).distance = trackPoint.y / 64 := by
  have scaled (n : Int) : (n : K) * gDScale = n / 64 := by rw [gDScale, mul_one_div]
  simp only [addrOf, radarObjOf, scaled, ← pow_two, and_self]

theorem scaled_eq_iff (m n : Int) : (m / 64 : K) = n / 64 ↔ m = n := by
  rw [div_left_inj' (by norm_num), Int.cast_inj]

theorem addrOf_reports_iff (exact : ExactRoot sqrt) (trackPoint : AlinkTrackTrackedItem) :
    (addrOf sqrt (radarObjOf trackPoint)).Reports trackPoint ↔ trackPoint.x = 0 ∧
      trackPoint.z = |trackPoint.y| := by
  obtain ⟨altitude, distance⟩ := addrOf_radarObjOf sqrt trackPoint
  have abs_scaled : |(trackPoint.y / 64 : K)| = ((|trackPoint.y| : ℤ) : K) / 64 := by
    rw [abs_div, Int.cast_abs, abs_of_pos (by norm_num : (0 : K) < 64)]
  have over_ground (straight : trackPoint.x = 0) :
      sqrt ((trackPoint.x / 64 : K) ^ 2 + (trackPoint.y / 64 : K) ^ 2) =
      ((|trackPoint.y| : ℤ) : K) / 64 := by
    rw [straight, Int.cast_zero, zero_div, zero_pow two_ne_zero, zero_add, exact.sq, abs_scaled]
  constructor
  · rintro ⟨height, length⟩
    rw [distance, right_eq_add, pow_eq_zero_iff two_ne_zero, div_eq_zero_iff, Int.cast_eq_zero]
      at length
    have straight : trackPoint.x = 0 := length.resolve_right (by norm_num)
    rw [altitude, over_ground straight, scaled_eq_iff] at height
    exact ⟨straight, height.symm⟩
  · rintro ⟨straight, height⟩
    constructor
    · rw [altitude, over_ground straight, height]
    · rw [distance, straight, Int.cast_zero, zero_div, zero_pow two_ne_zero, zero_add]

omit [IsStrictOrderedRing K] in
/-- The one address command of a report is the one for the object selected. -/
theorem addr_sent {ptzId : Int}
    (sent : .addr addrT ∈ (radarGuide sort sqrt radarTargets ptzId gNID).1) :
    addrT = addrOf sqrt
      (radar2ptz sort (radarRead radarTargets []).2 RadarObj.zero ptzId gNID).2.1 := by
  obtain ⟨⟨ret, selected, gNID'⟩, guided⟩ :
      ∃ result, radar2ptz sort (radarRead radarTargets []).2 RadarObj.zero ptzId gNID = result :=
        ⟨_, rfl⟩
  rw [guided]
  by_cases found : ret > 0
  · rw [radarGuide_sends sqrt guided found] at sent
    simpa using sent
  · have read : ¬ (radarRead (K := K) radarTargets []).1 < 0 := Int.lt_irrefl 0
    unfold radarGuide at sent
    simp only [read, if_false, guided, found] at sent
    cases sent

end Report

/-- For whichever record was selected, whatever the others are: the command reports
    it exactly when it lies straight ahead and as high as it is far. -/
theorem radarGuide_reports_iff [IsStrictOrderedRing K] (sort : StdSort (radarCompare (K := K)))
    (sqrt : K → K)
    (exact : ExactRoot sqrt) (radarTargets : List AlinkTrackTrackedItem) (gNID : Int)
    (trackPoint : AlinkTrackTrackedItem) (addrT : PtzMsgid0x03Addr K)
    (selects : (radar2ptz sort (radarRead radarTargets []).2 RadarObj.zero (-1) gNID).2.1 =
      radarObjOf trackPoint)
    (sent : .addr addrT ∈ (radarGuide sort sqrt radarTargets (-1) gNID).1) :
    addrT.Reports trackPoint ↔ trackPoint.x = 0 ∧ trackPoint.z = |trackPoint.y| := by
  rw [addr_sent sent, selects]
  exact addrOf_reports_iff exact trackPoint

theorem exactRoot_sqrt : ExactRoot Real.sqrt :=
  fun _ nonneg => ⟨Real.sqrt_nonneg _, Real.sq_sqrt nonneg⟩

/-- The command for one target, which lies at (1, 2, 3). -/
noncomputable def addrOfTarget : PtzMsgid0x03Addr ℝ := addrOf Real.sqrt (radarObjOf (targetAt 0))

theorem targetAt_sent :
    .addr addrOfTarget ∈ (radarGuide (StdSort.byKey RadarObj.threatLevel) Real.sqrt [targetAt 0]
      (-1) 7).1 := by
  have guided : radar2ptz (StdSort.byKey RadarObj.threatLevel)
    (radarRead [targetAt 0] []).2 RadarObj.zero (-1) 7 =
      (1, (radarObjOf (targetAt 0) : RadarObj ℝ), -1) := rfl
  rw [radarGuide_sends Real.sqrt guided (by decide)]
  exact List.mem_cons_of_mem _ List.mem_cons_self

theorem radarGuide_reports_iff_target :
    addrOfTarget.Reports (targetAt 0) ↔ (targetAt 0).x = 0 ∧ (targetAt 0).z = |(targetAt 0).y| :=
  radarGuide_reports_iff (StdSort.byKey RadarObj.threatLevel) Real.sqrt exactRoot_sqrt
    [targetAt 0] 7 (targetAt 0)
    addrOfTarget rfl targetAt_sent

/-- A target at (1, 2, 3) is reported at the height of the root of 5 and at the distance 2. -/
theorem radarGuide_misreports :
    ¬ ∀ (sort : StdSort (radarCompare (K := ℝ))) (sqrt : ℝ → ℝ), ExactRoot sqrt →
      ∀ (radarTargets : List AlinkTrackTrackedItem) (gNID : Int)
      (trackPoint : AlinkTrackTrackedItem)
        (addrT : PtzMsgid0x03Addr ℝ), trackPoint ∈ radarTargets →
        (radar2ptz sort (radarRead radarTargets []).2 RadarObj.zero (-1) gNID).2.1 =
        radarObjOf trackPoint →
        .addr addrT ∈ (radarGuide sort sqrt radarTargets (-1) gNID).1 →
        addrT.Reports trackPoint := by
  intro reports
  have one := reports (StdSort.byKey RadarObj.threatLevel) Real.sqrt exactRoot_sqrt [targetAt 0] 7
    (targetAt 0) addrOfTarget
    List.mem_cons_self rfl targetAt_sent
  exact absurd ((addrOf_reports_iff exactRoot_sqrt (targetAt 0)).mp one).1 (by decide)

end PtzAgx.Algs
