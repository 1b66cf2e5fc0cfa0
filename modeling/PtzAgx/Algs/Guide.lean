import Mathlib.Algebra.Order.Field.Basic
import Mathlib.Tactic.Linarith
import PtzAgx.Lib.Sort

/-! # Guiding the camera to a radar target

The radar half of `guide.cpp`, and `setPTZ0` and `radarGuide` of `ai_main.cpp`.
A report is the list of the records that are read. Arithmetic is exact, in any
ordered field `K` with whatever `sqrt` does. The diagnostics, the zoom that is
computed and not used, and the pause at the end are left out.
-/

namespace PtzAgx.Algs

/-- The fields of `alink_track_tracked_item_t` that are read. -/
structure AlinkTrackTrackedItem where
  id : Int
  stateType : Int
  azimuth : Int
  range : Nat
  elevation : Int
  alive : Int
  x : Int
  y : Int
  z : Int
  threatLevel : Int
  deriving Repr, DecidableEq

structure RadarObj (K : Type) where
  id : Int
  alive : Int
  stateType : Int
  threatLevel : Int
  azimuth : K
  elevation : K
  range : Nat
  x : K
  y : K
  z : K
  deriving Repr, DecidableEq

/-- The fields of `ptz_msgid_0x03_addr_t` that are set before it is sent. -/
structure PtzMsgid0x03Addr (K : Type) where
  guidanceMode : Nat
  horizatalAngle : K
  pitchAngle : K
  targetMotionDirection : Nat
  targetAltitude : K
  distance : K
  deriving Repr, DecidableEq

/-- What is sent to the PTZ device. -/
inductive PtzCommand (K : Type) where
  | track (ctrlCmd : Nat)
  | addr (addrT : PtzMsgid0x03Addr K)
  deriving Repr, DecidableEq

def ptzAddrGuidanceModeAngle : Nat := 0

variable {K : Type} [Field K]

/-! ## `guide.cpp` -/

/-- `RadarObj`, default constructed. -/
def RadarObj.zero : RadarObj K := ⟨0, 0, 0, 0, 0, 0, 0, 0, 0, 0⟩

def radarCompare (a b : RadarObj K) : Bool := decide (a.threatLevel < b.threatLevel)

def gDScale : K := 1 / 64

/-- One round of the loop of `radar_read`. -/
def radarObjOf (trackPoint : AlinkTrackTrackedItem) : RadarObj K where
  id := trackPoint.id
  alive := trackPoint.alive
  stateType := trackPoint.stateType
  threatLevel := trackPoint.threatLevel
  azimuth := trackPoint.azimuth * gDScale
  elevation := trackPoint.elevation * gDScale
  -- An `uint32_t` takes the product without its fraction.
  range := trackPoint.range / 64
  x := trackPoint.x * gDScale
  y := trackPoint.y * gDScale
  z := trackPoint.y * gDScale

def radarRead (trackPoints : List AlinkTrackTrackedItem) (objList : List (RadarObj K)) :
    Int × List (RadarObj K) :=
  (0, objList ++ trackPoints.map radarObjOf)

def RadarObj.useful (obj : RadarObj K) : Bool := obj.stateType == 1 && decide (10 ≤ obj.alive)

/-- The return value, the object to guide to and the new `g_nID`. -/
def radar2ptz (sort : StdSort (radarCompare (K := K))) (objPtr : List (RadarObj K))
    (objToPtz : RadarObj K)
    (ptzId gNID : Int) : Int × RadarObj K × Int :=
  match objPtr.filter RadarObj.useful with
  | [] => (0, objToPtz, -1)
  | [only] => (1, only, if only.id ≠ ptzId then -1 else gNID)
  | usefulObj =>
      let usefulObj := sort.run usefulObj
      let objToPtz :=
        -- Of several objects with the id the last one stays.
        if ptzId > -1 then usefulObj.foldl
          (fun obj it => if ptzId = it.id then it else obj) objToPtz
        else usefulObj.headD objToPtz
      (2, objToPtz, if objToPtz.id ≠ ptzId then -1 else gNID)

/-! ## `ai_main.cpp` -/

def setPTZ0 (ablHor ablVer verticalHeight horizontalDistance : K) : List (PtzCommand K) :=
  [.addr
    { guidanceMode := ptzAddrGuidanceModeAngle
      horizatalAngle := ablHor
      pitchAngle := ablVer
      targetMotionDirection := 0
      targetAltitude := verticalHeight
      distance := horizontalDistance }]

def stoppingTracking : List (PtzCommand K) := [.track 3]

section Order

variable [LinearOrder K]

/-- The commands sent for one report, and the new `g_nID`. -/
def radarGuide (sort : StdSort (radarCompare (K := K))) (sqrt : K → K)
    (radarTargets : List AlinkTrackTrackedItem)
    (ptzId gNID : Int) : List (PtzCommand K) × Int :=
  let (ret, objList) := radarRead radarTargets []
  if ret < 0 then ([], gNID)
  else
    let (ret, objToPtz, gNID) := radar2ptz sort objList RadarObj.zero ptzId gNID
    if ret > 0 then
      let horAngle := if objToPtz.azimuth < 0 then 360 + objToPtz.azimuth else 0
      (stoppingTracking ++
        setPTZ0 horAngle objToPtz.elevation
        (sqrt (objToPtz.x * objToPtz.x + objToPtz.y * objToPtz.y)) objToPtz.z, gNID)
    else ([], gNID)

end Order


/-! ## What is selected -/

section Selected

variable {sort : StdSort (radarCompare (K := K))} {objPtr : List (RadarObj K)}
  {objToPtz selected : RadarObj K}
  {ret gNID gNID' : Int}

omit [Field K] in
theorem radar2ptz_selects
    (guided : radar2ptz sort objPtr objToPtz (-1) gNID = (ret, selected, gNID'))
    (some_target : ret > 0) : selected ∈ objPtr ∧ selected.useful = true := by
  rw [← List.mem_filter]
  unfold radar2ptz at guided
  match found : objPtr.filter RadarObj.useful, guided with
  | [], guided =>
      cases guided
      exact absurd some_target (by decide)
  | [only], guided =>
      cases guided
      exact List.mem_singleton_self selected
  | first :: second :: rest, guided =>
      cases guided
      exact sort.headD_mem objToPtz (List.cons_ne_nil first _)

theorem radarRead_mem {trackPoints : List AlinkTrackTrackedItem} {obj : RadarObj K}
    (member : obj ∈ (radarRead trackPoints []).2) :
    ∃ trackPoint ∈ trackPoints, radarObjOf trackPoint = obj :=
  List.mem_map.mp member

end Selected

/-! ## Where the camera looks -/

section Direction

variable [LinearOrder K]

/-- The command points at this azimuth, in one turn, and at this elevation. -/
def PointsAt (azimuth elevation : K) (addrT : PtzMsgid0x03Addr K) : Prop :=
  (0 ≤ addrT.horizatalAngle ∧ addrT.horizatalAngle < 360 ∧ ∃ turns : ℤ,
    addrT.horizatalAngle = azimuth + 360 * turns) ∧
    addrT.pitchAngle = elevation

/-- The address command for an object. -/
def addrOf (sqrt : K → K) (obj : RadarObj K) : PtzMsgid0x03Addr K where
  guidanceMode := ptzAddrGuidanceModeAngle
  horizatalAngle := if obj.azimuth < 0 then 360 + obj.azimuth else 0
  pitchAngle := obj.elevation
  targetMotionDirection := 0
  targetAltitude := sqrt (obj.x * obj.x + obj.y * obj.y)
  distance := obj.z

theorem radarGuide_sends {sort : StdSort (radarCompare (K := K))} {selected : RadarObj K}
    {ret ptzId gNID gNID' : Int}
    (sqrt : K → K) {radarTargets : List AlinkTrackTrackedItem}
    (guided : radar2ptz sort (radarRead radarTargets []).2 RadarObj.zero ptzId gNID =
      (ret, selected, gNID'))
    (some_target : ret > 0) :
    radarGuide sort sqrt radarTargets ptzId gNID =
      ([.track 3, .addr (addrOf sqrt selected)], gNID') := by
  have read : ¬ (radarRead (K := K) radarTargets []).1 < 0 := Int.lt_irrefl 0
  unfold radarGuide
  simp only [read, if_false, guided, some_target, if_true]
  rfl

variable [IsStrictOrderedRing K]

/-- No number of turns leads from a direction inside the first turn to north. -/
theorem turns_ne_zero {azimuth : K} (east : 0 < azimuth) (turn : azimuth < 360) (turns : ℤ) :
    0 ≠ azimuth + 360 * turns := by
  intro same
  rcases Int.lt_or_le turns 0 with negative | positive
  · have bound : (turns : K) ≤ -1 := by exact_mod_cast Int.le_sub_one_of_lt negative
    linarith
  · have bound : (0 : K) ≤ turns := by exact_mod_cast positive
    linarith

theorem addrOf_points_iff (sqrt : K → K) {obj : RadarObj K} (low : -360 ≤ obj.azimuth)
    (high : obj.azimuth < 360) :
    PointsAt obj.azimuth obj.elevation (addrOf sqrt obj) ↔ obj.azimuth ≤ 0 := by
  constructor
  · rintro ⟨⟨-, -, turns, same⟩, -⟩
    by_contra east
    rw [not_le] at east
    simp only [addrOf, not_lt.mpr east.le, if_false] at same
    exact turns_ne_zero east high turns same
  · intro west
    rcases west.lt_or_eq with negative | north
    · refine ⟨⟨?_, ?_, 1, ?_⟩, rfl⟩ <;> simp only [addrOf, negative, if_true, Int.cast_one]
        <;> linarith
    · refine ⟨⟨?_, ?_, 0, ?_⟩, rfl⟩ <;> simp [addrOf, north]

/-- The command sent for a selected record points at it exactly when the record
    does not lie to the right of straight ahead. -/
theorem radarGuide_points_iff (sort : StdSort (radarCompare (K := K))) (sqrt : K → K)
    (radarTargets : List AlinkTrackTrackedItem) (gNID : Int) {ret gNID' : Int}
    {selected : RadarObj K}
    (guided : radar2ptz sort (radarRead radarTargets []).2 RadarObj.zero (-1) gNID =
      (ret, selected, gNID'))
    (some_target : ret > 0) (low : -360 ≤ selected.azimuth) (high : selected.azimuth < 360) :
    ∃ trackPoint ∈ radarTargets, radarObjOf trackPoint = selected ∧
      ∃ addrT, (radarGuide sort sqrt radarTargets (-1) gNID).1 = [.track 3, .addr addrT] ∧
        (PointsAt (trackPoint.azimuth / 64 : K) (trackPoint.elevation / 64) addrT ↔
          (trackPoint.azimuth : K) / 64 ≤ 0) := by
  obtain ⟨trackPoint, listed, same⟩ := radarRead_mem (radar2ptz_selects guided some_target).1
  refine ⟨trackPoint, listed, same, addrOf sqrt selected, ?_, ?_⟩
  · rw [radarGuide_sends sqrt guided some_target]
  · have azimuth : selected.azimuth = trackPoint.azimuth / 64 := by
      rw [← same, div_eq_mul_one_div]
      rfl
    have elevation : selected.elevation = trackPoint.elevation / 64 := by
      rw [← same, div_eq_mul_one_div]
      rfl
    rw [← azimuth, ← elevation]
    exact addrOf_points_iff sqrt low high

end Direction

/-- One target at this azimuth, in units of 1/64 degree. -/
def targetAt (azimuth : Int) : AlinkTrackTrackedItem :=
  { id := 7, stateType := 1, azimuth, range := 6400, elevation := 640, alive := 10, x := 64,
    y := 128, z := 192, threatLevel := 1 }

theorem radarGuide_points_iff_west :
    ∃ trackPoint ∈ [targetAt (-5760)],
      radarObjOf trackPoint = (radarObjOf (targetAt (-5760)) : RadarObj ℚ) ∧
      ∃ addrT, (radarGuide (StdSort.byKey RadarObj.threatLevel) id [targetAt (-5760)] (-1) 7).1 =
      [.track 3, .addr addrT] ∧
        (PointsAt (trackPoint.azimuth / 64 : ℚ) (trackPoint.elevation / 64) addrT ↔
          (trackPoint.azimuth : ℚ) / 64 ≤ 0) :=
  radarGuide_points_iff (StdSort.byKey RadarObj.threatLevel) id [targetAt (-5760)] 7 rfl
    (by decide : (1 : Int) > 0)
    (by norm_num [radarObjOf, targetAt, gDScale]) (by norm_num [radarObjOf, targetAt, gDScale])

/-- A target straight to the east sends the camera to the north. -/
theorem radarGuide_points_away :
    ¬ ∀ (sort : StdSort (radarCompare (K := ℚ))) (sqrt : ℚ → ℚ)
      (radarTargets : List AlinkTrackTrackedItem)
      (gNID ret gNID' : Int) (selected : RadarObj ℚ),
      radar2ptz sort (radarRead radarTargets []).2 RadarObj.zero (-1) gNID = (ret, selected,
        gNID') → ret > 0 →
        -360 ≤ selected.azimuth → selected.azimuth < 360 →
          ∀ addrT, .addr addrT ∈ (radarGuide sort sqrt radarTargets (-1) gNID).1 →
            PointsAt selected.azimuth selected.elevation addrT := by
  intro points
  let selected : RadarObj ℚ := radarObjOf (targetAt 5760)
  have guided : radar2ptz (StdSort.byKey RadarObj.threatLevel)
    (radarRead [targetAt 5760] []).2 RadarObj.zero (-1) 7 =
      (1, selected, -1) := rfl
  have low : -360 ≤ selected.azimuth := by norm_num [selected, radarObjOf, targetAt, gDScale]
  have high : selected.azimuth < 360 := by norm_num [selected, radarObjOf, targetAt, gDScale]
  have east : 0 < selected.azimuth := by norm_num [selected, radarObjOf, targetAt, gDScale]
  have sent : .addr (addrOf id selected) ∈
      (radarGuide (StdSort.byKey RadarObj.threatLevel) id [targetAt 5760] (-1) 7).1 := by
    rw [radarGuide_sends id guided (by decide)]
    simp
  have towards := points _ id [targetAt 5760] 7 1 (-1) selected guided (by decide) low high _ sent
  exact absurd ((addrOf_points_iff id low high).mp towards) (not_le.mpr east)

end PtzAgx.Algs
