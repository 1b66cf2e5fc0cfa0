import PtzAgx.Algs.Items
import PtzAgx.Lib.Sphere

/-! # Guiding the camera to a drone that tells where it is

`tf.cpp`, `tracer_2ptz` of `guide.cpp` and the guides of `ai_main.cpp` for remote id
and drone id. Arithmetic is exact in a field `K`, with whatever the C library does;
over the reals that is what its functions are for. The zoom that is computed and not
used, and the diagnostics, are left out.
-/

namespace PtzAgx.Algs

open Alink Bytes Words

/-- What is called of the C library, and its `CV_PI`. Which `abs` it is that `tf.cpp`
    calls, that of `double` or that of `int`, depends on other headers. -/
structure Libm (K : Type) where
  pi : K
  sin : K → K
  cos : K → K
  sqrt : K → K
  atan2 : K → K → K
  abs : K → K

/-- `res` of `calibPTZ`. -/
structure Calibrated (K : Type) where
  x : K
  y : K
  z : K
  a : K
  e : K
  range : K
  deriving Repr, DecidableEq

variable {K : Type} [Field K]

/-! ## `tf.cpp` -/

def earthRadius : K := 6378137.0

namespace Libm

variable (m : Libm K)

def degree2radian (degree : K) : K := degree * m.pi / 180.0

def radian2degree (radian : K) : K := radian * 180.0 / m.pi

def distanceBetween (startLatitude startLongitude endLatitude endLongitude : K) : K :=
  let dLat := m.degree2radian (endLatitude - startLatitude)
  let dLon := m.degree2radian (endLongitude - startLongitude)
  let a := m.sin (dLat / 2.0) ^ 2 +
    m.sin (dLon / 2.0) ^ 2 * m.cos (m.degree2radian startLatitude) * m.cos
    (m.degree2radian endLatitude)
  let c := 2.0 * m.atan2 (m.sqrt a) (m.sqrt (1 - a))
  earthRadius * c

def bearingBetween (startLatitude startLongitude endLatitude endLongitude : K) : K :=
  let startLongitudeRadian := m.degree2radian startLongitude
  let endLongitudeRadian := m.degree2radian endLongitude
  let startLatitudeRadian := m.degree2radian startLatitude
  let endLatitudeRadian := m.degree2radian endLatitude
  let y := m.sin (endLongitudeRadian - startLongitudeRadian) * m.cos endLatitudeRadian
  let x := m.cos startLatitudeRadian * m.sin endLatitudeRadian -
    m.sin startLatitudeRadian * m.cos endLatitudeRadian * m.cos
    (endLongitudeRadian - startLongitudeRadian)
  m.radian2degree (m.atan2 y x)

section Order

variable [LinearOrder K]

/-- What is nearly on an axis is put there. -/
def snap (x : K) : K := if m.abs x < 0.01 then 0 else x

/-- `calculateCoordinate`, `out` and `angle` of which are in `res` afterwards. -/
def calibPTZ (startLat startLng endLat endLng high : K) : Calibrated K :=
  let distance := m.distanceBetween startLat startLng endLat endLng
  let bearing := m.bearingBetween startLat startLng endLat endLng
  let x := m.snap (distance * m.cos (m.degree2radian bearing))
  let y := m.snap (distance * m.sin (m.degree2radian bearing))
  { x
    y
    z := high
    a := m.radian2degree (m.atan2 y x)
    e := m.radian2degree (m.atan2 high (m.sqrt (x * x + y * y)))
    range := m.sqrt (x * x + y * y + high * high) }

end Order

end Libm

/-! ## `guide.cpp` and `ai_main.cpp` -/

/-- `TracerObj`, before anything is assigned to it. -/
def TracerObj.zero : TracerObj K := ⟨0, [], 0, 0, 0, 0, 0, 0, 0⟩

/-- Of several objects, too, it is the first. Sorting them is commented out. -/
def tracer2ptz (objPtr : List (TracerObj K)) (objToPtz : TracerObj K) : Int × TracerObj K :=
  match objPtr with
  | [] => (0, objToPtz)
  | [only] => (1, only)
  | first :: _ => (2, first)

/-- Where the camera stands, and where it looks when it is told zero. -/
structure Mount (K : Type) where
  startLat : K
  startLng : K
  azimuth : K
  elevation : K

section Guides

variable [LinearOrder K] (m : Libm K)

/-- What the guides do with the objects they have read. -/
def tracerGuide (mount : Mount K) (objList : List (TracerObj K)) : List (PtzCommand K) :=
  let (ret, objToPtz) := tracer2ptz objList TracerObj.zero
  if ret > 0 then
    let res := m.calibPTZ mount.startLat mount.startLng objToPtz.droneLatitude
      objToPtz.droneLongitude objToPtz.droneHeight
    setPTZ0 (res.a + mount.azimuth) (res.e - mount.elevation) objToPtz.droneHeight res.range
  else []

def mountR : Mount K := ⟨22.596960, 113.998050, 97.86, -0.16⟩

def mountD : Mount K := ⟨22.596960, 113.998050, 97.86, 0.16⟩

/-- No result if the reader leaves the memory of the package. -/
def tracerGuideR (tracerTargets : TrackInfoPackages) : Option (List (PtzCommand K)) :=
  (tracerRRead tracerTargets.trackInfo []).map fun (ret, objList) =>
    if ret < 0 then [] else tracerGuide m mountR objList

def tracerGuideD (tracerTargets : TrackInfoPackages) : Option (List (PtzCommand K)) :=
  (tracerDRead m.pi tracerTargets.trackInfo []).map fun (ret, objList) =>
    if ret < 0 then [] else tracerGuide m mountD objList

end Guides

/-! ## Where the camera looks -/

open Real

noncomputable section

/-- What the functions are for, with either `abs`. -/
def Libm.real (abs : ℝ → ℝ) : Libm ℝ where
  pi := π
  sin := Real.sin
  cos := Real.cos
  sqrt := Real.sqrt
  atan2 := PtzAgx.atan2
  abs

def radians (degree : ℝ) : ℝ := degree * π / 180.0

theorem radians_eq (degree : ℝ) : radians degree = degree * π / 180 := by
  have degrees : (180.0 : ℝ) = 180 := by norm_num
  rw [radians, degrees]

/-- Up to what `snap` does. -/
def Snapped (abs : ℝ → ℝ) (exact snapped : ℝ) : Prop :=
  snapped = exact ∨ snapped = 0 ∧ abs exact < 0.01

/-- `(x, y)` is where a place is on a map around the start, in metres. -/
def Mapped (abs : ℝ → ℝ) (φ l φ' l' x y : ℝ) : Prop :=
  ∃ x' y', Drawn φ l φ' l' x' y' ∧ Snapped abs (earthRadius * x') x ∧
    Snapped abs (earthRadius * y') y

section Real

variable (abs : ℝ → ℝ)

@[simp] theorem Libm.real_sin : (Libm.real abs).sin = Real.sin := rfl
@[simp] theorem Libm.real_cos : (Libm.real abs).cos = Real.cos := rfl
@[simp] theorem Libm.real_sqrt : (Libm.real abs).sqrt = Real.sqrt := rfl
@[simp] theorem Libm.real_atan2 : (Libm.real abs).atan2 = PtzAgx.atan2 := rfl

@[simp] theorem degree2radian_real (degree : ℝ) :
    (Libm.real abs).degree2radian degree = radians degree := rfl

theorem radian2degree_real (radian : ℝ) :
    (Libm.real abs).radian2degree radian = radian * 180 / π := by
  have degrees : (180.0 : ℝ) = 180 := by norm_num
  rw [Libm.radian2degree, degrees]
  rfl

@[simp] theorem radians_radian2degree (radian : ℝ) :
    radians ((Libm.real abs).radian2degree radian) = radian := by
  have := pi_ne_zero
  rw [radians_eq, radian2degree_real]
  field_simp

theorem radians_sub (a b : ℝ) : radians (a - b) = radians a - radians b := by
  rw [radians_eq, radians_eq, radians_eq]
  ring

theorem distanceBetween_real (φ l φ' l' : ℝ) : (Libm.real abs).distanceBetween φ l φ' l' =
    earthRadius * arc (place (radians φ) (radians l)) (place (radians φ') (radians l')) := by
  rw [← two_mul_atan2_haversine, haversine]
  simp only [Libm.distanceBetween, degree2radian_real, radians_sub]
  norm_num [Libm.real]

theorem bearingBetween_real (φ l φ' l' : ℝ) : radians ((Libm.real abs).bearingBetween φ l φ' l') =
    PtzAgx.atan2 ((east (radians l)).dot (place (radians φ') (radians l')))
      ((north (radians φ) (radians l)).dot (place (radians φ') (radians l'))) := by
  rw [north_dot_place, east_dot_place]
  simp only [Libm.bearingBetween, degree2radian_real, radians_radian2degree]
  rfl

theorem snap_snapped (x : ℝ) : Snapped abs x ((Libm.real abs).snap x) := by
  unfold Libm.snap
  split
  · next small => exact .inr ⟨rfl, small⟩
  · exact .inl rfl

theorem calibPTZ_mapped (startLat startLng endLat endLng high : ℝ) :
    let res := (Libm.real abs).calibPTZ startLat startLng endLat endLng high
    Mapped abs (radians startLat) (radians startLng) (radians endLat)
    (radians endLng) res.x res.y := by
  refine ⟨_, _, drawn_atan2 _ _ _ _, ?_, ?_⟩
  · simpa [Libm.calibPTZ, ← mul_assoc, ← bearingBetween_real abs, ← distanceBetween_real abs]
      using snap_snapped abs _
  · simpa [Libm.calibPTZ, ← mul_assoc, ← bearingBetween_real abs, ← distanceBetween_real abs]
      using snap_snapped abs _

theorem calibPTZ_polar (startLat startLng endLat endLng high : ℝ) :
    let res := (Libm.real abs).calibPTZ startLat startLng endLat endLng high
    polar (radians res.a) (radians res.e) res.range = ⟨res.x, res.y, high⟩ := by
  simp only [Libm.calibPTZ, radians_radian2degree, Libm.real_atan2, Libm.real_sqrt, ← pow_two]
  exact polar_atan2 _ _ high

theorem radian2degree_atan2_mem (y x : ℝ) :
    (Libm.real abs).radian2degree (PtzAgx.atan2 y x) ∈ Set.Ioc (-180) 180 := by
  obtain ⟨low, high⟩ := atan2_mem y x
  rw [radian2degree_real, Set.mem_Ioc, lt_div_iff₀ pi_pos, div_le_iff₀ pi_pos]
  constructor <;> linarith

theorem abs_radian2degree_atan2_le (y : ℝ) {x : ℝ} (right : 0 ≤ x) :
    |(Libm.real abs).radian2degree (PtzAgx.atan2 y x)| ≤ 90 := by
  have upright := abs_atan2_le y right
  rw [radian2degree_real, abs_div, abs_mul, abs_of_pos pi_pos, div_le_iff₀ pi_pos]
  norm_num
  linarith

end Real

/-- These are the coordinates of one point, and it is where the place is seen that is so
    high. -/
structure Calibrated.Sees (abs : ℝ → ℝ) (φ l φ' l' high : ℝ) (res : Calibrated ℝ) : Prop where
  mapped : Mapped abs φ l φ' l' res.x res.y
  high : res.z = high
  polar : PtzAgx.polar (radians res.a) (radians res.e) res.range = ⟨res.x, res.y, res.z⟩
  azimuth : res.a ∈ Set.Ioc (-180) 180
  elevation : |res.e| ≤ 90

/-- Wherever the drone is, what is computed for it is where it is: as far from the camera
    as along the great circle, in the direction it has there, and as high as it is. -/
theorem calibPTZ_sees (abs : ℝ → ℝ) (startLat startLng endLat endLng high : ℝ) :
    Calibrated.Sees abs (radians startLat) (radians startLng) (radians endLat) (radians endLng) high
      ((Libm.real abs).calibPTZ startLat startLng endLat endLng high) where
  mapped := calibPTZ_mapped abs _ _ _ _ high
  high := rfl
  polar := calibPTZ_polar abs _ _ _ _ high
  azimuth := radian2degree_atan2_mem abs _ _
  elevation := abs_radian2degree_atan2_le abs high (sqrt_nonneg _)

/-- The camera, mounted like this, is sent to look at the drone that is at this latitude
    and longitude, in radians, and so high. -/
structure LooksAt (abs : ℝ → ℝ) (mount : Mount ℝ) (φ l high : ℝ) (addrT : PtzMsgid0x03Addr ℝ) :
    Prop where
  guided : addrT.guidanceMode = ptzAddrGuidanceModeAngle
  altitude : addrT.targetAltitude = high
  towards : ∃ x y, Mapped abs (radians mount.startLat) (radians mount.startLng) φ l x y ∧
    polar (radians (addrT.horizatalAngle - mount.azimuth))
    (radians (addrT.pitchAngle + mount.elevation)) addrT.distance =
      ⟨x, y, high⟩
  turn : addrT.horizatalAngle - mount.azimuth ∈ Set.Ioc (-180) 180

section Guides

variable (abs : ℝ → ℝ) {mount : Mount ℝ} {obj : TracerObj ℝ} {objList : List (TracerObj ℝ)}

theorem tracerGuide_looksAt (mount : Mount ℝ) (obj : TracerObj ℝ) (objList : List (TracerObj ℝ)) :
    ∃ addrT, tracerGuide (Libm.real abs) mount (obj :: objList) = [.addr addrT] ∧
      LooksAt abs mount (radians obj.droneLatitude) (radians obj.droneLongitude)
        obj.droneHeight addrT := by
  have first : ∃ ret > 0, tracer2ptz (obj :: objList) TracerObj.zero = (ret, obj) := by
    cases objList with
    | nil => exact ⟨1, by simp, rfl⟩
    | cons => exact ⟨2, by simp, rfl⟩
  obtain ⟨ret, found, first⟩ := first
  simp only [tracerGuide, first, found, if_true, setPTZ0]
  refine ⟨_, rfl, rfl, rfl, ⟨_, _, calibPTZ_mapped abs _ _ _ _ obj.droneHeight, ?_⟩, ?_⟩
  · simpa using calibPTZ_polar abs mount.startLat mount.startLng obj.droneLatitude
      obj.droneLongitude obj.droneHeight
  · rw [add_sub_cancel_right]
    exact radian2degree_atan2_mem abs _ _

theorem radians_divided (z : ℝ) : radians (z / (10 ^ 7 * π) * 180) = z / 10 ^ 7 := by
  have := pi_ne_zero
  rw [radians_eq]
  field_simp

end Guides

/-! ## The first drone of a record -/

/-- From item `i` on. -/
def droneItemAt (record : List UInt8) (i : Nat) : List UInt8 :=
  record.drop (alinkDroneIdTrack.first + i * alinkDroneIdTrack.size)

/-- A record with so many items, all of which are there, and all of whose names end. -/
structure HoldsItems (record : List UInt8) (num : Nat) : Prop where
  counted : (record[alinkDroneIdTrack.count]?).map UInt8.toNat = some num
  whole : ∀ i < num, alinkDroneIdItemsSize ≤ (droneItemAt record i).length
  named : ∀ i < num, 0 ∈ (droneItemAt record i).drop 1

/-- What of an item says where its drone is. -/
def latitudeAt (items : List UInt8) : Int := intAt 4 (Ptr.ofList items) 62

def longitudeAt (items : List UInt8) : Int := intAt 4 (Ptr.ofList items) 58

def heightAt (items : List UInt8) : Int := intAt 2 (Ptr.ofList items) 66

section First

variable {record : List UInt8} {num : Nat}

theorem HoldsItems.droneItems (holds : HoldsItems record num) : (droneItems record).isSome := by
  obtain ⟨count, counted, same⟩ := Option.map_eq_some_iff.mp holds.counted
  refine Counted.Layout.readItems_isSome counted fun i small => ?_
  rw [same] at small
  exact alinkDroneIdItemIn_isSome (holds.whole i small) (holds.named i small)

theorem tracerRead_first (holds : HoldsItems record num) (some_item : 0 < num) (angle : Int → ℝ) :
    ∃ obj objList, tracerRead angle record [] = some (0, obj :: objList) ∧
      obj.droneLatitude = angle (latitudeAt (droneItemAt record 0)) ∧
      obj.droneLongitude = angle (longitudeAt (droneItemAt record 0)) ∧
      obj.droneHeight = heightAt (droneItemAt record 0) / 10 := by
  obtain ⟨count, counted, rfl⟩ := Option.map_eq_some_iff.mp holds.counted
  obtain ⟨items, read⟩ := Option.isSome_iff_exists.mp holds.droneItems
  obtain ⟨last, num⟩ := Nat.exists_eq_succ_of_ne_zero some_item.ne'
  have each := read
  rw [Algs.droneItems, Counted.Layout.readItems, counted, Option.bind_some, num,
    List.range_succ_eq_map, Object.mapM_cons_eq_some_iff] at each
  obtain ⟨item, first, rest, -, rfl⟩ := each
  have same := alinkDroneIdItemIn_eq (p := Ptr.ofList (droneItemAt record 0)) first rfl
  refine ⟨_, _, by rw [tracerRead, counted, Option.bind_some, read]; rfl, ?_, ?_, ?_⟩
  · exact congrArg (angle ·.droneLatitude) same
  · exact congrArg (angle ·.droneLongitude) same
  · exact congrArg (fun item : AlinkDroneIdItem => (item.droneHeight : ℝ) / 10) same

end First

/-- For a package that holds the items it counts, and any at all, both guides send one
    command, which is about the first drone: for remote id it is where it says in units of
    1e-7 degrees, for drone id in units of 1e-7 radians. -/
theorem tracerGuides_lookAt (abs : ℝ → ℝ) {tracerTargets : TrackInfoPackages} {num : Nat}
    (holds : HoldsItems tracerTargets.trackInfo num) (some_item : 0 < num) :
    let items := droneItemAt tracerTargets.trackInfo 0
    (∃ addrT, tracerGuideR (Libm.real abs) tracerTargets = some [.addr addrT] ∧
        LooksAt abs mountR (radians (latitudeAt items / 10 ^ 7))
          (radians (longitudeAt items / 10 ^ 7)) (heightAt items / 10) addrT) ∧
      ∃ addrT, tracerGuideD (Libm.real abs) tracerTargets = some [.addr addrT] ∧
        LooksAt abs mountD (latitudeAt items / 10 ^ 7) (longitudeAt items / 10 ^ 7)
          (heightAt items / 10) addrT := by
  intro items
  constructor
  · obtain ⟨obj, objList, read, latitude, longitude, height⟩ :=
      tracerRead_first holds some_item fun z => z / 10 ^ 7
    obtain ⟨addrT, sent, looks⟩ := tracerGuide_looksAt abs mountR obj objList
    rw [latitude, longitude, height] at looks
    refine ⟨addrT, ?_, looks⟩
    rw [tracerGuideR, tracerRRead, read]
    exact congrArg some ((if_neg (by decide)).trans sent)
  · obtain ⟨obj, objList, read, latitude, longitude, height⟩ :=
      tracerRead_first holds some_item fun z => z / (10 ^ 7 * π) * 180
    obtain ⟨addrT, sent, looks⟩ := tracerGuide_looksAt abs mountD obj objList
    rw [latitude, longitude, height, radians_divided, radians_divided] at looks
    refine ⟨addrT, ?_, looks⟩
    rw [tracerGuideD, tracerDRead, show (Libm.real abs).pi = π from rfl, read]
    exact congrArg some ((if_neg (by decide)).trans sent)

/-- An item with this name and at this place, so many decimetres high. -/
def itemBytes (name : List UInt8) (longitude latitude height : Nat) : List UInt8 :=
  0 :: CString.strncpy 25 name ++ List.replicate 32 0 ++ littleBytes 4 longitude ++
    littleBytes 4 latitude ++
    littleBytes 2 height ++ List.replicate 23 0

/-- Two drones, the first of which is 120 metres up near the camera. -/
def twoDrones : TrackInfoPackages where
  trackPackType := 1
  trackInfo :=
    List.replicate 25 0 ++ [2] ++ itemBytes [77, 97, 118, 105, 99] 1139980000 225970000 1200 ++
    itemBytes [77, 105, 110, 105] 1139970000 225960000 300

theorem twoDrones_holds : HoldsItems twoDrones.trackInfo 2 where
  counted := by decide +kernel
  whole := by decide +kernel
  named := by decide +kernel

theorem tracerGuides_lookAt_two :
    let items := droneItemAt twoDrones.trackInfo 0
    (∃ addrT, tracerGuideR (Libm.real abs) twoDrones = some [.addr addrT] ∧
        LooksAt abs mountR (radians (latitudeAt items / 10 ^ 7))
          (radians (longitudeAt items / 10 ^ 7)) (heightAt items / 10) addrT) ∧
      ∃ addrT, tracerGuideD (Libm.real abs) twoDrones = some [.addr addrT] ∧
        LooksAt abs mountD (latitudeAt items / 10 ^ 7) (longitudeAt items / 10 ^ 7)
          (heightAt items / 10) addrT :=
  tracerGuides_lookAt abs twoDrones_holds (by decide)

example : latitudeAt (droneItemAt twoDrones.trackInfo 0) = 225970000 := by decide +kernel

end

end PtzAgx.Algs
