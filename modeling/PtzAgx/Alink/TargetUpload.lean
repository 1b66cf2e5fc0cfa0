import PtzAgx.Alink.History
import PtzAgx.Lib.Object
import PtzAgx.Lib.Single

/-! # From detections to a payload

`upload_target_info` of `ai_main.cpp` fills a record with what was detected, and
`track_pkg_target_info` packs it. Both index `targets`, which has `ALINK_TARGET_MAX` items,
the one by the number of detections and the other by its low byte. An access to
an item that is not there has no result. Confidences are of single precision, and so is
what they are multiplied to.
-/

namespace PtzAgx.Alink

open Bytes Words

/-- `alink_taget_info_t` in memory. -/
structure TagetInfoObject where
  timestamp : UInt32
  objNum : UInt8
  targets : List AlinkTargetsItem
  deriving Repr, DecidableEq

/-- `conf[i] * 100` without its fraction. -/
def hundredths (conf : Single) : Int := (conf * 100).toInt

/-- The product is rounded before its fraction is cut off: up to the next integer, or not. -/
example : hundredths 0.57 = 57 ∧ hundredths 0.53 = 52 := by decide +kernel

/-- What a number leaves in a field of 8 bits, and in one of 16. -/
def byteOf (z : Int) : UInt8 := UInt8.ofNat (unsigned 8 z)

def wordOf (z : Int) : UInt16 := UInt16.ofNat (unsigned 16 z)

/-- The arrays of `upload_target_info`. -/
structure Detections where
  classIndexs : List Int
  boxes : List Int
  conf : List Single
  deriving Repr, DecidableEq

/-- What is written to `targets[i]`. -/
def Detections.item (detections : Detections) (i : Nat) : Option AlinkTargetsItem := do
  let classification ← detections.classIndexs[i]?
  let rectX ← detections.boxes[4 * i]?
  let rectY ← detections.boxes[4 * i + 1]?
  let rectW ← detections.boxes[4 * i + 2]?
  let rectH ← detections.boxes[4 * i + 3]?
  let conf ← detections.conf[i]?
  some
    { id := 1
      classification := byteOf classification
      rectX := wordOf rectX
      rectY := wordOf rectY
      rectW := wordOf rectW
      rectH := wordOf rectH
      rectXV := 0x77
      rectYV := 0x88
      classfyProb := byteOf (hundredths conf) }

/-- The loop, `n` rounds before its end. It leaves `targets` long before `i` could wrap. -/
def Detections.fill (detections : Detections) :
    (n i : Nat) → List AlinkTargetsItem → Option (List AlinkTargetsItem)
  | 0, _, targets => some targets
  | n + 1, i, targets =>
      (detections.item i).bind fun item => (Object.write targets i [item]).bind
        (detections.fill n (i + 1))

/-- The record handed on, if any. `stale` is what lies on the stack. -/
def uploadTargetInfo (stale : List AlinkTargetsItem) (boxNum : Int) (detections : Detections)
    (timestamp : UInt32) :
    Option (Option TagetInfoObject) :=
  if boxNum ≤ 0 then some none
  else (detections.fill boxNum.toNat 0 stale).map fun targets =>
    some { timestamp, objNum := byteOf boxNum, targets }

/-- The loop of `track_pkg_target_info`, `i` items done. -/
def packTargets (targets : List AlinkTargetsItem) (psTarget : Ptr UInt8) : Nat → Option (Ptr UInt8)
  | 0 => some psTarget
  | i + 1 =>
      (packTargets targets psTarget i).bind fun psTarget =>
        (targets[i]?).map fun item => psTarget.store (5 + i * 24) item.bytes

/-- `track_pkg_target_info` for a record of which nothing is known. -/
def trackPkgTagetObject (pbyBuffer : Ptr UInt8) (_wSize : Nat) (psObjTarget : TagetInfoObject) :
    Option (Ptr UInt8 × UInt16) :=
  let psTarget :=
    pbyBuffer.store 0 (littleBytes 4 psObjTarget.timestamp.toNat ++ [psObjTarget.objNum])
  (packTargets psObjTarget.targets psTarget psObjTarget.objNum.toNat).map fun psTarget =>
    (psTarget, UInt16.ofNat (5 + psObjTarget.objNum.toNat * 24))

/-- One function after the other: the payload and its length, or that there is none. -/
def uploadAndPack (stale : List AlinkTargetsItem) (boxNum : Int) (detections : Detections)
    (timestamp : UInt32)
    (pbyBuffer : Ptr UInt8) (wSize : Nat) : Option (Option (Ptr UInt8 × UInt16)) :=
  (uploadTargetInfo stale boxNum detections timestamp).bind fun
    | none => some none
    | some psObjTarget => (trackPkgTagetObject pbyBuffer wSize psObjTarget).map some

/-! ## What a receiver reads -/

/-- The fields of an item, taken from its bytes. -/
def AlinkTargetsItem.ofBytes : List UInt8 → Option AlinkTargetsItem
  | [id₀, id₁, classification, x₀, x₁, y₀, y₁, w₀, w₁, h₀, h₁, xv₀, xv₁, yv₀, yv₁, classfyProb] =>
      some
        { id := word16 id₁ id₀
          classification
          rectX := word16 x₁ x₀
          rectY := word16 y₁ y₀
          rectW := word16 w₁ w₀
          rectH := word16 h₁ h₀
          rectXV := word16 xv₁ xv₀
          rectYV := word16 yv₁ yv₀
          classfyProb }
  | _ => none

/-- The item holds detection `i`, whose confidence is counted in hundredths. -/
structure Detections.At (detections : Detections) (i : Nat) (item : AlinkTargetsItem) : Prop where
  classification : detections.classIndexs[i]? = some (item.classification.toNat : Int)
  rectX : detections.boxes[4 * i]? = some (item.rectX.toNat : Int)
  rectY : detections.boxes[4 * i + 1]? = some (item.rectY.toNat : Int)
  rectW : detections.boxes[4 * i + 2]? = some (item.rectW.toNat : Int)
  rectH : detections.boxes[4 * i + 3]? = some (item.rectH.toNat : Int)
  conf : (detections.conf[i]?).map hundredths = some (signed 8 item.classfyProb.toNat)
  close : ∀ q ∈ detections.conf[i]?, |(signed 8 item.classfyProb.toNat : ℚ) - 100 * q| <
    1 + 1 / 2 ^ 16

/-- A payload of that many items, which decode to the detections in their order. -/
structure Detections.CarriedBy (detections : Detections) (boxNum : Int) (payload : Ptr UInt8)
    (len : UInt16) : Prop where
  objNum : ((payload 4).toNat : Int) = boxNum
  length : (len.toNat : Int) = 5 + 24 * boxNum
  items : ∀ i < boxNum.toNat, ∃ item,
    AlinkTargetsItem.ofBytes ((payload.advance (5 + i * 24)).read 16) = some item ∧
    detections.At i item

/-- No access goes outside, and what is not refused is carried. -/
def RoundTrips (boxNum : Int) (detections : Detections)
    (outcome : Option (Option (Ptr UInt8 × UInt16))) : Prop :=
  ∃ answer, outcome = some answer ∧
    ∀ payload len, answer = some (payload, len) → detections.CarriedBy boxNum payload len

/-- As many detections, each within the widths of the fields. -/
structure Detections.Fit (detections : Detections) (boxNum : Int) : Prop where
  classes : (detections.classIndexs.length : Int) = boxNum
  boxes : (detections.boxes.length : Int) = 4 * boxNum
  confs : (detections.conf.length : Int) = boxNum
  classIndexs : ∀ z ∈ detections.classIndexs, 0 ≤ z ∧ z < 2 ^ 8
  rects : ∀ z ∈ detections.boxes, 0 ≤ z ∧ z < 2 ^ 16
  conf : ∀ q ∈ detections.conf, -2 ^ 7 ≤ hundredths q ∧ hundredths q < 2 ^ 7

/-! ## Fields and items -/

section Fields

variable {z : Int}

theorem byteOf_toNat (low : 0 ≤ z) (high : z < 2 ^ 8) : ((byteOf z).toNat : Int) = z := by
  unfold byteOf unsigned
  rw [UInt8.toNat_ofNat']
  omega

theorem wordOf_toNat (low : 0 ≤ z) (high : z < 2 ^ 16) : ((wordOf z).toNat : Int) = z := by
  unfold wordOf unsigned
  rw [UInt16.toNat_ofNat']
  omega

theorem signed_byteOf (low : -2 ^ 7 ≤ z) (high : z < 2 ^ 7) : signed 8 (byteOf z).toNat = z := by
  unfold signed wrap byteOf unsigned
  rw [UInt8.toNat_ofNat']
  split <;> omega

theorem hundredths_close {conf : Single} (low : -2 ^ 7 ≤ hundredths conf)
    (high : hundredths conf < 2 ^ 7) :
    |(hundredths conf : ℚ) - 100 * conf| < 1 + 1 / 2 ^ 16 := by
  have hundred : ((100 : Single) : ℚ) = 100 := Single.coe_ofNat 100 (by decide)
  have product : ((conf * 100 : Single) : ℚ) = single.round (100 * conf) := by
    rw [Single.coe_mul, hundred, mul_comm]
  have cut : |(hundredths conf : ℚ) - single.round (100 * conf)| < 1 :=
    product ▸ Single.abs_toInt_sub_lt (conf * 100)
  have kept : |(hundredths conf : ℚ)| ≤ 2 ^ 7 := by
    have low' : (-2 ^ 7 : ℚ) ≤ hundredths conf := by exact_mod_cast low
    have high' : (hundredths conf : ℚ) < 2 ^ 7 := by exact_mod_cast high
    exact abs_le.mpr ⟨low', high'.le⟩
  have rounded : |single.round (100 * conf) - 100 * conf| ≤ |100 * (conf : ℚ)| / 2 ^ 24 +
      1 / 2 ^ 150 :=
    (Single.abs_round_sub_le _).trans (max_le_add_of_nonneg (by positivity) (by positivity))
  have apart : |(hundredths conf : ℚ) - 100 * conf| <
      1 + (|100 * (conf : ℚ)| / 2 ^ 24 + 1 / 2 ^ 150) :=
    (abs_sub_le _ (single.round (100 * conf)) _).trans_lt (add_lt_add_of_lt_of_le cut rounded)
  -- What is rounded is not far from what fits the field.
  have size : |100 * (conf : ℚ)| ≤ |(hundredths conf : ℚ)| + |(hundredths conf : ℚ) -
      100 * conf| := by
    have part := abs_sub_abs_le_abs_sub (100 * (conf : ℚ)) (hundredths conf)
    rw [abs_sub_comm] at part
    linarith
  linarith

theorem word16_littleBytes (x : UInt16) :
    word16 (UInt8.ofNat (x.toNat / 256)) (UInt8.ofNat x.toNat) = x := by
  apply UInt16.toNat_inj.mp
  rw [word16_split, wrap_of_lt x.toNat_lt]

theorem AlinkTargetsItem.ofBytes_bytes (item : AlinkTargetsItem) :
    ofBytes item.bytes = some item := by
  simp only [bytes, littleBytes, List.cons_append, List.nil_append, ofBytes, word16_littleBytes]

end Fields

section Loops

variable {detections : Detections} {targets targets' : List AlinkTargetsItem} {psTarget : Ptr UInt8}
  {boxNum : Int}
  {n i : Nat}

theorem getElem?_within {α : Type} {P : α → Prop} {l : List α} (all : ∀ x ∈ l, P x)
    (inside : i < l.length) :
    ∃ x, l[i]? = some x ∧ P x :=
  ⟨l[i], List.getElem?_eq_getElem inside, all _ (List.getElem_mem inside)⟩

theorem Detections.Fit.item (fit : detections.Fit boxNum) (inside : i < boxNum.toNat) :
    ∃ item, detections.item i = some item ∧ detections.At i item := by
  have classes := fit.classes
  have boxes := fit.boxes
  have confs := fit.confs
  obtain ⟨classification, class_at, class_low, class_high⟩ :=
    getElem?_within fit.classIndexs (by omega : i < _)
  obtain ⟨x, x_at, x_low, x_high⟩ := getElem?_within fit.rects (by omega : 4 * i < _)
  obtain ⟨y, y_at, y_low, y_high⟩ := getElem?_within fit.rects (by omega : 4 * i + 1 < _)
  obtain ⟨w, w_at, w_low, w_high⟩ := getElem?_within fit.rects (by omega : 4 * i + 2 < _)
  obtain ⟨h, h_at, h_low, h_high⟩ := getElem?_within fit.rects (by omega : 4 * i + 3 < _)
  obtain ⟨conf, conf_at, conf_low, conf_high⟩ := getElem?_within fit.conf (by omega : i < _)
  have kept := signed_byteOf conf_low conf_high
  have made : detections.item i = some ⟨1, byteOf classification, wordOf x, wordOf y, wordOf w,
    wordOf h, 0x77, 0x88,
      byteOf (hundredths conf)⟩ := by
    simp only [Detections.item, class_at, x_at, y_at, w_at, h_at, conf_at, Option.bind_eq_bind,
      Option.bind_some]
  refine ⟨_, made, ?_⟩
  constructor
  case classification => rw [class_at, byteOf_toNat class_low class_high]
  case rectX => rw [x_at, wordOf_toNat x_low x_high]
  case rectY => rw [y_at, wordOf_toNat y_low y_high]
  case rectW => rw [w_at, wordOf_toNat w_low w_high]
  case rectH => rw [h_at, wordOf_toNat h_low h_high]
  case conf => rw [conf_at, Option.map_some, kept]
  case close =>
    rw [conf_at, kept]
    rintro _ ⟨⟩
    exact hundredths_close conf_low conf_high

/-- The loop fills the items from `i` on and leaves those before. -/
theorem fill_items (some_item : ∀ j, i ≤ j → j < i + n → (detections.item j).isSome)
    (inside : i + n ≤ targets.length) :
    ∃ targets', detections.fill n i targets = some targets' ∧ targets'.length = targets.length ∧
      (∀ j < i, targets'[j]? = targets[j]?) ∧ ∀ j, i ≤ j → j < i + n →
      targets'[j]? = detections.item j := by
  induction n generalizing i targets with
  | zero => exact ⟨targets, rfl, rfl, fun _ _ => rfl, fun j low high => absurd high (by omega)⟩
  | succ n ih =>
      obtain ⟨item, made⟩ := Option.isSome_iff_exists.mp (some_item i (Nat.le_refl i) (by omega))
      have here : i < targets.length := by omega
      obtain ⟨targets', filled, length, before, behind⟩ :=
        ih (fun j low high => some_item j (by omega) (by omega))
        (by rw [List.length_set]; omega : i + 1 + n ≤ (targets.set i item).length)
      refine ⟨targets', ?_, by rw [length, List.length_set], fun j early => ?_,
        fun j low high => ?_⟩
      · rw [Detections.fill, made, Option.bind_some, Object.write_cell here, Option.bind_some,
          filled]
      · rw [before j (by omega), List.getElem?_set_ne (by omega)]
      · by_cases this : j = i
        · subst this
          rw [before j (by omega), List.getElem?_set_self here, made]
        · exact behind j (by omega) (by omega)

theorem fill_outside (start : i ≤ targets.length) (outside : targets.length < i + n) :
    detections.fill n i targets = none := by
  induction n generalizing i targets with
  | zero => omega
  | succ n ih =>
      rw [Detections.fill]
      cases made : detections.item i with
      | none => rfl
      | some item =>
          rw [Option.bind_some, Object.write, List.length_singleton]
          split
          case isFalse => rfl
          case isTrue inside =>
            rw [Option.bind_some]
            apply ih
            · simp
              omega
            · simp
              omega

theorem packTargets_eq {fallback : AlinkTargetsItem} (inside : n ≤ targets.length) :
    packTargets targets psTarget n =
      some (targetInfoItems (fun i => targets[i]?.getD fallback) psTarget n) := by
  induction n with
  | zero => rfl
  | succ n ih =>
      rw [packTargets, ih (by omega), Option.bind_some, targetInfoItems, List.getElem?_eq_getElem
        (by omega), Option.map_some, Option.getD_some]

theorem read_targetInfoItems {items : Nat → AlinkTargetsItem} (inside : i < n) :
    ((targetInfoItems items psTarget n).advance (5 + i * 24)).read 16 = (items i).bytes := by
  induction n with
  | zero => omega
  | succ n ih =>
      rw [targetInfoItems]
      by_cases last : i = n
      · subst last
        have stored := Ptr.read_store (targetInfoItems items psTarget i) (5 + i * 24)
          (items i).bytes
        rwa [AlinkTargetsItem.length_bytes] at stored
      · rw [← ih (by omega)]
        apply Ptr.read_congr
        intro k small
        exact Ptr.store_before _ _ (by omega)

theorem targetInfoItems_front {items : Nat → AlinkTargetsItem} {k : Nat} (front : k < 5) :
    targetInfoItems items psTarget n k = psTarget k := by
  induction n with
  | zero => rfl
  | succ n ih => rw [targetInfoItems, Ptr.store_before _ _ (by omega), ih]

end Loops

/-! ## Both functions -/

section Upload

variable {detections : Detections} {stale : List AlinkTargetsItem} {boxNum : Int}
  {timestamp : UInt32}

/-- What `track_pkg_target_info` is given when the count fits the record. -/
def TagetInfoObject.info (psObjTarget : TagetInfoObject) (fallback : AlinkTargetsItem)
    (bounded : psObjTarget.objNum.toNat ≤ alinkTargetMax) : AlinkTagetInfo where
  timestamp := psObjTarget.timestamp
  objNum := psObjTarget.objNum
  targets i := psObjTarget.targets[i]?.getD fallback
  bounded

theorem trackPkgTagetObject_eq (pbyBuffer : Ptr UInt8) (wSize : Nat) {psObjTarget : TagetInfoObject}
    (fallback : AlinkTargetsItem)
    (whole : psObjTarget.targets.length = alinkTargetMax)
    (bounded : psObjTarget.objNum.toNat ≤ alinkTargetMax) :
    trackPkgTagetObject pbyBuffer wSize psObjTarget =
      some (trackPkgTargetInfo pbyBuffer wSize (psObjTarget.info fallback bounded)) := by
  have inside : psObjTarget.objNum.toNat ≤ psObjTarget.targets.length := by rwa [whole]
  rw [trackPkgTagetObject, packTargets_eq inside]
  rfl

theorem uploadTargetInfo_outside (room : stale.length = alinkTargetMax)
    (many : alinkTargetMax < boxNum) :
    uploadTargetInfo stale boxNum detections timestamp = none := by
  rw [uploadTargetInfo, if_neg (by omega), fill_outside (Nat.zero_le _) (by omega)]
  rfl

theorem uploadTargetInfo_inside (timestamp : UInt32) (fit : detections.Fit boxNum)
    (room : stale.length = alinkTargetMax) (positive : 1 ≤ boxNum) (few : boxNum ≤ alinkTargetMax) :
    ∃ targets, uploadTargetInfo stale boxNum detections timestamp =
      some (some ⟨timestamp, byteOf boxNum, targets⟩) ∧
      targets.length = alinkTargetMax ∧
      ∀ i < boxNum.toNat, ∃ item, targets[i]? = some item ∧ detections.At i item := by
  have some_item : ∀ j, 0 ≤ j → j < 0 + boxNum.toNat → (detections.item j).isSome := by
    intro j _ inside
    obtain ⟨item, made, -⟩ := fit.item (by omega : j < boxNum.toNat)
    exact Option.isSome_iff_exists.mpr ⟨item, made⟩
  obtain ⟨targets, filled, length, -, items⟩ :=
    fill_items some_item (by omega : 0 + boxNum.toNat ≤ stale.length)
  refine ⟨targets, ?_, length.trans room, fun i inside => ?_⟩
  · rw [uploadTargetInfo, if_neg (by omega), filled]
    rfl
  · obtain ⟨item, made, holds⟩ := fit.item inside
    exact ⟨item, (items i (Nat.zero_le i) (by omega)).trans made, holds⟩

theorem trackPkgTargetInfo_carries (pbyBuffer : Ptr UInt8) (wSize : Nat) (info : AlinkTagetInfo)
    (count : (info.objNum.toNat : Int) = boxNum)
    (items : ∀ i < boxNum.toNat, detections.At i (info.targets i)) :
    detections.CarriedBy boxNum (trackPkgTargetInfo pbyBuffer wSize info).1
      (trackPkgTargetInfo pbyBuffer wSize info).2 := by
  constructor
  case objNum =>
    have fourth : 4 < info.front.length := by
      rw [AlinkTagetInfo.length_front]
      decide
    have kept : (trackPkgTargetInfo pbyBuffer wSize info).1 4 = info.objNum :=
      (targetInfoItems_front (by decide)).trans (Ptr.store_inside pbyBuffer 0 fourth)
    rw [kept, count]
  case length =>
    rw [targetInfo_count]
    omega
  case items =>
    intro i inside
    refine ⟨info.targets i, ?_, items i inside⟩
    rw [trackPkgTargetInfo, read_targetInfoItems (by omega), AlinkTargetsItem.ofBytes_bytes]

end Upload

/-- Detections go round exactly when the record has room for them. -/
theorem uploadAndPack_roundTrips_iff (stale : List AlinkTargetsItem) (boxNum : Int)
    (detections : Detections)
    (timestamp : UInt32) (pbyBuffer : Ptr UInt8) (wSize : Nat)
    (room : stale.length = alinkTargetMax)
    (positive : 1 ≤ boxNum) (fit : detections.Fit boxNum) :
    RoundTrips boxNum detections (uploadAndPack stale boxNum detections timestamp pbyBuffer wSize) ↔
      boxNum ≤ alinkTargetMax := by
  constructor
  · rintro ⟨answer, returned, -⟩
    by_contra many
    rw [uploadAndPack, uploadTargetInfo_outside room (by omega)] at returned
    cases returned
  · intro few
    obtain ⟨targets, uploaded, length, items⟩ :=
      uploadTargetInfo_inside timestamp fit room positive few
    have max : alinkTargetMax = 128 := rfl
    have count : ((byteOf boxNum).toNat : Int) = boxNum := byteOf_toNat (by omega) (by omega)
    let psObjTarget : TagetInfoObject := ⟨timestamp, byteOf boxNum, targets⟩
    have bounded : psObjTarget.objNum.toNat ≤ alinkTargetMax := by
      have same : (psObjTarget.objNum.toNat : Int) = boxNum := count
      omega
    obtain ⟨fallback⟩ : Nonempty AlinkTargetsItem := ⟨⟨0, 0, 0, 0, 0, 0, 0, 0, 0⟩⟩
    have packed := trackPkgTagetObject_eq pbyBuffer wSize fallback length bounded
    refine ⟨some (trackPkgTargetInfo pbyBuffer wSize (psObjTarget.info fallback bounded)), ?_, ?_⟩
    · rw [uploadAndPack, uploaded, Option.bind_some]
      exact congrArg (Option.map some) packed
    · intro payload len same
      cases same
      refine trackPkgTargetInfo_carries pbyBuffer wSize _ count fun i inside => ?_
      obtain ⟨item, here, holds⟩ := items i inside
      have found : (psObjTarget.info fallback bounded).targets i = item := by
        show targets[i]?.getD fallback = item
        rw [here, Option.getD_some]
      rwa [found]

/-- So many detections, all of the class 2 and of the confidence 3/4. -/
def sameDetections (n : Nat) : Detections where
  classIndexs := List.replicate n 2
  boxes := List.replicate (4 * n) 100
  conf := List.replicate n 0.75

theorem sameDetections_fit (n : Nat) : (sameDetections n).Fit n where
  classes := by simp [sameDetections]
  boxes := by simp [sameDetections]
  confs := by simp [sameDetections]
  classIndexs z member := by
    rw [List.eq_of_mem_replicate member]
    decide
  rects z member := by
    rw [List.eq_of_mem_replicate member]
    decide
  conf q member := by
    rw [List.eq_of_mem_replicate member]
    decide +kernel

/-- The record as the stack may hold it. -/
def staleTargets : List AlinkTargetsItem :=
  List.replicate alinkTargetMax ⟨0, 0, 0, 0, 0, 0, 0, 0, 0⟩

theorem uploadAndPack_roundTrips_iff_three :
    RoundTrips 3 (sameDetections 3) (uploadAndPack staleTargets 3 (sameDetections 3) 0
      (fun _ => 0) 4096) ↔
      (3 : Int) ≤ alinkTargetMax :=
  uploadAndPack_roundTrips_iff staleTargets 3 (sameDetections 3) 0
    (fun _ => 0) 4096 List.length_replicate (by decide)
    (sameDetections_fit 3)

/-- The 129th detection is written behind the record. -/
theorem uploadAndPack_overruns :
    ¬ ∀ (stale : List AlinkTargetsItem) (boxNum : Int) (detections : Detections)
      (timestamp : UInt32)
      (pbyBuffer : Ptr UInt8) (wSize : Nat), stale.length = alinkTargetMax → 1 ≤ boxNum →
      detections.Fit boxNum →
        RoundTrips boxNum detections
        (uploadAndPack stale boxNum detections timestamp pbyBuffer wSize) := by
  intro trips
  have room : staleTargets.length = alinkTargetMax := List.length_replicate
  obtain ⟨answer, returned, -⟩ :=
    trips staleTargets 129 (sameDetections 129) 0 (fun _ => 0) 4096 room (by decide)
    (sameDetections_fit 129)
  rw [uploadAndPack, uploadTargetInfo_outside room (by decide)] at returned
  cases returned

end PtzAgx.Alink
