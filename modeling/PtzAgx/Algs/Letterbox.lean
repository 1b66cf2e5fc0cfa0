import PtzAgx.Algs.ByteTracker
import PtzAgx.Lib.Object
import PtzAgx.Lib.Single

/-! # Into the network's picture and back

`letterbox` and `postprocess` of `yolov8.cpp`: a picture is scaled to fit the network's
and bordered, and the boxes that are found there are taken back to the picture. Every
operation is one of single precision. `resize` of OpenCV throws when it is asked for an
empty picture, and `copyMakeBorder` for a negative border; reading behind the end of the
network's output has no result. The pixels are left out.
-/

namespace PtzAgx.Algs

/-- `cv::Size` -/
structure CvSize where
  width : Int
  height : Int
  deriving Repr, DecidableEq

structure PreParam where
  ratio : Single
  dw : Single
  dh : Single
  height : Single
  width : Single
  deriving Repr, DecidableEq

/-- What the picture is scaled to, the border around it, and what is remembered of it. -/
structure Letterboxed where
  padw : Int
  padh : Int
  top : Int
  bottom : Int
  left : Int
  right : Int
  pparam : PreParam
  deriving Repr, DecidableEq

/-- `std::round`, away from zero where it is halfway. -/
def stdRound (x : ℚ) : Int := if 0 ≤ x then ⌊x + 1 / 2⌋ else ⌈x - 1 / 2⌉

def letterbox (rows cols : Int) (size : CvSize) : Option Letterboxed :=
  let inpH : Single := size.height
  let inpW : Single := size.width
  let height : Single := rows
  let width : Single := cols
  let r := min (inpH / height) (inpW / width)
  let padw := stdRound (width * r : Single)
  let padh := stdRound (height * r : Single)
  if (width.toInt ≠ padw ∨ height.toInt ≠ padh) ∧ (padw ≤ 0 ∨ padh ≤ 0) then none
  else
    let dw := (inpW - padw) / 2
    let dh := (inpH - padh) / 2
    let top := stdRound (dh - 0.1 : Single)
    let bottom := stdRound (dh + 0.1 : Single)
    let left := stdRound (dw - 0.1 : Single)
    let right := stdRound (dw + 0.1 : Single)
    if top < 0 ∨ bottom < 0 ∨ left < 0 ∨ right < 0 then none
    else some { padw, padh, top, bottom, left, right,
                pparam := { ratio := 1 / r, dw, dh, height, width } }

def clamp (val low high : Single) : Single :=
  if val > low then if val < high then val else high else low

/-- One round of the loop of `postprocess`. -/
def postprocessAt (pparam : PreParam) (boxes scores : List Single) (labels : List Int) (i : Nat) :
    Option (Detected Single) := do
  let x0 := clamp (((← boxes[i * 4]?) - pparam.dw) * pparam.ratio) 0 pparam.width
  let y0 := clamp (((← boxes[i * 4 + 1]?) - pparam.dh) * pparam.ratio) 0 pparam.height
  let x1 := clamp (((← boxes[i * 4 + 2]?) - pparam.dw) * pparam.ratio) 0 pparam.width
  let y1 := clamp (((← boxes[i * 4 + 3]?) - pparam.dh) * pparam.ratio) 0 pparam.height
  return { x := x0, y := y0, width := x1 - x0, height := y1 - y0, label := ← labels[i]?,
           prob := ← scores[i]? }

def postprocess (pparam : PreParam) (numDets : Int) (boxes scores : List Single)
    (labels : List Int) :
    Option (List (Detected Single)) :=
  (List.range numDets.toNat).mapM (postprocessAt pparam boxes scores labels)

/-- The picture of 82 rows and 41 columns has half a column in a network of one pixel. In
    single precision it is less, and there is no picture. -/
example : (letterbox 82 41 ⟨1, 1⟩).isNone := by decide +kernel

/-! ## Rounding -/

section Rounding

variable {x : ℚ} {n k : Int}

theorem abs_stdRound_sub_le (x : ℚ) : |(stdRound x : ℚ) - x| ≤ 1 / 2 := by
  rw [stdRound, abs_le]
  split
  · have low := Int.floor_le (x + 1 / 2)
    have high := Int.lt_floor_add_one (x + 1 / 2)
    constructor <;> linarith
  · have low := Int.le_ceil (x - 1 / 2)
    have high := Int.ceil_lt_add_one (x - 1 / 2)
    constructor <;> linarith

theorem stdRound_eq (near : |(n : ℚ) - x| < 1 / 2) : stdRound x = n := by
  obtain ⟨low, high⟩ := abs_lt.mp near
  have close := abs_le.mp (abs_stdRound_sub_le x)
  have below : ((stdRound x : Int) : ℚ) < n + 1 := by linarith
  have above : (n : ℚ) < stdRound x + 1 := by linarith
  exact le_antisymm (Int.lt_add_one_iff.mp (by exact_mod_cast below))
    (Int.lt_add_one_iff.mp (by exact_mod_cast above))

theorem stdRound_le (below : x < n + 1 / 2) : stdRound x ≤ n := by
  have close := (abs_le.mp (abs_stdRound_sub_le x)).2
  have less : (stdRound x : ℚ) < n + 1 := by linarith
  exact Int.lt_add_one_iff.mp (by exact_mod_cast less)

theorem stdRound_nonpos_iff (positive : 0 ≤ x) : stdRound x ≤ 0 ↔ x < 1 / 2 := by
  rw [stdRound, if_pos positive, ← Int.lt_add_one_iff, Int.floor_lt]
  push_cast
  constructor <;> intro <;> linarith

/-- The two borders of `k` columns, from numbers that are about a tenth beside the half. -/
theorem stdRound_border (near : |x - (k / 2 - 1 / 10)| ≤ 1 / 16) : stdRound x = k / 2 := by
  obtain ⟨low, high⟩ := abs_le.mp near
  obtain ⟨q, rfl | rfl⟩ : ∃ q, k = 2 * q ∨ k = 2 * q + 1 := ⟨k / 2, by omega⟩
  all_goals
    push_cast at low high
    refine (stdRound_eq (n := q) (abs_lt.mpr ⟨?_, ?_⟩)).trans (by omega) <;> linarith

theorem stdRound_border_other (near : |x - (k / 2 + 1 / 10)| ≤ 1 / 16) :
    stdRound x = k - k / 2 := by
  obtain ⟨low, high⟩ := abs_le.mp near
  obtain ⟨q, rfl | rfl⟩ : ∃ q, k = 2 * q ∨ k = 2 * q + 1 := ⟨k / 2, by omega⟩
  · push_cast at low high
    refine (stdRound_eq (n := q) (abs_lt.mpr ⟨?_, ?_⟩)).trans (by omega) <;> linarith
  · push_cast at low high
    refine (stdRound_eq (n := q + 1) (abs_lt.mpr ⟨?_, ?_⟩)).trans (by omega) <;> push_cast
      <;> linarith

end Rounding

/-! ## The network's picture -/

/-- The network's picture is filled: by the picture, which it fits in one direction, and
    by borders on both sides of it in the other. -/
structure Letterboxed.Fills (b : Letterboxed) (size : CvSize) : Prop where
  across : b.left + b.padw + b.right = size.width
  down : b.top + b.padh + b.bottom = size.height
  borders : 0 ≤ b.left ∧ 0 ≤ b.right ∧ 0 ≤ b.top ∧ 0 ≤ b.bottom
  picture : 0 < b.padw ∧ 0 < b.padh
  tight : b.padw = size.width ∨ b.padh = size.height

/-- A picture, and what it is scaled into, have pixels, but at most `2 ^ 16` in a direction. -/
structure Pixels (rows cols : Int) (size : CvSize) : Prop where
  rows : 0 < rows ∧ rows ≤ 2 ^ 16
  cols : 0 < cols ∧ cols ≤ 2 ^ 16
  width : 0 < size.width ∧ size.width ≤ 2 ^ 16
  height : 0 < size.height ∧ size.height ≤ 2 ^ 16

/-- The factor a picture is scaled by, were it not rounded. -/
def scale (rows cols : Int) (size : CvSize) : ℚ :=
  min ((size.height : ℚ) / rows) (size.width / cols)

/-- What is computed for `n` pixels scaled by `s`. -/
def scaled (n : Int) (s : ℚ) : ℚ := ((n : Single) * Single.ofRat s : Single)

section Scale

variable {a b A B n : Int} {s : ℚ}

theorem coe_pixels (pixels : 0 < n ∧ n ≤ 2 ^ 16) : ((n : Single) : ℚ) = n :=
  Single.coe_intCast (abs_le.mpr ⟨by omega, by omega⟩)

theorem scaled_between (pixels : 0 < n ∧ n ≤ 2 ^ 16) (factor : 1 / 2 ^ 16 ≤ s) :
    n * s * (1 - 1 / 2 ^ 22) ≤ scaled n s ∧ scaled n s ≤ n * s * (1 + 1 / 2 ^ 22) := by
  have one : (1 : ℚ) ≤ n := by exact_mod_cast pixels.1
  obtain ⟨low, high⟩ := Single.round_between (x := s) (by linarith)
  have least : 1 / 2 ^ 17 ≤ single.round s := by linarith
  have normal : 1 / 2 ^ 17 ≤ n * single.round s := by
    calc (1 / 2 ^ 17 : ℚ) = 1 * (1 / 2 ^ 17) := (one_mul _).symm
      _ ≤ n * single.round s := by gcongr
  obtain ⟨low', high'⟩ := Single.round_between (x := n * single.round s) (by linarith)
  have computed : scaled n s = single.round (n * single.round s) := by
    rw [scaled, Single.coe_mul, coe_pixels pixels]
    rfl
  have low_mul : n * (s * (1 - 1 / 2 ^ 24)) ≤ n * single.round s := by gcongr
  have high_mul : n * single.round s ≤ n * (s * (1 + 1 / 2 ^ 24)) := by gcongr
  have positive : 0 < n * s := by
    have small : (0 : ℚ) < s := by linarith
    positivity
  rw [computed]
  constructor <;> linarith

/-- The factor that takes `b` to `B` at most takes `a` to `A` at most. -/
theorem mul_factor (some : 0 < a) :
    (a : ℚ) * min ((B : ℚ) / b) (A / a) = min ((a : ℚ) * B / b) (A : ℚ) := by
  have some' : (0 : ℚ) < a := by exact_mod_cast some
  rw [mul_min_of_nonneg _ _ some'.le, mul_div_cancel₀ _ some'.ne', mul_div_assoc]

/-- What is left of `a` is less than half a pixel, and less by as much as two integers differ. -/
theorem mul_factor_thin (some : 0 < a) (some' : 0 < b ∧ b ≤ 2 ^ 16) (thin : 2 * a * B < b) :
    (a : ℚ) * min ((B : ℚ) / b) (A / a) ≤ 1 / 2 - 1 / 2 ^ 17 := by
  have divisor : (0 : ℚ) < b := by exact_mod_cast some'.1
  have bounded : (b : ℚ) ≤ 2 ^ 16 := by exact_mod_cast some'.2
  have less : (2 * a * B + 1 : ℚ) ≤ b := by exact_mod_cast thin
  rw [mul_factor some]
  refine (min_le_left _ _).trans ((div_le_iff₀ divisor).mpr ?_)
  linarith

theorem mul_factor_thick (some : 0 < a) (some' : 0 < b ∧ b ≤ 2 ^ 16) (fit : 0 < A)
    (thick : b < 2 * a * B) :
    1 / 2 + 1 / 2 ^ 17 ≤ (a : ℚ) * min ((B : ℚ) / b) (A / a) := by
  have divisor : (0 : ℚ) < b := by exact_mod_cast some'.1
  have bounded : (b : ℚ) ≤ 2 ^ 16 := by exact_mod_cast some'.2
  have more : (b + 1 : ℚ) ≤ 2 * a * B := by exact_mod_cast thick
  have pixel : (1 : ℚ) ≤ A := by exact_mod_cast fit
  rw [mul_factor some]
  refine le_min ((le_div_iff₀ divisor).mpr ?_) ?_ <;> linarith

end Scale

section Sides

variable {rows cols : Int} {size : CvSize} (pixels : Pixels rows cols size)

include pixels

theorem Pixels.le_scale : 1 / 2 ^ 16 ≤ scale rows cols size := by
  obtain ⟨⟨rows, rows'⟩, ⟨cols, cols'⟩, ⟨width, -⟩, ⟨height, -⟩⟩ := pixels
  have part {n m : Int} (divisor : 0 < n) (small : n ≤ 2 ^ 16) (some : 0 < m) :
      (1 / 2 ^ 16 : ℚ) ≤ m / n := by
    have one : (1 : ℚ) ≤ m := by exact_mod_cast some
    have divisor' : (0 : ℚ) < n := by exact_mod_cast divisor
    have small' : (n : ℚ) ≤ 2 ^ 16 := by exact_mod_cast small
    exact div_le_div₀ (by linarith) one divisor' small'
  exact le_min (part rows rows' height) (part cols cols' width)

theorem Pixels.across : cols * scale rows cols size ≤ size.width := by
  rw [scale, mul_factor pixels.cols.1]
  exact min_le_right _ _

theorem Pixels.down : rows * scale rows cols size ≤ size.height := by
  rw [scale, min_comm, mul_factor pixels.rows.1]
  exact min_le_right _ _

theorem Pixels.tight :
    cols * scale rows cols size = size.width ∨ rows * scale rows cols size = size.height := by
  have cols' : (cols : ℚ) ≠ 0 := by exact_mod_cast pixels.cols.1.ne'
  have rows' : (rows : ℚ) ≠ 0 := by exact_mod_cast pixels.rows.1.ne'
  rcases le_total ((size.height : ℚ) / rows) (size.width / cols) with tall | wide
  · exact .inr (by rw [scale, min_eq_left tall, mul_div_cancel₀ _ rows'])
  · exact .inl (by rw [scale, min_eq_right wide, mul_div_cancel₀ _ cols'])

end Sides

/-- One direction: `n` pixels that are scaled into `A`. -/
structure Side (n A : Int) (s : ℚ) : Prop where
  pixels : 0 < n ∧ n ≤ 2 ^ 16
  room : 0 < A ∧ A ≤ 2 ^ 16
  factor : 1 / 2 ^ 16 ≤ s
  fit : n * s ≤ A

theorem coe_tenth : |((0.1 : Single) : ℚ) - 1 / 10| ≤ 1 / 2 ^ 24 := by decide +kernel

/-- Half of what is left for the borders. -/
def border (A pad : Int) : Single := ((A : Single) - pad) / 2

namespace Side

variable {n A pad : Int} {s : ℚ} (side : Side n A s)

include side

theorem scaled_nonneg : 0 ≤ scaled n s := by
  have some : (0 : ℚ) < n := by exact_mod_cast side.pixels.1
  have factor : 0 < s := lt_of_lt_of_le (by norm_num) side.factor
  exact le_trans (by positivity) (scaled_between side.pixels side.factor).1

theorem abs_scaled_sub_le : |scaled n s - n * s| ≤ 1 / 64 := by
  obtain ⟨low, high⟩ := scaled_between side.pixels side.factor
  have room : (A : ℚ) ≤ 2 ^ 16 := by exact_mod_cast side.room.2
  have fit := side.fit
  exact abs_le.mpr ⟨by linarith, by linarith⟩

theorem abs_pad_sub_le : |(stdRound (scaled n s) : ℚ) - n * s| ≤ 1 / 2 + 1 / 64 :=
  (abs_sub_le _ (scaled n s) _).trans (add_le_add (abs_stdRound_sub_le _) side.abs_scaled_sub_le)

theorem pad_le : stdRound (scaled n s) ≤ A := by
  have high := (abs_le.mp side.abs_scaled_sub_le).2
  have fit := side.fit
  exact stdRound_le (by linarith)

theorem pad_eq (tight : n * s = A) : stdRound (scaled n s) = A := by
  have close := side.abs_scaled_sub_le
  rw [tight, abs_sub_comm] at close
  exact stdRound_eq (by linarith)

theorem coe_border (inside : 0 ≤ pad ∧ pad ≤ A) :
    (border A pad : ℚ) = ((A - pad : Int) : ℚ) / 2 := by
  have room := side.room
  have low : |A - pad| ≤ 2 ^ 24 := abs_le.mpr ⟨by omega, by omega⟩
  have apart : (A : ℚ) - pad = (A - pad : Int) := by push_cast; rfl
  rw [border, Single.coe_div, Single.coe_sub, Single.coe_intCast (abs_le.mpr ⟨by omega, by omega⟩),
    Single.coe_intCast (abs_le.mpr ⟨by omega, by omega⟩), apart, Single.round_intCast low,
    Single.coe_ofNat 2 (by decide), Single.round_half low]

theorem borders (inside : 0 ≤ pad ∧ pad ≤ A) :
    stdRound (border A pad - 0.1 : Single) = (A - pad) / 2 ∧
      stdRound (border A pad + 0.1 : Single) = A - pad - (A - pad) / 2 := by
  have room := side.room
  have half := side.coe_border inside
  have low : (0 : ℚ) ≤ (A - pad : Int) := by exact_mod_cast (by omega : 0 ≤ A - pad)
  have high : ((A - pad : Int) : ℚ) ≤ 2 ^ 16 := by exact_mod_cast (by omega : A - pad ≤ 2 ^ 16)
  obtain ⟨tenth, tenth'⟩ := abs_le.mp coe_tenth
  have rounded {x : ℚ} (small : |x| ≤ 2 ^ 17) : |single.round x - x| ≤ 1 / 64 := by
    refine (Single.abs_round_sub_le x).trans (max_le ?_ (by norm_num))
    linarith
  constructor
  · have close := rounded
      (x := border A pad - (0.1 : Single)) (abs_le.mpr ⟨by linarith, by linarith⟩)
    rw [abs_le] at close
    exact stdRound_border (by rw [Single.coe_sub, abs_le]; constructor <;> linarith)
  · have close := rounded
      (x := border A pad + (0.1 : Single)) (abs_le.mpr ⟨by linarith, by linarith⟩)
    rw [abs_le] at close
    exact stdRound_border_other (by rw [Single.coe_add, abs_le]; constructor <;> linarith)

end Side

section Fitted

variable {rows cols n A : Int} {size : CvSize} {s : ℚ}

theorem Pixels.horizontal (pixels : Pixels rows cols size) :
    Side cols size.width (scale rows cols size) :=
  ⟨pixels.cols, pixels.width, pixels.le_scale, pixels.across⟩

theorem Pixels.vertical (pixels : Pixels rows cols size) :
    Side rows size.height (scale rows cols size) :=
  ⟨pixels.rows, pixels.height, pixels.le_scale, pixels.down⟩

/-- What a picture that is not too thin is fitted to. -/
def fitted (rows cols : Int) (size : CvSize) : Letterboxed :=
  let padw := stdRound (scaled cols (scale rows cols size))
  let padh := stdRound (scaled rows (scale rows cols size))
  { padw
    padh
    top := (size.height - padh) / 2
    bottom := size.height - padh - (size.height - padh) / 2
    left := (size.width - padw) / 2
    right := size.width - padw - (size.width - padw) / 2
    pparam :=
      { ratio := 1 / Single.ofRat (scale rows cols size)
        dw := border size.width padw
        dh := border size.height padh
        height := rows
        width := cols } }

theorem min_eq_scale (pixels : Pixels rows cols size) :
    min ((size.height : Single) / (rows : Single)) ((size.width : Single) / (cols : Single)) =
      Single.ofRat (scale rows cols size) := by
  apply Single.ext
  have rounded :=
      (BinaryFormat.monotone_round (F := single)).map_min (a := (size.height : ℚ) / rows)
    (b := (size.width : ℚ) / cols)
  have same := Single.coe_min (a := (size.height : Single) / (rows : Single))
    (b := (size.width : Single) / (cols : Single))
  rw [Single.coe_div, Single.coe_div, coe_pixels pixels.rows, coe_pixels pixels.cols,
    coe_pixels pixels.width, coe_pixels pixels.height, ← rounded] at same
  exact same

theorem letterbox_eq (pixels : Pixels rows cols size) : letterbox rows cols size =
    if (fitted rows cols size).padw ≤ 0 ∨ (fitted rows cols size).padh ≤ 0 then none
    else some (fitted rows cols size) := by
  have wide : (cols : Single).toInt = cols :=
    Single.toInt_intCast (abs_le.mpr ⟨by linarith [pixels.cols.1], by linarith [pixels.cols.2]⟩)
  have high : (rows : Single).toInt = rows :=
    Single.toInt_intCast (abs_le.mpr ⟨by linarith [pixels.rows.1], by linarith [pixels.rows.2]⟩)
  by_cases thin : (fitted rows cols size).padw ≤ 0 ∨ (fitted rows cols size).padh ≤ 0
  · rw [if_pos thin]
    have other : cols ≠ (fitted rows cols size).padw ∨ rows ≠ (fitted rows cols size).padh :=
      thin.imp (fun none => by linarith [pixels.cols.1]) (fun none => by linarith [pixels.rows.1])
    simp only [letterbox, min_eq_scale pixels, wide, high]
    exact if_pos ⟨other, thin⟩
  · rw [if_neg thin]
    rw [not_or, not_le, not_le] at thin
    have across := pixels.horizontal.borders ⟨thin.1.le, pixels.horizontal.pad_le⟩
    have down := pixels.vertical.borders ⟨thin.2.le, pixels.vertical.pad_le⟩
    have fit := pixels.horizontal.pad_le
    have fit' := pixels.vertical.pad_le
    simp only [fitted, border, scaled] at across down fit fit' thin
    simp only [letterbox, min_eq_scale pixels, across, down]
    rw [if_neg (by omega), if_neg (by omega)]
    rfl

theorem fitted_fills (pixels : Pixels rows cols size)
    (some_pixels : ¬ ((fitted rows cols size).padw ≤ 0 ∨ (fitted rows cols size).padh ≤ 0)) :
    (fitted rows cols size).Fills size := by
  have across := pixels.horizontal.pad_le
  have down := pixels.vertical.pad_le
  simp only [not_or, not_le] at some_pixels
  refine ⟨?_, ?_, ?_, some_pixels, ?_⟩
  · simp only [fitted]
    omega
  · simp only [fitted]
    omega
  · simp only [fitted]
    omega
  · exact pixels.tight.imp pixels.horizontal.pad_eq pixels.vertical.pad_eq

theorem Side.nothing_of_thin (side : Side n A s) (thin : n * s ≤ 1 / 2 - 1 / 2 ^ 17) :
    stdRound (scaled n s) ≤ 0 := by
  have high := (scaled_between side.pixels side.factor).2
  exact (stdRound_nonpos_iff side.scaled_nonneg).mpr (by linarith)

theorem Side.some_of_thick (side : Side n A s) (thick : 1 / 2 + 1 / 2 ^ 17 ≤ n * s) :
    0 < stdRound (scaled n s) := by
  have low := (scaled_between side.pixels side.factor).1
  rw [← not_le, stdRound_nonpos_iff side.scaled_nonneg, not_lt]
  linarith

theorem fitted_thin (pixels : Pixels rows cols size)
    (thin : 2 * cols * size.height < rows ∨ 2 * rows * size.width < cols) :
    (fitted rows cols size).padw ≤ 0 ∨ (fitted rows cols size).padh ≤ 0 := by
  rcases thin with narrow | flat
  · exact .inl (pixels.horizontal.nothing_of_thin
      (mul_factor_thin pixels.cols.1 pixels.rows narrow))
  · refine .inr (pixels.vertical.nothing_of_thin ?_)
    rw [scale, min_comm]
    exact mul_factor_thin pixels.rows.1 pixels.cols flat

theorem fitted_thick (pixels : Pixels rows cols size) (wide : rows < 2 * cols * size.height)
    (high : cols < 2 * rows * size.width) :
    ¬ ((fitted rows cols size).padw ≤ 0 ∨ (fitted rows cols size).padh ≤ 0) := by
  rw [not_or, not_le, not_le]
  constructor
  · exact pixels.horizontal.some_of_thick
      (mul_factor_thick pixels.cols.1 pixels.rows pixels.width.1 wide)
  · refine pixels.vertical.some_of_thick ?_
    rw [scale, min_comm]
    exact mul_factor_thick pixels.rows.1 pixels.cols pixels.height.1 high

end Fitted

/-- A picture fills the network's picture together with its border. There is no picture if
    less than half a pixel of it is left in one direction, and only if no more is. -/
theorem letterbox_fills {rows cols : Int} {size : CvSize} (pixels : Pixels rows cols size) :
    (2 * cols * size.height < rows ∨ 2 * rows * size.width < cols →
      letterbox rows cols size = none) ∧
      (letterbox rows cols size = none → 2 * cols * size.height ≤ rows ∨
        2 * rows * size.width ≤ cols) ∧
      ∀ b : Letterboxed, letterbox rows cols size = some b → b.Fills size := by
  rw [letterbox_eq pixels]
  refine ⟨fun thin => if_pos (fitted_thin pixels thin), ?_, ?_⟩
  · intro nothing
    by_contra thick
    rw [not_or, not_le, not_le] at thick
    rw [if_neg (fitted_thick pixels thick.1 thick.2)] at nothing
    cases nothing
  · intro b some_picture
    simp only [Option.ite_none_left_eq_some, Option.some.injEq] at some_picture
    obtain ⟨some_pixels, rfl⟩ := some_picture
    exact fitted_fills pixels some_pixels

theorem fullHd : Pixels 1080 1920 ⟨1280, 1280⟩ := ⟨by decide, by decide, by decide, by decide⟩

theorem letterbox_fills_fullHd :
    (2 * (1920 : Int) * (⟨1280, 1280⟩ : CvSize).height < 1080 ∨
        2 * (1080 : Int) * (⟨1280, 1280⟩ : CvSize).width < 1920 →
        letterbox 1080 1920 ⟨1280, 1280⟩ = none) ∧
      (letterbox 1080 1920 ⟨1280, 1280⟩ = none →
        2 * (1920 : Int) * (⟨1280, 1280⟩ : CvSize).height ≤ 1080 ∨
          2 * (1080 : Int) * (⟨1280, 1280⟩ : CvSize).width ≤ 1920) ∧
      ∀ b : Letterboxed, letterbox 1080 1920 ⟨1280, 1280⟩ = some b → b.Fills ⟨1280, 1280⟩ :=
  letterbox_fills fullHd

/-! ## The way back -/

/-- The numbers of an object, exactly. -/
def Detected.exact (d : Detected Single) : Detected ℚ where
  x := d.x
  y := d.y
  width := d.width
  height := d.height
  label := d.label
  prob := d.prob

/-- The corners of an object are in the picture, the second one up to a rounding error. -/
structure InPicture (height width slack : ℚ) (o : Detected ℚ) : Prop where
  left : 0 ≤ o.x ∧ o.x ≤ width
  top : 0 ≤ o.y ∧ o.y ≤ height
  right : -slack * width ≤ o.x + o.width ∧ o.x + o.width ≤ (1 + slack) * width
  bottom : -slack * height ≤ o.y + o.height ∧ o.y + o.height ≤ (1 + slack) * height

/-- What `postprocess` makes of four numbers. -/
def restored (pparam : PreParam) (x0 y0 x1 y1 : Single) (label : Int) (prob : Single) :
    Detected Single :=
  let x0 := clamp ((x0 - pparam.dw) * pparam.ratio) 0 pparam.width
  let y0 := clamp ((y0 - pparam.dh) * pparam.ratio) 0 pparam.height
  let x1 := clamp ((x1 - pparam.dw) * pparam.ratio) 0 pparam.width
  let y1 := clamp ((y1 - pparam.dh) * pparam.ratio) 0 pparam.height
  { x := x0, y := y0, width := x1 - x0, height := y1 - y0, label, prob }

section Restored

variable {val low high : Single} {x : ℚ} {pparam : PreParam} {boxes scores : List Single}
  {labels : List Int}
  {i : Nat} {d : Detected Single}

theorem clamp_mem (val : Single) (between : low ≤ high) :
    low ≤ clamp val low high ∧ clamp val low high ≤ high := by
  unfold clamp
  split
  · next above =>
    split
    · next below => exact ⟨above.le, below.le⟩
    · exact ⟨between, le_rfl⟩
  · exact ⟨le_rfl, between⟩

/-- Taking a number between two bounds to them takes it no further from what is there. -/
theorem clamp_near (inside : (low : ℚ) ≤ x ∧ x ≤ high) : |(clamp val low high : ℚ) -
    x| ≤ |(val : ℚ) - x| := by
  obtain ⟨low', high'⟩ := inside
  unfold clamp
  split
  · split
    · exact le_rfl
    · next below =>
      have outside : (high : ℚ) ≤ val := Single.coe_le.mpr (not_lt.mp below)
      rw [abs_of_nonneg (by linarith), abs_of_nonneg (by linarith)]
      linarith
  · next above =>
    have outside : (val : ℚ) ≤ low := Single.coe_le.mpr (not_lt.mp above)
    rw [abs_of_nonpos (by linarith), abs_of_nonpos (by linarith)]
    linarith

theorem postprocessAt_restored (found : postprocessAt pparam boxes scores labels i = some d) :
    ∃ x0 y0 x1 y1 label prob, d = restored pparam x0 y0 x1 y1 label prob := by
  simp only [postprocessAt, Option.bind_eq_bind, Option.bind_eq_some_iff, Option.pure_def,
    Option.some.injEq] at found
  obtain ⟨x0, -, y0, -, x1, -, y1, -, label, -, prob, -, rfl⟩ := found
  exact ⟨x0, y0, x1, y1, label, prob, rfl⟩

theorem abs_width_sub_le {a b n : Single} (first : 0 ≤ (a : ℚ) ∧ (a : ℚ) ≤ n)
    (second : 0 ≤ (b : ℚ) ∧ (b : ℚ) ≤ n)
    (pixels : 1 ≤ (n : ℚ)) : |(a : ℚ) + (b - a : Single) - b| ≤ 1 / 2 ^ 24 * n := by
  have rounded := Single.abs_round_sub_le ((b : ℚ) - a)
  have small : |(b : ℚ) - a| ≤ n := abs_le.mpr ⟨by linarith, by linarith⟩
  have same : (a : ℚ) + (b - a : Single) - b = single.round (b - a) - (b - a) := by
    rw [Single.coe_sub]
    ring
  rw [same]
  refine rounded.trans (max_le ?_ ?_)
  · linarith
  · linarith

end Restored

/-- The two objects are the same, but for this much at each corner. -/
structure Near (tolerance : ℚ) (o d : Detected ℚ) : Prop where
  left : |d.x - o.x| ≤ tolerance
  top : |d.y - o.y| ≤ tolerance
  right : |d.x + d.width - (o.x + o.width)| ≤ tolerance
  bottom : |d.y + d.height - (o.y + o.height)| ≤ tolerance
  label : d.label = o.label
  prob : d.prob = o.prob

namespace Letterboxed

variable (b : Letterboxed)

/-- Where a column and a row of the picture are in the network's. -/
def column (x : ℚ) : ℚ := x * (b.padw / b.pparam.width) + b.left

def row (y : ℚ) : ℚ := y * (b.padh / b.pparam.height) + b.top

/-- Where an object is in the network's picture. -/
def place (o : Detected ℚ) : List ℚ :=
  [b.column o.x, b.row o.y, b.column (o.x + o.width), b.row (o.y + o.height)]

end Letterboxed

/-- How far a corner may be off in the picture if the network is off by `δ` of its pixels. -/
def tolerance (δ : ℚ) (ratio : Single) : ℚ := 9 / 8 * (1 + δ) * ratio

section Coordinate

variable {n A : Int} {s x δ : ℚ} {p : Single} (side : Side n A s)

/-- `pparam.ratio` -/
def ratioOf (s : ℚ) : Single := 1 / Single.ofRat s

theorem abs_half_sub_le (k : Int) : |((k / 2 : Int) : ℚ) - (k : ℚ) / 2| ≤ 1 / 2 := by
  obtain ⟨q, rfl | rfl⟩ : ∃ q, k = 2 * q ∨ k = 2 * q + 1 := ⟨k / 2, by omega⟩
  · rw [Int.mul_ediv_cancel_left q two_ne_zero]
    norm_num
  · rw [show (2 * q + 1) / 2 = q by omega, abs_le]
    push_cast
    constructor <;> linarith

include side

theorem Side.abs_ratio_mul_sub_le : |(ratioOf s : ℚ) * s - 1| ≤ 1 / 2 ^ 22 ∧
    1 / 2 ^ 20 ≤ (ratioOf s : ℚ) := by
  have one : (1 : ℚ) ≤ n := by exact_mod_cast side.pixels.1
  have room : (A : ℚ) ≤ 2 ^ 16 := by exact_mod_cast side.room.2
  have factor := side.factor
  have large : s ≤ 2 ^ 16 := by
    have more : 1 * s ≤ n * s := by gcongr
    have fit := side.fit
    linarith
  obtain ⟨low, high⟩ := Single.round_between (x := s) (by linarith)
  have some : 0 < single.round s := by linarith
  have turned : 1 / single.round s * single.round s = 1 := one_div_mul_cancel some.ne'
  have least : 1 / 2 ^ 17 ≤ 1 / single.round s := one_div_le_one_div_of_le some (by linarith)
  obtain ⟨low', high'⟩ := Single.round_between (x := 1 / single.round s) (by linarith)
  have computed : (ratioOf s : ℚ) = single.round (1 / single.round s) := by
    rw [ratioOf, Single.coe_div, Single.coe_one]
    rfl
  have positive : 0 < single.round (1 / single.round s) := by linarith
  rw [computed]
  constructor
  · have below := mul_le_mul_of_nonneg_right low' some.le
    have above := mul_le_mul_of_nonneg_right high' some.le
    have low_mul := mul_le_mul_of_nonneg_left low positive.le
    have high_mul := mul_le_mul_of_nonneg_left high positive.le
    exact abs_le.mpr ⟨by linarith, by linarith⟩
  · linarith

theorem Side.scaled_mem (inside : 0 ≤ x ∧ x ≤ n) : 0 ≤ x * s ∧ x * s ≤ 2 ^ 16 := by
  have room : (A : ℚ) ≤ 2 ^ 16 := by exact_mod_cast side.room.2
  have factor : 0 < s := lt_of_lt_of_le (by norm_num) side.factor
  have part : x * s ≤ n * s := mul_le_mul_of_nonneg_right inside.2 factor.le
  exact ⟨mul_nonneg inside.1 factor.le, (part.trans side.fit).trans room⟩

theorem Side.le_ratio (inside : 0 ≤ x ∧ x ≤ n) : x ≤ 2 ^ 17 * ratioOf s := by
  obtain ⟨close, some⟩ := side.abs_ratio_mul_sub_le
  have part := mul_le_mul_of_nonneg_right (side.scaled_mem inside).2 (le_trans (by norm_num) some)
  have least := mul_le_mul_of_nonneg_left (abs_le.mp close).1 inside.1
  linarith

theorem Side.abs_mul_ratio_sub_le (inside : 0 ≤ x ∧ x ≤ n) : |x * s * ratioOf s - x| ≤
    ratioOf s / 32 := by
  obtain ⟨close, -⟩ := side.abs_ratio_mul_sub_le
  have apart : x * s * ratioOf s - x = x * (ratioOf s * s - 1) := by ring
  have size := side.le_ratio inside
  rw [apart, abs_mul, abs_of_nonneg inside.1]
  calc x * |(ratioOf s : ℚ) * s - 1| ≤ x * (1 / 2 ^ 22) := mul_le_mul_of_nonneg_left close inside.1
    _ ≤ ratioOf s / 32 := by linarith

/-- What the network sees is off by a pixel at most, for the rounding of the picture's size and
    of the border, and by what the network is off. -/
theorem Side.abs_seen_sub_le (inside : 0 ≤ x ∧ x ≤ n)
    (seen : |(p : ℚ) -
      (x * (stdRound (scaled n s) / n) + ((A - stdRound (scaled n s)) / 2 : Int))| ≤ δ)
    (some_pixels : 0 ≤ stdRound (scaled n s)) :
    |(p : ℚ) - border A (stdRound (scaled n s)) - x * s| ≤ 1 + 1 / 64 + δ := by
  have pixels : (0 : ℚ) < n := by exact_mod_cast side.pixels.1
  have half := abs_half_sub_le (A - stdRound (scaled n s))
  have pad := side.abs_pad_sub_le
  have part : |x / n| ≤ 1 := by
    rw [abs_of_nonneg (div_nonneg inside.1 pixels.le), div_le_one pixels]
    exact inside.2
  have shifted : |x * (stdRound (scaled n s) / n) - x * s| ≤ 1 / 2 + 1 / 64 := by
    have same : x * (stdRound (scaled n s) / n) - x * s =
        x / n * (stdRound (scaled n s) - n * s) := by
      field_simp
    rw [same, abs_mul]
    calc |x / n| * |(stdRound (scaled n s) : ℚ) - n * s| ≤ 1 * (1 / 2 + 1 / 64) := by gcongr
      _ = 1 / 2 + 1 / 64 := one_mul _
  rw [side.coe_border ⟨some_pixels, side.pad_le⟩]
  rw [abs_le] at *
  constructor <;> linarith

theorem Side.abs_restored_sub_le (inside : 0 ≤ x ∧ x ≤ n)
    (seen : |(p : ℚ) -
      (x * (stdRound (scaled n s) / n) + ((A - stdRound (scaled n s)) / 2 : Int))| ≤ δ)
    (some_pixels : 0 ≤ stdRound (scaled n s)) :
    |(clamp ((p - border A (stdRound (scaled n s))) * ratioOf s) 0 n : ℚ) - x| ≤
      tolerance δ (ratioOf s) - ratioOf s / 64 := by
  obtain ⟨-, some⟩ := side.abs_ratio_mul_sub_le
  have factor : 0 < (ratioOf s : ℚ) := lt_of_lt_of_le (by norm_num) some
  have off := side.abs_seen_sub_le inside seen some_pixels
  have back := side.abs_mul_ratio_sub_le inside
  obtain ⟨low, high⟩ := side.scaled_mem inside
  have positive : 0 ≤ δ := (abs_nonneg _).trans seen
  have bounds : ((0 : Single) : ℚ) ≤ x ∧ x ≤ ((n : Single) : ℚ) := by
    rwa [Single.coe_zero, coe_pixels side.pixels]
  set t : ℚ := p - border A (stdRound (scaled n s)) with t_eq
  have size : |t| ≤ 2 ^ 17 + δ := by
    rw [abs_le] at off ⊢
    constructor <;> linarith
  have rounded : |single.round (single.round t * ratioOf s) - t * ratioOf s| ≤
      (1 / 16 + δ / 2 ^ 22) * ratioOf s := by
    refine (Single.abs_mul_sub_le t (by linarith)).trans ?_
    rw [mul_comm]
    exact mul_le_mul_of_nonneg_right (by linarith) factor.le
  have shifted : |t * ratioOf s - x * s * ratioOf s| ≤ (1 + 1 / 64 + δ) * ratioOf s := by
    rw [← sub_mul, abs_mul, abs_of_pos factor]
    exact mul_le_mul_of_nonneg_right off factor.le
  have much : 0 ≤ δ * ratioOf s := mul_nonneg positive factor.le
  calc |(clamp ((p - border A (stdRound (scaled n s))) * ratioOf s) 0 n : ℚ) - x|
      ≤ |single.round (single.round t * ratioOf s) - x| := clamp_near bounds
    _ ≤ |single.round (single.round t * ratioOf s) - t * ratioOf s| + |t * ratioOf s -
    x * s * ratioOf s| +
        |x * s * ratioOf s - x| :=
          (abs_sub_le _ (x * s * ratioOf s) _).trans (by gcongr; exact abs_sub_le _ _ _)
    _ ≤ tolerance δ (ratioOf s) - ratioOf s / 64 := by
        rw [tolerance]
        linarith

theorem Side.sub_le_tolerance :
    tolerance δ (ratioOf s) - ratioOf s / 64 ≤ tolerance δ (ratioOf s) := by
  have some := side.abs_ratio_mul_sub_le.2
  linarith

theorem Side.one_le : 1 ≤ ((n : Single) : ℚ) := by
  rw [coe_pixels side.pixels]
  exact_mod_cast side.pixels.1

omit side in
theorem clamp_inside (pixels : 0 < n ∧ n ≤ 2 ^ 16) (val : Single) :
    0 ≤ (clamp val 0 n : ℚ) ∧ (clamp val 0 n : ℚ) ≤ (n : Single) := by
  have order : ((0 : Single) : ℚ) ≤ (n : Single) := by
    rw [Single.coe_zero, coe_pixels pixels]
    exact_mod_cast pixels.1.le
  obtain ⟨low, high⟩ := clamp_mem val (Single.coe_le.mp order)
  exact ⟨Single.coe_zero ▸ Single.coe_le.mpr low, Single.coe_le.mpr high⟩

theorem Side.abs_corner_sub_le {first second : Single} (inside : 0 ≤ x ∧ x ≤ n)
    (near : |(clamp second 0 n : ℚ) - x| ≤ tolerance δ (ratioOf s) - ratioOf s / 64) :
    |(clamp first 0 n : ℚ) + (clamp second 0 n - clamp first 0 n : Single) - x| ≤
      tolerance δ (ratioOf s) := by
  have width :=
    abs_width_sub_le (clamp_inside side.pixels first) (clamp_inside side.pixels second) side.one_le
  have whole := side.le_ratio (x := n) ⟨by exact_mod_cast side.pixels.1.le, le_rfl⟩
  rw [coe_pixels side.pixels] at width
  refine (abs_sub_le _ (clamp second 0 n : ℚ) _).trans ?_
  linarith

end Coordinate

section Objects

variable {rows cols : Int} {size : CvSize} {pparam : PreParam} {δ : ℚ}

theorem restored_inPicture (pixels : Pixels rows cols size) (height : pparam.height = rows)
    (width : pparam.width = cols) (x0 y0 x1 y1 : Single) (label : Int) (prob : Single) :
    InPicture rows cols (1 / 2 ^ 24) (restored pparam x0 y0 x1 y1 label prob).exact := by
  have across := clamp_inside pixels.cols
  have down := clamp_inside pixels.rows
  have corner {n : Int} {A : Int} {s : ℚ} (side : Side n A s) (a b : Single) :
      -(1 / 2 ^ 24) * (n : ℚ) ≤ (clamp a 0 n : ℚ) + (clamp b 0 n - clamp a 0 n : Single) ∧
        (clamp a 0 n : ℚ) + (clamp b 0 n - clamp a 0 n : Single) ≤ (1 + 1 / 2 ^ 24) * n := by
    have width :=
      abs_width_sub_le (clamp_inside side.pixels a) (clamp_inside side.pixels b) side.one_le
    have inside := clamp_inside side.pixels b
    rw [coe_pixels side.pixels] at width inside
    rw [abs_le] at width
    constructor <;> linarith
  rw [coe_pixels pixels.cols] at across
  rw [coe_pixels pixels.rows] at down
  constructor
  all_goals simp only [Detected.exact, restored, width, height]
  case left => exact across _
  case top => exact down _
  case right => exact corner pixels.horizontal _ _
  case bottom => exact corner pixels.vertical _ _

/-- The four numbers the network gives for an object, each of them off by `δ` at most. -/
def Seen (δ : ℚ) (boxes : List Single) (places : List ℚ) : Prop :=
  List.Forall₂ (fun (number : Single) (place : ℚ) => |(number : ℚ) - place| ≤ δ) boxes places

theorem restored_near (pixels : Pixels rows cols size)
    (some_pixels : ¬ ((fitted rows cols size).padw ≤ 0 ∨ (fitted rows cols size).padh ≤ 0))
    {o : Detected ℚ}
    (inside : InPicture rows cols 0 o) {x0 y0 x1 y1 score : Single} (prob : (score : ℚ) = o.prob)
    (seen : Seen δ [x0, y0, x1, y1] ((fitted rows cols size).place o)) :
    Near (tolerance δ (fitted rows cols size).pparam.ratio) o
      (restored (fitted rows cols size).pparam x0 y0 x1 y1 o.label score).exact := by
  simp only [Seen, Letterboxed.place, List.forall₂_cons, List.Forall₂.nil, and_true] at seen
  obtain ⟨first, second, third, fourth⟩ := seen
  rw [not_or, not_le, not_le] at some_pixels
  have width : ((fitted rows cols size).pparam.width : ℚ) = cols := coe_pixels pixels.cols
  have height : ((fitted rows cols size).pparam.height : ℚ) = rows := coe_pixels pixels.rows
  rw [Letterboxed.column, width] at first third
  rw [Letterboxed.row, height] at second fourth
  have right : 0 ≤ o.x + o.width ∧ o.x + o.width ≤ cols := by simpa using inside.right
  have bottom : 0 ≤ o.y + o.height ∧ o.y + o.height ≤ rows := by simpa using inside.bottom
  have left' := pixels.horizontal.abs_restored_sub_le inside.left first some_pixels.1.le
  have top' := pixels.vertical.abs_restored_sub_le inside.top second some_pixels.2.le
  have right' := pixels.horizontal.abs_restored_sub_le right third some_pixels.1.le
  have bottom' := pixels.vertical.abs_restored_sub_le bottom fourth some_pixels.2.le
  constructor
  case left => exact left'.trans pixels.horizontal.sub_le_tolerance
  case top => exact top'.trans pixels.vertical.sub_le_tolerance
  case right => exact pixels.horizontal.abs_corner_sub_le right right'
  case bottom => exact pixels.vertical.abs_corner_sub_le bottom bottom'
  case label => rfl
  case prob => exact prob

end Objects

section Lists

variable {pparam : PreParam} {x0 y0 x1 y1 score : Single} {boxes scores : List Single} {label : Int}
  {labels : List Int}

theorem postprocessAt_zero :
    postprocessAt pparam (x0 :: y0 :: x1 :: y1 :: boxes) (score :: scores) (label :: labels) 0 =
    some (restored pparam x0 y0 x1 y1 label score) := rfl

theorem postprocessAt_succ (i : Nat) :
    postprocessAt pparam (x0 :: y0 :: x1 :: y1 :: boxes) (score :: scores) (label ::
      labels) (i + 1) =
      postprocessAt pparam boxes scores labels i := by
  simp [postprocessAt, Nat.succ_mul]

theorem postprocess_cons (n : Nat) :
    postprocess pparam (n + 1 : Nat) (x0 :: y0 :: x1 :: y1 :: boxes) (score :: scores)
      (label :: labels) =
      (postprocess pparam n boxes scores labels).map (restored pparam x0 y0 x1 y1 label score ::
        ·) := by
  rw [postprocess, postprocess, Int.toNat_natCast, Int.toNat_natCast, List.range_succ_eq_map,
    List.mapM_cons, postprocessAt_zero, List.mapM_map]
  simp only [Function.comp_def, Nat.succ_eq_add_one, postprocessAt_succ]
  cases List.mapM (postprocessAt pparam boxes scores labels) (List.range n) <;> rfl

end Lists

/-- Objects of the picture that the network sees are found one after the other. -/
theorem postprocess_near {rows cols : Int} {size : CvSize} (pixels : Pixels rows cols size)
    (some_pixels : ¬ ((fitted rows cols size).padw ≤ 0 ∨ (fitted rows cols size).padh ≤ 0)) {δ : ℚ}
    {found : List (Detected ℚ)} {boxes scores : List Single}
    (inside : ∀ o ∈ found, InPicture rows cols 0 o)
    (seen : Seen δ boxes (found.flatMap (fitted rows cols size).place))
    (probs : scores.map Single.val = found.map Detected.prob) :
    ∃ out, postprocess (fitted rows cols size).pparam found.length boxes scores
      (found.map Detected.label) = some out ∧
      List.Forall₂ (Near (tolerance δ (fitted rows cols size).pparam.ratio)) found
      (out.map Detected.exact) := by
  induction found generalizing boxes scores with
  | nil => exact ⟨[], rfl, .nil⟩
  | cons o found ih =>
      simp only [Seen, List.flatMap_cons, Letterboxed.place, List.cons_append, List.nil_append,
        List.forall₂_cons_right_iff] at seen
      obtain ⟨x0, _, first, ⟨y0, _, second, ⟨x1, _, third, ⟨y1, boxes, fourth, rest, rfl⟩, rfl⟩,
        rfl⟩, rfl⟩ := seen
      obtain ⟨score, scores, rfl, prob, probs⟩ := List.map_eq_cons_iff.mp probs
      obtain ⟨out, ran, near⟩ := ih (fun o member => inside o (by simp [member])) rest probs
      refine ⟨restored (fitted rows cols size).pparam x0 y0 x1 y1 o.label score :: out, ?_, ?_⟩
      · rw [List.map_cons, List.length_cons, postprocess_cons, ran, Option.map_some]
      · refine .cons ?_ near
        exact restored_near pixels some_pixels (inside o (by simp)) prob
          (.cons first (.cons second (.cons third (.cons fourth .nil))))

/-- Whatever the network finds is put into the picture, and objects of the picture that it
    sees in its own picture, off by `δ` of its pixels, are back where they were, up to that,
    one pixel more and an eighth of both. -/
theorem postprocess_restores {rows cols : Int} {size : CvSize} {b : Letterboxed}
    (pixels : Pixels rows cols size)
    (some_picture : letterbox rows cols size = some b) :
    (∀ numDets boxes scores labels out, postprocess b.pparam numDets boxes scores labels =
      some out →
      ∀ d ∈ out, InPicture rows cols (1 / 2 ^ 24) d.exact) ∧
    ∀ (δ : ℚ) (found : List (Detected ℚ)) (boxes scores : List Single),
      (∀ o ∈ found, InPicture rows cols 0 o) →
      Seen δ boxes (found.flatMap b.place) → scores.map Single.val = found.map Detected.prob →
        ∃ out, postprocess b.pparam found.length boxes scores (found.map Detected.label) =
        some out ∧
          List.Forall₂ (Near (tolerance δ b.pparam.ratio)) found (out.map Detected.exact) := by
  rw [letterbox_eq pixels] at some_picture
  simp only [Option.ite_none_left_eq_some, Option.some.injEq] at some_picture
  obtain ⟨some_pixels, rfl⟩ := some_picture
  constructor
  · intro numDets boxes scores labels out ran d member
    obtain ⟨i, -, found⟩ := Object.mem_of_mapM ran member
    obtain ⟨x0, y0, x1, y1, label, prob, rfl⟩ := postprocessAt_restored found
    exact restored_inPicture pixels rfl rfl x0 y0 x1 y1 label prob
  · intro δ found boxes scores inside seen probs
    exact postprocess_near pixels some_pixels inside seen probs

/-- The camera's picture in the network's. -/
theorem letterbox_fullHd :
    letterbox 1080 1920 ⟨1280, 1280⟩ = some (fitted 1080 1920 ⟨1280, 1280⟩) := by
  rw [letterbox_eq fullHd]
  exact if_neg (fitted_thick fullHd (by decide) (by decide))

/-- An object a quarter of the picture in from each side. -/
def quarter : Detected ℚ := ⟨480, 270, 960, 540, 2, 3 / 4⟩

/-- It is seen half a pixel too far to the right. -/
theorem quarter_seen : Seen (1 / 2)
    [320.5, 460, 960.5, 820] ([quarter].flatMap (fitted 1080 1920 ⟨1280, 1280⟩).place) :=
  .cons (by decide +kernel)
    (.cons (by decide +kernel) (.cons (by decide +kernel) (.cons (by decide +kernel) .nil)))

theorem postprocess_restores_fullHd :
    (∀ numDets boxes scores labels out,
      postprocess (fitted 1080 1920 ⟨1280, 1280⟩).pparam numDets boxes scores labels = some out →
        ∀ d ∈ out, InPicture (1080 : Int) (1920 : Int) (1 / 2 ^ 24) d.exact) ∧
    ∃ out, postprocess (fitted 1080 1920 ⟨1280, 1280⟩).pparam 1 [320.5, 460, 960.5, 820] [0.75]
      [2] = some out ∧
      List.Forall₂ (Near (tolerance (1 / 2) (fitted 1080 1920 ⟨1280, 1280⟩).pparam.ratio)) [quarter]
        (out.map Detected.exact) := by
  obtain ⟨inside, restores⟩ := postprocess_restores fullHd letterbox_fullHd
  refine ⟨inside, restores (1 / 2) [quarter] [320.5, 460, 960.5, 820] [0.75] ?_ quarter_seen
    (by decide +kernel)⟩
  intro o member
  rw [List.mem_singleton.mp member]
  constructor <;> decide +kernel

end PtzAgx.Algs
