import Mathlib.Data.Int.Log
import Mathlib.Data.Rat.Floor
import Mathlib.Algebra.Order.Ring.Rat
import Mathlib.Tactic.Linarith
import Mathlib.Tactic.NormNum
import Mathlib.Tactic.Positivity
import Mathlib.Tactic.Ring

/-! # Binary floating point

Rounding of rational numbers to the nearest of a binary format, and single precision,
whose operations are the exact ones rounded. There are no infinities: a number too large
for the format is rounded as if the exponents went on.
-/

namespace PtzAgx

/-- The nearest integer, and the even one of two. -/
def roundEven (x : ℚ) : Int :=
  if x - ⌊x⌋ < 1 / 2 ∨ (x - ⌊x⌋ = 1 / 2 ∧ ⌊x⌋ % 2 = 0) then ⌊x⌋ else ⌊x⌋ + 1

theorem abs_roundEven_sub_le (x : ℚ) : |(roundEven x : ℚ) - x| ≤ 1 / 2 := by
  have low := Int.floor_le x
  have high := Int.lt_floor_add_one x
  rw [roundEven, abs_le]
  split
  · next down =>
    have half : x - ⌊x⌋ ≤ 1 / 2 := by
      rcases down with less | ⟨tie, -⟩
      · exact less.le
      · exact tie.le
    constructor <;> linarith
  · next up =>
    have half : 1 / 2 ≤ x - ⌊x⌋ := by
      rw [not_or, not_lt] at up
      exact up.1
    push_cast
    constructor <;> linarith

theorem roundEven_nearest (x : ℚ) (n : Int) : |(roundEven x : ℚ) - x| ≤ |n - x| := by
  by_cases same : n = roundEven x
  · rw [same]
  · have apart : (1 : ℚ) ≤ |(n : ℚ) - roundEven x| := by
      exact_mod_cast Int.one_le_abs (sub_ne_zero.mpr same)
    have near := abs_roundEven_sub_le x
    have through := abs_sub_le (n : ℚ) x (roundEven x)
    rw [abs_sub_comm x] at through
    linarith

/-- `bits` digits, and none that counts less than `2 ^ least`. -/
structure BinaryFormat where
  bits : Nat
  least : Int
  some_bits : 0 < bits

namespace BinaryFormat

variable (F : BinaryFormat)

/-- What the last digit of a number of that size counts. -/
def exponent (x : ℚ) : Int := max (Int.log 2 |x| + 1 - F.bits) F.least

def quantum (x : ℚ) : ℚ := 2 ^ F.exponent x

def round (x : ℚ) : ℚ := roundEven (x / F.quantum x) * F.quantum x

def Representable (x : ℚ) : Prop := ∃ m e : Int, x = m * 2 ^ e ∧ |m| ≤ 2 ^ F.bits ∧ F.least ≤ e

variable {F} {x y : ℚ}

theorem quantum_pos : 0 < F.quantum x := zpow_pos two_pos _

theorem abs_lt_quantum (x : ℚ) : |x| < 2 ^ F.bits * F.quantum x := by
  have above : |x| < 2 ^ (Int.log 2 |x| + 1) := by
    exact_mod_cast Int.lt_zpow_succ_log_self one_lt_two |x|
  calc |x| < 2 ^ (Int.log 2 |x| + 1) := above
    _ ≤ 2 ^ (F.bits + F.exponent x) := zpow_le_zpow_right₀ one_le_two (by unfold exponent; omega)
    _ = 2 ^ F.bits * F.quantum x := by rw [zpow_add₀ two_ne_zero, zpow_natCast, quantum]

theorem quantum_le (some : x ≠ 0) (coarse : F.exponent x ≠ F.least) :
    2 ^ (F.bits - 1) * F.quantum x ≤ |x| := by
  have below : (2 : ℚ) ^ Int.log 2 |x| ≤ |x| := by
    exact_mod_cast Int.zpow_log_le_self one_lt_two (abs_pos.mpr some)
  have digits := F.some_bits
  have top : ((F.bits - 1 : Nat) : Int) + F.exponent x = Int.log 2 |x| := by
    unfold exponent at coarse ⊢
    omega
  rwa [quantum, ← zpow_natCast, ← zpow_add₀ two_ne_zero, top]

theorem round_sub (x : ℚ) :
    F.round x - x = (roundEven (x / F.quantum x) - x / F.quantum x) * F.quantum x := by
  rw [round, sub_mul, div_mul_cancel₀ _ quantum_pos.ne']

theorem abs_round_sub_le_quantum (x : ℚ) : |F.round x - x| ≤ F.quantum x / 2 := by
  rw [round_sub, abs_mul, abs_of_pos quantum_pos]
  have near := mul_le_mul_of_nonneg_right (abs_roundEven_sub_le (x / F.quantum x))
      (quantum_pos (F := F) (x := x)).le
  linarith

theorem round_zero : F.round 0 = 0 := by simp [round, roundEven]

/-- The error of one rounding, relative to the number unless that is very small. -/
theorem abs_round_sub_le
    (x : ℚ) : |F.round x - x| ≤ max (|x| / 2 ^ F.bits) (2 ^ (F.least - 1)) := by
  by_cases some : x = 0
  · rw [some, round_zero, sub_self, abs_zero]
    exact le_max_of_le_right (zpow_nonneg zero_le_two _)
  · refine (abs_round_sub_le_quantum x).trans ?_
    by_cases fine : F.exponent x = F.least
    · apply le_max_of_le_right
      rw [quantum, fine, zpow_sub_one₀ two_ne_zero, div_eq_mul_inv]
    · apply le_max_of_le_left
      have first := quantum_le some fine
      have power : (2 : ℚ) ^ F.bits = 2 * 2 ^ (F.bits - 1) := by
        rw [← pow_succ', Nat.sub_add_cancel F.some_bits]
      rw [le_div_iff₀ (by positivity), power]
      linarith

theorem representable_round (x : ℚ) : F.Representable (F.round x) := by
  refine ⟨roundEven (x / F.quantum x), F.exponent x, rfl, ?_, le_max_right _ _⟩
  have inside : |x / F.quantum x| < 2 ^ F.bits := by
    rw [abs_div, abs_of_pos quantum_pos, div_lt_iff₀ quantum_pos]
    exact abs_lt_quantum x
  have near := abs_roundEven_sub_le (x / F.quantum x)
  have through := abs_sub_abs_le_abs_sub (roundEven (x / F.quantum x) : ℚ) (x / F.quantum x)
  have less : |(roundEven (x / F.quantum x) : ℚ)| < 2 ^ F.bits + 1 := by linarith
  exact Int.lt_add_one_iff.mp (by exact_mod_cast less)

theorem round_nearest_multiple (x : ℚ) (n : Int) : |F.round x - x| ≤ |n * F.quantum x - x| := by
  have apart : n * F.quantum x - x = (n - x / F.quantum x) * F.quantum x := by
    rw [sub_mul, div_mul_cancel₀ _ quantum_pos.ne']
  rw [round_sub, apart, abs_mul, abs_mul]
  exact mul_le_mul_of_nonneg_right (roundEven_nearest _ n) (abs_nonneg _)

theorem abs_start_sub (first : 2 ^ (F.bits - 1) * F.quantum x ≤ |x|) :
    ∃ n : Int, |n * F.quantum x - x| = |x| - 2 ^ (F.bits - 1) * F.quantum x := by
  rcases le_total 0 x with positive | negative
  · rw [abs_of_nonneg positive] at first ⊢
    refine ⟨2 ^ (F.bits - 1), ?_⟩
    push_cast
    rw [abs_sub_comm, abs_of_nonneg (by linarith)]
  · rw [abs_of_nonpos negative] at first ⊢
    refine ⟨-2 ^ (F.bits - 1), ?_⟩
    push_cast
    rw [abs_of_nonneg (by linarith)]
    ring

/-- No number of the format is nearer than what is rounded to. -/
theorem round_nearest (number : F.Representable y) : |F.round x - x| ≤ |y - x| := by
  obtain ⟨m, e, rfl, digits, least⟩ := number
  by_cases some : x = 0
  · rw [some, round_zero, sub_self, abs_zero]
    exact abs_nonneg _
  · rcases le_or_gt (F.exponent x) e with coarse | fine
    · obtain ⟨k, rfl⟩ := Int.exists_add_of_le coarse
      have multiple : (m : ℚ) * 2 ^ (F.exponent x + k) = ((m * 2 ^ k : Int) : ℚ) * F.quantum x := by
        rw [quantum, zpow_add₀ two_ne_zero, zpow_natCast]
        push_cast
        ring
      rw [multiple]
      exact round_nearest_multiple x _
    · -- A finer number is nearer to zero than the power of two that `x` starts with.
      have first := quantum_le some (by omega : F.exponent x ≠ F.least)
      obtain ⟨n, start⟩ := abs_start_sub first
      have small : |(m : ℚ) * 2 ^ e| ≤ 2 ^ (F.bits - 1) * F.quantum x := by
        have positive : (0 : ℚ) < 2 ^ e := zpow_pos two_pos _
        have power := F.some_bits
        calc |(m : ℚ) * 2 ^ e| = |(m : ℚ)| * 2 ^ e := by rw [abs_mul, abs_of_pos positive]
          _ ≤ 2 ^ F.bits * 2 ^ e := by
              have digits' : |(m : ℚ)| ≤ 2 ^ F.bits := by exact_mod_cast digits
              gcongr
          _ = 2 ^ ((F.bits - 1 : Nat) + (e + 1) : Int) := by
              rw [← zpow_natCast, ← zpow_add₀ two_ne_zero]
              congr 1
              omega
          _ ≤ 2 ^ ((F.bits - 1 : Nat) + F.exponent x : Int) :=
            zpow_le_zpow_right₀ one_le_two (by omega)
          _ = 2 ^ (F.bits - 1) * F.quantum x := by rw [zpow_add₀ two_ne_zero, zpow_natCast, quantum]
      have multiple := round_nearest_multiple (F := F) x n
      have apart := abs_sub_abs_le_abs_sub x (m * 2 ^ e)
      rw [abs_sub_comm x] at apart
      linarith

theorem round_eq (number : F.Representable x) : F.round x = x := by
  have near := round_nearest (x := x) number
  rw [sub_self, abs_zero, abs_nonpos_iff, sub_eq_zero] at near
  exact near

/-- The nearer of two numbers is on the same side of what is between them. -/
theorem add_le_of_nearer {a b x : ℚ} (nearer : |a - x| ≤ |b - x|) (less : b < a) :
    a + b ≤ 2 * x := by
  by_contra before
  have farther : |b - x| < a - x := abs_lt.mpr ⟨by linarith, by linarith⟩
  exact absurd (le_abs_self (a - x)) (by linarith)

theorem round_mono (order : x ≤ y) : F.round x ≤ F.round y := by
  by_contra turned
  rw [not_le] at turned
  -- Were the order turned around, both numbers would be halfway, and so the same.
  have above := add_le_of_nearer (round_nearest (x := x) (representable_round y)) turned
  have below := add_le_of_nearer (a := -F.round y) (b := -F.round x) (x := -y)
    (by simpa only [neg_sub_neg, abs_sub_comm] using round_nearest (x := y) (representable_round x))
    (by linarith)
  have same : x = y := by linarith
  rw [same] at turned
  exact lt_irrefl _ turned

theorem monotone_round : Monotone F.round := fun _ _ => round_mono

theorem representable_mul {m e : Int} (digits : |m| ≤ 2 ^ F.bits) (least : F.least ≤ e) :
    F.Representable (m * 2 ^ e) :=
  ⟨m, e, rfl, digits, least⟩

end BinaryFormat

/-- `float` -/
def single : BinaryFormat := ⟨24, -149, by decide⟩

@[ext]
structure Single where
  val : ℚ
  number : single.Representable val
  deriving Repr, DecidableEq

namespace Single

instance : LinearOrder Single := LinearOrder.lift' val fun _ _ => Single.ext

instance : Coe Single ℚ := ⟨val⟩

/-- What an exact result becomes. -/
def ofRat (x : ℚ) : Single := ⟨single.round x, BinaryFormat.representable_round x⟩

instance : Add Single := ⟨fun a b => ofRat (a + b)⟩

instance : Sub Single := ⟨fun a b => ofRat (a - b)⟩

instance : Mul Single := ⟨fun a b => ofRat (a * b)⟩

instance : Div Single := ⟨fun a b => ofRat (a / b)⟩

instance : IntCast Single := ⟨fun n => ofRat n⟩

instance {n : Nat} : OfNat Single n := ⟨ofRat n⟩

instance : OfScientific Single :=
  ⟨fun mantissa negative exponent => ofRat (OfScientific.ofScientific mantissa negative exponent)⟩

/-- The conversion to an integer, towards zero. -/
def toInt (a : Single) : Int := if 0 ≤ (a : ℚ) then ⌊(a : ℚ)⌋ else ⌈(a : ℚ)⌉

section Operations

variable {a b : Single}

theorem coe_add : ((a + b : Single) : ℚ) = single.round (a + b) := rfl

theorem coe_sub : ((a - b : Single) : ℚ) = single.round (a - b) := rfl

theorem coe_mul : ((a * b : Single) : ℚ) = single.round (a * b) := rfl

theorem coe_div : ((a / b : Single) : ℚ) = single.round (a / b) := rfl

theorem coe_le : (a : ℚ) ≤ b ↔ a ≤ b := Iff.rfl

theorem coe_min : ((min a b : Single) : ℚ) = min (a : ℚ) b := by
  rcases le_total a b with order | order
  · rw [min_eq_left order, min_eq_left (coe_le.mpr order)]
  · rw [min_eq_right order, min_eq_right (coe_le.mpr order)]

end Operations

section Errors

variable {x : ℚ}

theorem abs_round_sub_le (x : ℚ) : |single.round x - x| ≤ max (|x| / 2 ^ 24) (1 / 2 ^ 150) := by
  have bound := BinaryFormat.abs_round_sub_le (F := single) x
  have least : (2 : ℚ) ^ (single.least - 1) = 1 / 2 ^ 150 := by norm_num [single]
  rwa [least] at bound

theorem round_between (normal : 1 / 2 ^ 126 ≤ x) :
    x * (1 - 1 / 2 ^ 24) ≤ single.round x ∧ single.round x ≤ x * (1 + 1 / 2 ^ 24) := by
  have positive : 0 < x := lt_of_lt_of_le (by norm_num) normal
  have relative : (1 / 2 ^ 150 : ℚ) ≤ |x| / 2 ^ 24 := by
    rw [abs_of_pos positive]
    linarith
  have bound := abs_round_sub_le x
  rw [max_eq_left relative, abs_of_pos positive] at bound
  obtain ⟨low, high⟩ := abs_le.mp bound
  constructor <;> linarith

theorem abs_mul_sub_le {c : ℚ} (x : ℚ) (factor : 1 / 2 ^ 40 ≤ c) :
    |single.round (single.round x * c) - x * c| ≤ c * (|x| / 2 ^ 22 + 1 / 2 ^ 100) := by
  have some : 0 < c := by linarith
  have first := (abs_round_sub_le x).trans (max_le_add_of_nonneg (by positivity) (by positivity))
  have second := (abs_round_sub_le (single.round x * c)).trans (max_le_add_of_nonneg (by positivity)
    (by positivity))
  have size : |single.round x| ≤ |x| + |single.round x - x| := by
    have part := abs_sub_abs_le_abs_sub (single.round x) x
    linarith
  rw [abs_mul, abs_of_pos some] at second
  calc |single.round (single.round x * c) - x * c|
      ≤ |single.round (single.round x * c) - single.round x * c| + |single.round x * c - x * c| :=
        abs_sub_le _ _ _
    _ = |single.round (single.round x * c) - single.round x * c| + |single.round x - x| * c := by
        rw [← sub_mul, abs_mul, abs_of_pos some]
    _ ≤ c * (|x| / 2 ^ 22 + 1 / 2 ^ 100) := by
        have error := mul_le_mul_of_nonneg_right first some.le
        have rounded := mul_le_mul_of_nonneg_right size some.le
        have positive : 0 ≤ |x| * c := by positivity
        linarith

theorem round_intCast {n : Int} (small : |n| ≤ 2 ^ 24) : single.round n = n := by
  have number := BinaryFormat.representable_mul (F := single) (e := 0) small (by decide)
  rw [zpow_zero, mul_one] at number
  exact BinaryFormat.round_eq number

theorem round_half {n : Int} (small : |n| ≤ 2 ^ 24) : single.round (n / 2) = n / 2 := by
  have number := BinaryFormat.representable_mul (F := single) (e := -1) small (by decide)
  rw [zpow_neg_one, ← div_eq_mul_inv] at number
  exact BinaryFormat.round_eq number

theorem coe_intCast {n : Int} (small : |n| ≤ 2 ^ 24) : ((n : Single) : ℚ) = n := round_intCast small

theorem coe_zero : ((0 : Single) : ℚ) = 0 := BinaryFormat.round_zero

theorem coe_one : ((1 : Single) : ℚ) = 1 := by exact_mod_cast coe_intCast (n := 1) (by decide)

theorem coe_ofNat (n : Nat) [n.AtLeastTwo] (small : n ≤ 2 ^ 24) :
    ((OfNat.ofNat n : Single) : ℚ) = OfNat.ofNat n := by
  have number : single.round (n : Int) = (n : Int) :=
    round_intCast (by rw [Nat.abs_cast]; exact_mod_cast small)
  exact_mod_cast number

theorem toInt_intCast {n : Int} (small : |n| ≤ 2 ^ 24) : (n : Single).toInt = n := by
  simp [toInt, coe_intCast small]

theorem abs_toInt_sub_lt (a : Single) : |(a.toInt : ℚ) - a| < 1 := by
  rw [toInt, abs_lt]
  split
  · have low := Int.floor_le (a : ℚ)
    have high := Int.lt_floor_add_one (a : ℚ)
    constructor <;> linarith
  · have low := Int.le_ceil (a : ℚ)
    have high := Int.ceil_lt_add_one (a : ℚ)
    constructor <;> linarith

end Errors

end Single

end PtzAgx
