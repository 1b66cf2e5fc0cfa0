import Mathlib.Data.Nat.Bitwise
import Mathlib.Tactic.Common

/-! # Fixed-width words on natural numbers

An unsigned C value of `w` bits is a natural number below `2 ^ w`; `wrap` and
`wrapSub` are what C arithmetic leaves of a result. Signed values are integers.
-/

namespace PtzAgx.Words

/-- The value that remains of `n` in an unsigned type of `w` bits. -/
def wrap (w n : Nat) : Nat := n % 2 ^ w

/-- Unsigned subtraction of `w` bits, which wraps below zero. -/
def wrapSub (w a b : Nat) : Nat := (a + (2 ^ w - b % 2 ^ w)) % 2 ^ w

/-- The two's complement reading of an unsigned value of `w` bits. -/
def signed (w n : Nat) : Int :=
  if wrap w n < 2 ^ (w - 1) then wrap w n else (wrap w n : Int) - 2 ^ w

/-- The unsigned value of `w` bits an integer is converted to. -/
def unsigned (w : Nat) (z : Int) : Nat := (z % 2 ^ w).toNat

theorem wrap_of_lt {w n : Nat} (small : n < 2 ^ w) : wrap w n = n := Nat.mod_eq_of_lt small

theorem wrapSub_of_le {w a b : Nat} (le : b ≤ a) (small : a < 2 ^ w) : wrapSub w a b = a - b := by
  have bound : b < 2 ^ w := Nat.lt_of_le_of_lt le small
  have shifted : a + (2 ^ w - b) = a - b + 2 ^ w := by omega
  rw [wrapSub, Nat.mod_eq_of_lt bound, shifted, Nat.add_mod_right, Nat.mod_eq_of_lt (by omega)]

/-- The sign is lost again where the value is taken as an unsigned one. -/
theorem unsigned_signed (w n : Nat) : unsigned w (signed w n) = wrap w n := by
  have bound : wrap w n < 2 ^ w := Nat.mod_lt n (Nat.two_pow_pos w)
  have value : (signed w n) % (2 ^ w : Int) = wrap w n := by
    unfold signed
    split
    · exact Int.emod_eq_of_lt (Int.natCast_nonneg _) (by exact_mod_cast bound)
    · rw [Int.sub_emod_right]
      exact Int.emod_eq_of_lt (Int.natCast_nonneg _) (by exact_mod_cast bound)
  rw [unsigned, value, Int.toNat_natCast]

/-- Bytes put together, low byte first. -/
def littleEndian : List UInt8 → Nat
  | [] => 0
  | b :: bytes => b.toNat + 256 * littleEndian bytes

/-- The low `k` bytes of a value, low byte first. -/
def littleBytes : Nat → Nat → List UInt8
  | 0, _ => []
  | k + 1, n => UInt8.ofNat n :: littleBytes k (n / 256)

@[simp] theorem length_littleBytes (k n : Nat) : (littleBytes k n).length = k := by
  induction k generalizing n with
  | zero => rfl
  | succ k ih => rw [littleBytes, List.length_cons, ih]

theorem littleEndian_littleBytes (k n : Nat) : littleEndian (littleBytes k n) = n % 256 ^ k := by
  induction k generalizing n with
  | zero => rw [Nat.pow_zero, Nat.mod_one]; rfl
  | succ k ih =>
      have low : (UInt8.ofNat n).toNat = n % 256 := UInt8.toNat_ofNat'
      rw [littleBytes, littleEndian, ih, low, Nat.pow_succ', Nat.mod_mul]

theorem littleEndian_lt (bytes : List UInt8) : littleEndian bytes < 256 ^ bytes.length := by
  induction bytes with
  | nil => exact Nat.one_pos
  | cons b bytes ih =>
      have low := b.toNat_lt
      rw [littleEndian, List.length_cons, Nat.pow_succ']
      omega

theorem littleBytes_littleEndian (bytes : List UInt8) :
    littleBytes bytes.length (littleEndian bytes) = bytes := by
  induction bytes with
  | nil => rfl
  | cons b bytes ih =>
      have low := b.toNat_lt
      have first : UInt8.ofNat (littleEndian (b :: bytes)) = b := by
        apply UInt8.toNat_inj.mp
        rw [UInt8.toNat_ofNat', littleEndian]
        omega
      have later : littleEndian (b :: bytes) / 256 = littleEndian bytes := by
        rw [littleEndian]
        omega
      rw [List.length_cons, littleBytes, first, later, ih]

/-- The low `k` bytes of a value in the opposite order. -/
def swapBytes (k n : Nat) : Nat := littleEndian (littleBytes k n).reverse

theorem swapBytes_lt (k n : Nat) : swapBytes k n < 256 ^ k := by
  have bound := littleEndian_lt (littleBytes k n).reverse
  rwa [List.length_reverse, length_littleBytes] at bound

theorem swapBytes_swapBytes (k n : Nat) : swapBytes k (swapBytes k n) = n % 256 ^ k := by
  have back := littleBytes_littleEndian (littleBytes k n).reverse
  rw [List.length_reverse, length_littleBytes] at back
  rw [swapBytes, swapBytes, back, List.reverse_reverse, littleEndian_littleBytes]

/-- `htonl` on a little-endian machine. -/
def htonl (hostlong : UInt32) : UInt32 := UInt32.ofNat (swapBytes 4 hostlong.toNat)

theorem toNat_htonl (hostlong : UInt32) : (htonl hostlong).toNat = swapBytes 4 hostlong.toNat := by
  rw [htonl, UInt32.toNat_ofNat']
  exact Nat.mod_eq_of_lt (swapBytes_lt 4 hostlong.toNat)

@[simp] theorem htonl_htonl (hostlong : UInt32) : htonl (htonl hostlong) = hostlong := by
  apply UInt32.toNat_inj.mp
  rw [toNat_htonl, toNat_htonl, swapBytes_swapBytes]
  exact Nat.mod_eq_of_lt hostlong.toNat_lt

/-- Two bytes put together, high byte first. -/
def word16 (hi lo : UInt8) : UInt16 := (hi.toUInt16 <<< 8) ||| lo.toUInt16

theorem shiftLeft_or (hi lo : UInt8) :
    (hi.toNat <<< 8) ||| lo.toNat = 256 * hi.toNat + lo.toNat := by
  rw [← Nat.shiftLeft_add_eq_or_of_lt lo.toNat_lt, Nat.shiftLeft_eq]
  omega

theorem word16_toNat (hi lo : UInt8) : (word16 hi lo).toNat = 256 * hi.toNat + lo.toNat := by
  have high := hi.toNat_lt
  have shifted : hi.toNat <<< 8 % 2 ^ 16 = hi.toNat <<< 8 := by
    rw [Nat.shiftLeft_eq]
    omega
  have eight : (8 : UInt16).toNat % 16 = 8 := rfl
  simp only [word16, UInt16.toNat_or, UInt16.toNat_shiftLeft, UInt8.toNat_toUInt16]
  rw [eight, shifted, shiftLeft_or]

theorem word16_split (n : Nat) :
    (word16 (UInt8.ofNat (n / 256)) (UInt8.ofNat n)).toNat = wrap 16 n := by
  rw [word16_toNat, wrap]
  simp only [UInt8.toNat_ofNat']
  omega

theorem word16_bytes (x : UInt16) : word16 (x >>> 8).toUInt8 x.toUInt8 = x := by
  apply UInt16.toNat_inj.mp
  have bound := x.toNat_lt
  have high : (x >>> 8).toNat = x.toNat / 256 := by
    simp [UInt16.toNat_shiftRight, Nat.shiftRight_eq_div_pow]
  rw [word16_toNat]
  simp only [UInt16.toNat_toUInt8, high]
  omega

end PtzAgx.Words
