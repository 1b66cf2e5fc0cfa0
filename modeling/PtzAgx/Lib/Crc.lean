import Mathlib.Data.Nat.Bitwise
import Mathlib.Tactic.Common
import Mathlib.Tactic.Ring

/-! # Reflected cyclic redundancy checks, bit by bit

The register is a number of `w` bits and the polynomial one whose highest bit is
set. A message is the list of its bits in the order in which they are sent, the
lowest bit of a byte first. A step is linear, and going back from a register that
is still small there is only one way, so a message that differs from another in
one window of `w` bits leaves another register behind.
-/

namespace PtzAgx.Crc

/-- What one bit of message does to the register. -/
def step (poly r : Nat) (b : Bool) : Nat := (r >>> 1) ^^^ if r.testBit 0 ^^ b then poly else 0

def run (poly r : Nat) (bits : List Bool) : Nat := bits.foldl (step poly) r

/-- The number with these bits, lowest first. -/
def ofBits : List Bool → Nat
  | [] => 0
  | b :: bits => b.toNat + 2 * ofBits bits

/-- The bits of a byte, lowest first. -/
def byteBits (b : UInt8) : List Bool := (List.range 8).map b.toNat.testBit

def bytesBits (bytes : List UInt8) : List Bool := bytes.flatMap byteBits

section Linear

variable (poly : Nat)

theorem run_append (r : Nat) (front back : List Bool) :
    run poly r (front ++ back) = run poly (run poly r front) back :=
  List.foldl_append

theorem step_xor (r s : Nat) (b c : Bool) :
    step poly (r ^^^ s) (b ^^ c) = step poly r b ^^^ step poly s c := by
  unfold step
  have bits : ((r ^^^ s).testBit 0 ^^ (b ^^ c)) = ((r.testBit 0 ^^ b) ^^ (s.testBit 0 ^^ c)) := by
    rw [Nat.testBit_xor]
    cases r.testBit 0 <;> cases s.testBit 0 <;> cases b <;> cases c <;> rfl
  rw [bits, Nat.shiftRight_xor_distrib]
  cases r.testBit 0 ^^ b with
  | false =>
      cases s.testBit 0 ^^ c with
      | false => simp
      | true => simp [Nat.xor_assoc]
  | true =>
      cases s.testBit 0 ^^ c with
      | false => simp [Nat.xor_assoc, Nat.xor_comm poly]
      | true =>
          have cancel : r >>> 1 ^^^ poly ^^^ (s >>> 1 ^^^ poly) = r >>> 1 ^^^ s >>> 1 := by
            rw [Nat.xor_assoc, ← Nat.xor_assoc poly, Nat.xor_comm poly, Nat.xor_assoc (s >>> 1),
              Nat.xor_self, Nat.xor_zero]
          simp [cancel]

theorem run_xor (r s : Nat) {bs cs : List Bool} (same : bs.length = cs.length) :
    run poly (r ^^^ s) (List.zipWith (· ^^ ·) bs cs) = run poly r bs ^^^ run poly s cs := by
  induction bs generalizing r s cs with
  | nil =>
      cases cs with
      | nil => rfl
      | cons c cs => cases same
  | cons b bs ih =>
      cases cs with
      | nil => cases same
      | cons c cs =>
          have tails := ih (step poly r b) (step poly s c) (Nat.succ.inj same)
          rw [← step_xor] at tails
          exact tails

/-- A step that meets its own bit only shifts. -/
theorem step_own (b : Bool) (x : Nat) : step poly (b.toNat + 2 * x) b = x := by
  unfold step
  cases b with
  | false =>
      have even : (false.toNat + 2 * x).testBit 0 = false := by simp
      rw [even, Nat.shiftRight_one]
      simp
  | true =>
      have odd : (true.toNat + 2 * x).testBit 0 = true := by simp [Nat.add_mod]
      rw [odd, Nat.shiftRight_one]
      simp
      omega

theorem run_own (bits : List Bool) (x : Nat) :
    run poly (ofBits bits + 2 ^ bits.length * x) bits = x := by
  induction bits generalizing x with
  | nil => simp [run, ofBits]
  | cons b bits ih =>
      have front : ofBits (b :: bits) + 2 ^ (b :: bits).length * x =
          b.toNat + 2 * (ofBits bits + 2 ^ bits.length * x) := by
        rw [ofBits, List.length_cons, Nat.pow_succ]
        ring_nf
      rw [front]
      show run poly (step poly _ b) bits = x
      rw [step_own, ih]

end Linear

theorem ofBits_lt (bits : List Bool) : ofBits bits < 2 ^ bits.length := by
  induction bits with
  | nil => decide
  | cons b bits ih =>
      have low : b.toNat ≤ 1 := Bool.toNat_le b
      rw [ofBits, List.length_cons, Nat.pow_succ]
      omega

theorem ofBits_eq_zero {bits : List Bool} (zero : ofBits bits = 0) : ∀ b ∈ bits, b = false := by
  induction bits with
  | nil => exact fun b member => absurd member List.not_mem_nil
  | cons c bits ih =>
      rw [ofBits] at zero
      intro b member
      cases member with
      | head =>
          cases c with
          | false => rfl
          | true => simp at zero
      | tail _ later => exact ih (by omega) b later

theorem ofBits_append (front back : List Bool) :
    ofBits (front ++ back) = ofBits front + 2 ^ front.length * ofBits back := by
  induction front with
  | nil => simp [ofBits]
  | cons b front ih =>
      rw [List.cons_append, ofBits, ih, ofBits, List.length_cons, Nat.pow_succ]
      ring_nf

@[simp] theorem length_byteBits (b : UInt8) : (byteBits b).length = 8 := by
  simp [byteBits]

theorem ofBits_byteBits (b : UInt8) : ofBits (byteBits b) = b.toNat := by
  have each : ∀ i : Fin 256, ofBits (byteBits (UInt8.ofNat i)) = i := by decide +kernel
  have this := each ⟨b.toNat, b.toNat_lt⟩
  rwa [UInt8.ofNat_toNat] at this

theorem byteBits_injective {b c : UInt8} (same : byteBits b = byteBits c) : b = c := by
  rw [← UInt8.toNat_inj, ← ofBits_byteBits, ← ofBits_byteBits, same]

theorem bytesBits_cons (b : UInt8) (bytes : List UInt8) :
    bytesBits (b :: bytes) = byteBits b ++ bytesBits bytes :=
  List.flatMap_cons

theorem length_bytesBits (bytes : List UInt8) : (bytesBits bytes).length = 8 * bytes.length := by
  induction bytes with
  | nil => rfl
  | cons b bytes ih =>
      rw [bytesBits_cons, List.length_append, length_byteBits, ih, List.length_cons]
      omega

theorem bytesBits_injective {bytes bytes' : List UInt8}
    (same : bytesBits bytes = bytesBits bytes') : bytes = bytes' := by
  have lengths := congrArg List.length same
  rw [length_bytesBits, length_bytesBits] at lengths
  induction bytes generalizing bytes' with
  | nil => exact (List.length_eq_zero_iff.mp (by simpa using lengths.symm)).symm
  | cons b bytes ih =>
      cases bytes' with
      | nil => simp at lengths
      | cons b' bytes' =>
          rw [bytesBits_cons, bytesBits_cons] at same
          obtain ⟨first, rest⟩ := List.append_inj same (by simp)
          rw [byteBits_injective first, ih rest (by simpa using lengths)]

theorem eq_of_xor {bs cs : List Bool} (same : bs.length = cs.length)
    (none_set : ∀ b ∈ List.zipWith (· ^^ ·) bs cs, b = false) : bs = cs := by
  apply List.ext_getElem same
  intro i left right
  have member : (bs[i] ^^ cs[i]) ∈ List.zipWith (· ^^ ·) bs cs := by
    rw [← List.getElem_zipWith (f := (· ^^ ·)) (h := by rw [List.length_zipWith]; omega)]
    exact List.getElem_mem _
  simpa using none_set _ member

/-! ## Going back -/

section Back

variable {w poly : Nat} (bound : poly < 2 ^ w) (top : poly.testBit (w - 1) = true)

include bound in
theorem step_lt {r : Nat} (small : r < 2 ^ w) (b : Bool) : step poly r b < 2 ^ w := by
  unfold step
  apply Nat.xor_lt_two_pow
  · rw [Nat.shiftRight_one]
    omega
  · split
    · exact bound
    · exact Nat.two_pow_pos w

include bound top in
/-- A register without its highest bit has not met the polynomial. -/
theorem step_back {r : Nat} {b : Bool} (positive : 0 < w) (small : r < 2 ^ w)
    (low : step poly r b < 2 ^ (w - 1)) :
    r = b.toNat + 2 * step poly r b := by
  have half : r >>> 1 < 2 ^ (w - 1) := by
    obtain ⟨k, rfl⟩ := Nat.exists_eq_succ_of_ne_zero (Nat.pos_iff_ne_zero.mp positive)
    rw [Nat.succ_eq_add_one, Nat.pow_succ] at small
    rw [Nat.shiftRight_one, Nat.succ_eq_add_one, Nat.add_sub_cancel]
    omega
  have lowBit : r % 2 = (r.testBit 0).toNat := by
    rw [Nat.testBit_zero]; cases Nat.mod_two_eq_zero_or_one r <;> simp [*]
  by_cases met : (r.testBit 0 ^^ b) = true
  · have high : (step poly r b).testBit (w - 1) = true := by
      unfold step
      rw [if_pos met, Nat.testBit_xor, Nat.testBit_lt_two_pow half, top]
      rfl
    rw [Nat.testBit_lt_two_pow low] at high
    cases high
  · have own : r.testBit 0 = b := by
      revert met
      cases r.testBit 0 <;> cases b <;> decide
    have shifted : step poly r b = r / 2 := by
      unfold step
      rw [if_neg met, Nat.xor_zero, Nat.shiftRight_one]
    rw [own] at lowBit
    omega

include bound top in
theorem run_back {r : Nat} {bits : List Bool} (small : r < 2 ^ w) (short : bits.length ≤ w)
    (zero : run poly r bits = 0) :
    r = ofBits bits := by
  induction bits generalizing r with
  | nil => exact zero
  | cons b bits ih =>
      rw [List.length_cons] at short
      have next := ih (step_lt bound small b) (by omega) zero
      have low : step poly r b < 2 ^ (w - 1) := by
        rw [next]
        exact Nat.lt_of_lt_of_le (ofBits_lt bits) (Nat.pow_le_pow_right (by decide) (by omega))
      rw [step_back bound top (by omega) small low, next, ofBits]

include bound top in
theorem run_zeros {r : Nat} {bits : List Bool} (positive : 0 < w) (small : r < 2 ^ w)
    (zeros : ∀ b ∈ bits, b = false)
    (zero : run poly r bits = 0) : r = 0 := by
  induction bits generalizing r with
  | nil => exact zero
  | cons b bits ih =>
      obtain rfl := zeros b List.mem_cons_self
      have next := ih (step_lt bound small false)
        (fun c later => zeros c (List.mem_cons_of_mem false later)) zero
      have low : step poly r false < 2 ^ (w - 1) := by
        rw [next]
        exact Nat.two_pow_pos (w - 1)
      rw [step_back bound top positive small low, next]
      rfl

theorem run_zero_zeros (poly : Nat) {bits : List Bool} (zeros : ∀ b ∈ bits, b = false) :
    run poly 0 bits = 0 := by
  induction bits with
  | nil => rfl
  | cons b bits ih =>
      obtain rfl := zeros b List.mem_cons_self
      have still : step poly 0 false = 0 := step_own poly false 0
      show run poly (step poly 0 false) bits = 0
      rw [still]
      exact ih fun c later => zeros c (List.mem_cons_of_mem false later)

include bound top in
/-- Bits that are set in one window of `w` only do not cancel out. -/
theorem burst_detected {bits : List Bool} {s : Nat} (positive : 0 < w)
    (window : ∀ i, bits[i]? = some true → s ≤ i ∧ i < s + w) (zero : run poly 0 bits = 0) :
    ∀ b ∈ bits, b = false := by
  have clear (part : List Bool) (outside : ∀ i : Nat, part[i]? ≠ some true) :
      ∀ b ∈ part, b = false := by
    intro b member
    obtain ⟨i, found⟩ := List.mem_iff_getElem?.mp member
    cases b with
    | false => rfl
    | true => exact absurd found (outside i)
  have front : ∀ b ∈ bits.take s, b = false := by
    refine clear _ fun i found => ?_
    rw [List.getElem?_take] at found
    split at found
    · have := window i found
      omega
    · cases found
  have back : ∀ b ∈ bits.drop (s + w), b = false := by
    refine clear _ fun i found => ?_
    rw [List.getElem?_drop] at found
    have := window _ found
    omega
  have parts : bits = bits.take s ++ ((bits.drop s).take w ++ bits.drop (s + w)) := by
    rw [← List.drop_drop, List.take_append_drop, List.take_append_drop]
  have before : run poly 0 (bits.take s) = 0 := run_zero_zeros poly front
  rw [parts, run_append, before, run_append] at zero
  have short : ((bits.drop s).take w).length ≤ w := List.length_take_le w _
  have bounded : ∀ (r : Nat) (bs : List Bool), r < 2 ^ w → run poly r bs < 2 ^ w := by
    intro r bs small
    induction bs generalizing r with
    | nil => exact small
    | cons b bs ih => exact ih _ (step_lt bound small b)
  have inner := run_zeros bound top positive (bounded 0 _ (Nat.two_pow_pos w)) back zero
  have middle := ofBits_eq_zero (run_back bound top (Nat.two_pow_pos w) short inner).symm
  intro b member
  rw [parts] at member
  rcases List.mem_append.mp member with early | rest
  · exact front b early
  · exact (List.mem_append.mp rest).elim (middle b) (back b)

end Back

end PtzAgx.Crc
