import PtzAgx.Lib.Words

/-! # Sums of bytes, and one byte that differs

Bytes added up in a 32-bit word. A change of one byte changes the sum by less
than 256, so it is never a multiple of the modulus.
-/

namespace PtzAgx.Checksum

open Words

/-- They are equally long and differ at place `i`, there only. -/
structure DiffersAt {β : Type} (i : Nat) (o o' : List β) : Prop where
  length : o'.length = o.length
  here : o'[i]? ≠ o[i]?
  elsewhere : ∀ j, j ≠ i → o'[j]? = o[j]?

section Windows

variable {β : Type} {i : Nat} {o o' : List β}

theorem DiffersAt.inside (differs : DiffersAt i o o') : i < o.length := by
  apply Nat.lt_of_not_le
  intro outside
  apply differs.here
  rw [List.getElem?_eq_none outside, List.getElem?_eq_none (differs.length.trans_le outside)]

theorem DiffersAt.ne (differs : DiffersAt i o o') : o' ≠ o :=
  fun same => differs.here (congrArg (·[i]?) same)

theorem DiffersAt.take_eq {n : Nat} (differs : DiffersAt i o o') (before : n ≤ i) :
    o'.take n = o.take n := by
  apply List.ext_getElem?
  intro j
  rw [List.getElem?_take, List.getElem?_take]
  split
  · exact differs.elsewhere j (by omega)
  · rfl

theorem DiffersAt.drop_eq {n : Nat} (differs : DiffersAt i o o') (after : i < n) :
    o'.drop n = o.drop n := by
  apply List.ext_getElem?
  intro j
  rw [List.getElem?_drop, List.getElem?_drop]
  exact differs.elsewhere (n + j) (by omega)

theorem DiffersAt.window {k n : Nat} (differs : DiffersAt i o o') (from_start : k ≤ i)
    (to_end : i < k + n) :
    DiffersAt (i - k) ((o.drop k).take n) ((o'.drop k).take n) where
  length := by
    rw [List.length_take, List.length_take, List.length_drop, List.length_drop, differs.length]
  here := by
    have place : k + (i - k) = i := by omega
    rw [List.getElem?_take_of_lt (by omega), List.getElem?_take_of_lt (by omega),
      List.getElem?_drop, List.getElem?_drop, place]
    exact differs.here
  elsewhere j other := by
    rw [List.getElem?_take, List.getElem?_take, List.getElem?_drop, List.getElem?_drop]
    split
    · exact differs.elsewhere (k + j) (by omega)
    · rfl

theorem DiffersAt.split (differs : DiffersAt i o o') :
    ∃ b b', b' ≠ b ∧ o = o.take i ++ b :: o.drop (i + 1) ∧
      o' = o.take i ++ b' :: o.drop (i + 1) := by
  have inside := differs.inside
  have inside' : i < o'.length := differs.length ▸ inside
  refine ⟨o[i], o'[i], ?_, ?_, ?_⟩
  · intro same
    apply differs.here
    rw [List.getElem?_eq_getElem inside, List.getElem?_eq_getElem inside', same]
  · rw [← List.drop_eq_getElem_cons inside, List.take_append_drop]
  · rw [← differs.take_eq (Nat.le_refl i), ← differs.drop_eq (Nat.lt_succ_self i),
      ← List.drop_eq_getElem_cons inside', List.take_append_drop]

end Windows

/-! ## Sums -/

/-- The bytes added up from `sum` on. -/
def byteSum (sum : UInt32) (bytes : List UInt8) : UInt32 :=
  bytes.foldl (fun sum b => sum + b.toUInt32) sum

section Sum

variable {i : Nat} {bytes bytes' : List UInt8}

theorem byteSum_start (sum : UInt32) (bytes : List UInt8) :
    byteSum sum bytes = sum + byteSum 0 bytes := by
  induction bytes generalizing sum with
  | nil => simp [byteSum]
  | cons b bytes ih =>
      have first : byteSum sum (b :: bytes) = byteSum (sum + b.toUInt32) bytes := rfl
      have alone : byteSum 0 (b :: bytes) = byteSum (0 + b.toUInt32) bytes := rfl
      rw [first, alone, ih, ih (0 + b.toUInt32), UInt32.zero_add, UInt32.add_assoc]

theorem byteSum_around (sum : UInt32) (front : List UInt8) (b : UInt8) (back : List UInt8) :
    byteSum sum (front ++ b :: back) = byteSum sum front + b.toUInt32 + byteSum 0 back := by
  have parts : byteSum sum (front ++ b :: back) = byteSum (byteSum sum front + b.toUInt32) back :=
    List.foldl_append
  rw [parts, byteSum_start]

/-- The sum finds the byte that differs. -/
theorem DiffersAt.byteSum_ne (sum : UInt32) (differs : DiffersAt i bytes bytes') :
    byteSum sum bytes' ≠ byteSum sum bytes := by
  obtain ⟨b, b', other, split, split'⟩ := differs.split
  rw [split, split', byteSum_around, byteSum_around]
  intro same
  have cells := (UInt32.add_right_inj _).mp ((UInt32.add_left_inj _).mp same)
  apply other
  apply UInt8.toNat_inj.mp
  have values := congrArg UInt32.toNat cells
  rwa [UInt8.toNat_toUInt32, UInt8.toNat_toUInt32] at values

theorem DiffersAt.littleEndian_ne (differs : DiffersAt i bytes bytes') :
    littleEndian bytes' ≠ littleEndian bytes := by
  intro same
  apply differs.ne
  rw [← littleBytes_littleEndian bytes, ← littleBytes_littleEndian bytes', differs.length, same]

end Sum

end PtzAgx.Checksum
