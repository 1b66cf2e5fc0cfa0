import PtzAgx.Alink.Check
import PtzAgx.Lib.Crc

/-! # What the CRC of a frame detects

The byte step of `checksum.c` is eight steps of a reflected CRC, so what is known
about these holds of frames: everything behind the magic byte of an accepted
frame leaves the register empty, and two frames whose difference is one burst of
at most sixteen bits are not both accepted.
-/

namespace PtzAgx.Alink

open Bytes Words Crc

/-- X.25, lowest bit first. -/
def x25Polynomial : Nat := 0x8408

/-- What `crc_accumulate` makes of the low byte of the register and its data. -/
def crcTable (tmp : UInt8) : UInt16 :=
  let tmp := tmp ^^^ (tmp <<< 4)
  (tmp.toUInt16 <<< 8) ^^^ (tmp.toUInt16 <<< 3) ^^^ (tmp.toUInt16 >>> 4)

section Step

/-- Eight bits of zero. -/
def noBits : List Bool := List.replicate 8 false

theorem run_noBits_high (x : Nat) : run x25Polynomial (256 * x) noBits = x := by
  have swallowed := run_own x25Polynomial noBits x
  have nothing : ofBits noBits = 0 := rfl
  rwa [nothing, Nat.zero_add] at swallowed

theorem run_noBits_low (tmp : UInt8) :
    run x25Polynomial tmp.toNat noBits = (crcTable tmp).toNat := by
  have each : ∀ i : Fin 256, run x25Polynomial (UInt8.ofNat i).toNat noBits =
      (crcTable (UInt8.ofNat i)).toNat := by
    decide +kernel
  have this := each ⟨tmp.toNat, tmp.toNat_lt⟩
  rwa [UInt8.ofNat_toNat] at this

theorem halves_xor (x : Nat) : 256 * (x / 256) ^^^ x % 256 = x := by
  apply Nat.eq_of_testBit_eq
  intro i
  have power : (256 : Nat) = 2 ^ 8 := rfl
  rw [Nat.testBit_xor, power, Nat.testBit_two_pow_mul, Nat.testBit_div_two_pow,
    Nat.testBit_mod_two_pow]
  by_cases low : i < 8
  · simp [low, Nat.not_le.mpr low]
  · have high : 8 ≤ i := Nat.not_lt.mp low
    simp [low, high]

theorem run_byteBits (r : Nat) (data : UInt8) :
    run x25Polynomial r (byteBits data) = run x25Polynomial (r ^^^ data.toNat) noBits := by
  have swallowed : run x25Polynomial data.toNat (byteBits data) = 0 := by
    have own := run_own x25Polynomial (byteBits data) 0
    rwa [ofBits_byteBits, Nat.mul_zero, Nat.add_zero] at own
  have added := run_xor x25Polynomial (r ^^^ data.toNat) data.toNat
    (by simp [noBits] : noBits.length = (byteBits data).length)
  have bits : List.zipWith (· ^^ ·) noBits (byteBits data) = byteBits data := by
    apply List.ext_getElem (by simp [noBits])
    intro i _ _
    have clear : ∀ b ∈ noBits, b = false := by decide
    rw [List.getElem_zipWith, clear _ (List.getElem_mem _), Bool.false_xor]
  rw [bits, swallowed, Nat.xor_assoc, Nat.xor_self, Nat.xor_zero, Nat.xor_zero] at added
  exact added

theorem crcAccumulate_run (data : UInt8) (crc : UInt16) :
    (crcAccumulate data crc).toNat = run x25Polynomial crc.toNat (byteBits data) := by
  have byte := data.toNat_lt
  have tmp : (data ^^^ (crc &&& 0xFF).toUInt8).toNat = (crc.toNat ^^^ data.toNat) % 256 := by
    have mask : crc.toNat &&& 255 = crc.toNat % 256 := Nat.and_two_pow_sub_one_eq_mod crc.toNat 8
    have mod : (crc.toNat ^^^ data.toNat) % 2 ^ 8 = crc.toNat % 2 ^ 8 ^^^ data.toNat % 2 ^ 8 :=
      Nat.xor_mod_two_pow
    simp only [UInt8.toNat_xor, UInt16.toNat_toUInt8, UInt16.toNat_and, UInt16.reduceToNat, mask]
    have power : (2 : Nat) ^ 8 = 256 := rfl
    rw [power] at mod
    rw [mod, Nat.mod_mod, Nat.mod_eq_of_lt byte, Nat.xor_comm]
  have high : (crc.toNat ^^^ data.toNat) / 256 = crc.toNat / 256 := by
    have shifted : (crc.toNat ^^^ data.toNat) >>> 8 = crc.toNat >>> 8 ^^^ data.toNat >>> 8 :=
      Nat.shiftRight_xor_distrib
    rw [Nat.shiftRight_eq_div_pow, Nat.shiftRight_eq_div_pow, Nat.shiftRight_eq_div_pow] at shifted
    have power : (2 : Nat) ^ 8 = 256 := rfl
    rw [power, Nat.div_eq_of_lt byte, Nat.xor_zero] at shifted
    exact shifted
  rw [run_byteBits, ← halves_xor (crc.toNat ^^^ data.toNat), high, ← tmp]
  have split :=
    run_xor x25Polynomial (256 * (crc.toNat / 256)) (data ^^^ (crc &&& 0xFF).toUInt8).toNat
    (rfl : noBits.length = noBits.length)
  have zeros : List.zipWith (· ^^ ·) noBits noBits = noBits := rfl
  rw [zeros, run_noBits_high, run_noBits_low] at split
  rw [split]
  have shift : (crc >>> 8).toNat = crc.toNat / 256 := by
    simp [UInt16.toNat_shiftRight, Nat.shiftRight_eq_div_pow]
  have whole : crcAccumulate data crc = (crc >>> 8) ^^^ crcTable
      (data ^^^ (crc &&& 0xFF).toUInt8) := by
    simp only [crcAccumulate, crcTable, UInt16.xor_assoc]
  rw [whole, UInt16.toNat_xor, shift]

theorem crcOver_run (crc : UInt16) (bytes : List UInt8) :
    (crcOver crc bytes).toNat = run x25Polynomial crc.toNat (bytesBits bytes) := by
  induction bytes generalizing crc with
  | nil => rfl
  | cons data bytes ih =>
      have rest := ih (crcAccumulate data crc)
      rw [crcAccumulate_run, ← run_append] at rest
      exact rest

end Step

/-! ## Accepted frames -/

/-- The CRC, sent low byte first, cancels itself. -/
theorem crcOver_residue (crc : UInt16) {low high : UInt8} (stored : word16 high low = crc) :
    crcOver crc [low, high] = 0 := by
  apply UInt16.toNat_inj.mp
  have bits : bytesBits [low, high] = byteBits low ++ byteBits high := by
    simp only [bytesBits, List.flatMap_cons, List.flatMap_nil, List.append_nil]
  have number : ofBits (byteBits low ++ byteBits high) = crc.toNat := by
    rw [ofBits_append, ofBits_byteBits, ofBits_byteBits, length_byteBits, ← stored, word16_toNat]
    omega
  have own := run_own x25Polynomial (byteBits low ++ byteBits high) 0
  rw [number, Nat.mul_zero, Nat.add_zero] at own
  rw [crcOver_run, bits, own]
  rfl

section Residue

variable {f : List UInt8}

theorem Accepted.crc (accepted : Accepted f) :
    crcOver x25InitCrc (((Ptr.ofList f).advance 1).read (f.length - 3)) =
      word16 (Ptr.ofList f (f.length - 1)) (Ptr.ofList f (f.length - 2)) := by
  have long := accepted.long
  have short := accepted.short
  have checked : alinkCheckCrc (Ptr.ofList f) f.length = true := accepted.isFrame.bodyOk
  have three : wrapSub 32 f.length 3 = f.length - 3 := wrapSub_of_le (by omega) (by omega)
  have two : wrapSub 32 f.length 2 = f.length - 2 := wrapSub_of_le (by omega) (by omega)
  have counted : wrap 16 (f.length - 3) = f.length - 3 := wrap_of_lt (by omega)
  have last : f.length - 2 + 1 = f.length - 1 := by omega
  simp only [alinkCheckCrc, alinkCheckCrc_size checked, if_true, three, two, crcCalculate, counted,
    Ptr.advance_apply, Nat.add_zero, last, beq_iff_eq] at checked
  exact checked.symm

/-- The register is empty behind an accepted frame. -/
theorem Accepted.residue (accepted : Accepted f) : crcOver x25InitCrc f.tail = 0 := by
  have long := accepted.long
  have stored := accepted.crc
  have behind : f.tail = ((Ptr.ofList f).advance 1).read (f.length - 3) ++
      [Ptr.ofList f (f.length - 2), Ptr.ofList f (f.length - 1)] := by
    have whole := Ptr.drop_read (Ptr.ofList f) (by omega : 1 ≤ f.length)
    have split : f.length - 1 = f.length - 3 + 2 := by omega
    have first : 1 + (f.length - 3 + 0) = f.length - 2 := by omega
    have second : 1 + (f.length - 3 + 1) = f.length - 1 := by omega
    rw [Ptr.read_ofList, List.drop_one, split, Ptr.read_add] at whole
    rw [whole, ← first, ← second]
    rfl
  rw [behind, crcOver, List.foldl_append, ← crcOver]
  exact crcOver_residue _ stored.symm

end Residue

/-! ## How far the CRC reaches -/

/-- The two CRC bytes of a frame with `n` bytes of payload are the CRC of
    everything between the magic byte and themselves. -/
def CrcCovers (p : Ptr UInt8) (n : Nat) : Prop :=
  word16 (p (n + 10)) (p (n + 9)) = crcOver x25InitCrc
    ((p.advance 1).read (n + alinkHeaderChecksumLen))

section Reach

variable {p : Ptr UInt8} {n : UInt16} (declared : alinkGetPayloadSize p = n)

include declared

/-- `crc_calculate` counts in sixteen bits. -/
theorem alinkCheckCrc_declared : alinkCheckCrc p (n.toNat + alinkNoPayloadSize) = true ↔
    word16 (p (n.toNat + 10)) (p (n.toNat + 9)) =
      crcOver x25InitCrc ((p.advance 1).read (wrap 16 (n.toNat + alinkHeaderChecksumLen))) := by
  have bound := n.toNat_lt
  have sized : alinkGetPackageSize p = n.toNat + 11 := by rw [alinkGetPackageSize_eq, declared]
  have three : wrapSub 32 (n.toNat + 11) 3 = n.toNat + 8 := wrapSub_of_le (by omega) (by omega)
  have two : wrapSub 32 (n.toNat + 11) 2 = n.toNat + 9 := wrapSub_of_le (by omega) (by omega)
  simp only [alinkCheckCrc, sized, alinkNoPayloadSize, if_true, three, two, crcCalculate,
    alinkHeaderChecksumLen, Ptr.advance_apply, Nat.add_zero, beq_iff_eq]

theorem alinkCheckCrc_covers (short : n.toNat ≤ 65527)
    (checked : alinkCheckCrc p (n.toNat + alinkNoPayloadSize) = true) : CrcCovers p n.toNat := by
  have counted : wrap 16 (n.toNat + alinkHeaderChecksumLen) = n.toNat + alinkHeaderChecksumLen :=
    wrap_of_lt (by simp only [alinkHeaderChecksumLen]; omega)
  have compared := (alinkCheckCrc_declared declared).mp checked
  rwa [counted] at compared

end Reach

/-- A header that declares `n` bytes, and zeros for all of them but the last two. -/
def blindFront (n : UInt16) : List UInt8 :=
  let fields := [alinkMsgMagicValue, n.toUInt8, (n >>> 8).toUInt8, 1, 0, 0, 0, 0]
  fields ++ [fields.foldl (· + ·) 0] ++ List.replicate (n.toNat - 2) 0

/-- The payload ends with the CRC of all before it. -/
def blindBody (n : UInt16) : List UInt8 :=
  let crc := crcOver x25InitCrc (blindFront n).tail
  blindFront n ++ [crc.toUInt8, (crc >>> 8).toUInt8]

/-- The CRC of the bytes that a count of sixteen bits leaves. -/
def blindCrc (n : UInt16) : UInt16 :=
  crcOver x25InitCrc ((blindFront n).tail.take (wrap 16 (n.toNat + alinkHeaderChecksumLen)))

def blindFrame (n : UInt16) : List UInt8 :=
  blindBody n ++ [(blindCrc n).toUInt8, (blindCrc n >>> 8).toUInt8]

section Blind

theorem blindFrame_declared (n : UInt16) : alinkGetPayloadSize (Ptr.ofList (blindFrame n)) = n :=
  word16_bytes n

variable {n : UInt16} (long : 65528 ≤ n.toNat)

theorem crcOver_blindBody (n : UInt16) : crcOver x25InitCrc (blindBody n).tail = 0 := by
  have tail : (blindBody n).tail = (blindFront n).tail ++
      [(crcOver x25InitCrc (blindFront n).tail).toUInt8,
        (crcOver x25InitCrc (blindFront n).tail >>> 8).toUInt8] := rfl
  rw [tail, crcOver, List.foldl_append, ← crcOver]
  exact crcOver_residue _ (word16_bytes _)

include long

theorem wrap_blind : wrap 16 (n.toNat + alinkHeaderChecksumLen) = n.toNat - 65528 := by
  have bound := n.toNat_lt
  simp only [wrap, alinkHeaderChecksumLen]
  omega

theorem length_blindFront : (blindFront n).length = n.toNat + 7 := by
  simp only [blindFront, List.length_append, List.length_cons, List.length_nil,
    List.length_replicate]
  omega

theorem length_blindBody : (blindBody n).length = n.toNat + 9 := by
  simp only [blindBody, List.length_append, length_blindFront long, List.length_cons,
    List.length_nil]

theorem blindCrc_ne_zero : blindCrc n ≠ 0 := by
  have bound := n.toNat_lt
  have each : ∀ k : Fin 8, crcOver x25InitCrc
      (([(UInt16.ofNat (65528 + k)).toUInt8, (UInt16.ofNat (65528 + k) >>> 8).toUInt8,
        1, 0, 0, 0, 0] : List UInt8).take k) ≠ 0 := by decide
  have number : UInt16.ofNat (65528 + (n.toNat - 65528)) = n := by
    rw [Nat.add_sub_cancel' long, UInt16.ofNat_toNat]
  have this := each ⟨n.toNat - 65528, by omega⟩
  rw [number] at this
  have header : (blindFront n).tail =
      [n.toUInt8, (n >>> 8).toUInt8, 1, 0, 0, 0, 0] ++ (blindFront n).drop 8 := rfl
  rw [blindCrc, wrap_blind long, header, List.take_append_of_le_length
    (by simp only [List.length_cons, List.length_nil]; omega)]
  exact this

theorem blindFrame_reads :
    (∀ k ≤ n.toNat + 8,
      ((Ptr.ofList (blindFrame n)).advance 1).read k = (blindBody n).tail.take k) ∧
      word16 (Ptr.ofList (blindFrame n) (n.toNat + 10)) (Ptr.ofList (blindFrame n) (n.toNat + 9)) =
      blindCrc n := by
  obtain ⟨covered, low, high⟩ :=
    Ptr.ofList_trailer (length_blindBody long) (blindCrc n).toUInt8 (blindCrc n >>> 8).toUInt8
  constructor
  · intro k inside
    rw [← covered]
    exact (Ptr.take_read _ inside).symm
  · exact (congrArg₂ word16 high low).trans (word16_bytes (blindCrc n))

theorem blindFrame_checked :
    alinkCheckCrc (Ptr.ofList (blindFrame n)) (n.toNat + alinkNoPayloadSize) = true := by
  obtain ⟨covered, trailer⟩ := blindFrame_reads long
  have bound := n.toNat_lt
  have front : (blindBody n).tail.take (n.toNat - 65528) = (blindFront n).tail.take
      (n.toNat - 65528) := by
    have tail : (blindBody n).tail = (blindFront n).tail ++ (blindBody n).drop (n.toNat + 7) := by
      rw [← length_blindFront long]
      simp only [blindBody, List.drop_left]
      rfl
    have inside : n.toNat - 65528 ≤ (blindFront n).tail.length := by
      rw [List.length_tail, length_blindFront long]
      omega
    rw [tail, List.take_append_of_le_length inside]
  rw [alinkCheckCrc_declared (blindFrame_declared n), trailer, wrap_blind long,
    covered _ (by omega), front, blindCrc, wrap_blind long]

theorem blindFrame_uncovered : ¬ CrcCovers (Ptr.ofList (blindFrame n)) n.toNat := by
  obtain ⟨covered, trailer⟩ := blindFrame_reads long
  have whole : (blindBody n).tail.take (n.toNat + 8) = (blindBody n).tail := by
    apply List.take_of_length_le
    rw [List.length_tail, length_blindBody long]
    omega
  rw [CrcCovers, trailer, alinkHeaderChecksumLen, covered _ (Nat.le_refl _), whole,
    crcOver_blindBody]
  exact blindCrc_ne_zero long

end Blind

/-- The check covers a frame whole up to 65527 bytes of payload, and from there
    on no more than its header. -/
theorem crc_covers_iff (n : UInt16) :
    (∀ p : Ptr UInt8, alinkGetPayloadSize p = n →
      alinkCheckCrc p (n.toNat + alinkNoPayloadSize) = true →
      CrcCovers p n.toNat) ↔ n.toNat ≤ 65527 := by
  constructor
  · intro covers
    by_contra long
    have long : 65528 ≤ n.toNat := by omega
    exact blindFrame_uncovered long (covers _ (blindFrame_declared n) (blindFrame_checked long))
  · intro short p declared checked
    exact alinkCheckCrc_covers declared short checked

/-- With the longest payload the CRC is that of seven header bytes. -/
theorem crc_covers_longest : ¬ ∀ (n : UInt16) (p : Ptr UInt8), alinkGetPayloadSize p = n →
    alinkCheckCrc p (n.toNat + alinkNoPayloadSize) = true → CrcCovers p n.toNat := by
  intro covers
  have long : 65528 ≤ (65535 : UInt16).toNat := by decide
  exact blindFrame_uncovered long (covers 65535 _ (blindFrame_declared 65535)
    (blindFrame_checked long))

/-! ## Bursts -/

/-- All bits in which the byte strings differ lie in one window of sixteen. -/
def Burst (p q : List UInt8) : Prop :=
  ∃ s, ∀ i, (bytesBits p)[i]? ≠ (bytesBits q)[i]? → s ≤ i ∧ i < s + 16

theorem Accepted.magic_cons {f : List UInt8} (accepted : Accepted f) :
    ∃ rest, f = alinkMsgMagicValue :: rest := by
  obtain ⟨b, rest, rfl, starts⟩ := accepted.isFrame.starts
  have magic : alinkMsgMagicValue = b := eq_of_beq starts
  exact ⟨rest, by rw [magic]⟩

theorem burst_rejected (p q : List UInt8) (accepted : Accepted p) (length : q.length = p.length)
    (differ : q ≠ p)
    (burst : Burst p q) : alinkCheckPackage (Ptr.ofList q) q.length = false := by
  by_contra passed
  rw [Bool.not_eq_false] at passed
  have accepted' : Accepted q := ⟨length ▸ accepted.long, length ▸ accepted.short, passed⟩
  obtain ⟨t, rfl⟩ := accepted.magic_cons
  obtain ⟨t', rfl⟩ := accepted'.magic_cons
  obtain ⟨s, window⟩ := burst
  have lengths : (bytesBits t).length = (bytesBits t').length := by
    rw [length_bytesBits, length_bytesBits]
    simp only [List.length_cons] at length
    omega
  have left := congrArg UInt16.toNat accepted.residue
  have right := congrArg UInt16.toNat accepted'.residue
  rw [crcOver_run, List.tail_cons] at left right
  -- The difference alone empties an empty register.
  have together := run_xor x25Polynomial x25InitCrc.toNat x25InitCrc.toNat lengths
  rw [left, right, Nat.xor_self] at together
  have inside : ∀ i, (List.zipWith (· ^^ ·) (bytesBits t) (bytesBits t'))[i]? = some true →
      s - 8 ≤ i ∧ i < s - 8 + 16 := by
    intro i set
    have differs : (bytesBits (alinkMsgMagicValue :: t))[8 + i]? ≠
        (bytesBits (alinkMsgMagicValue :: t'))[8 + i]? := by
      rw [bytesBits_cons, bytesBits_cons, List.getElem?_append_right (by simp),
        List.getElem?_append_right (by simp)]
      simp only [length_byteBits, Nat.add_sub_cancel_left]
      intro same
      rw [List.getElem?_zipWith, same] at set
      cases found : (bytesBits t')[i]? with
      | none => simp [found] at set
      | some b => simp [found] at set
    have := window (8 + i) differs
    omega
  have nowhere :=
    burst_detected (by decide : x25Polynomial < 2 ^ 16) (by decide) (by decide) inside together
  exact differ (by rw [bytesBits_injective (eq_of_xor lengths nowhere)])

theorem burst_rejected_magicFrame :
    alinkCheckPackage (Ptr.ofList [0xFD, 1, 0, 0, 0, 0, 0, 0, 0xFE, 0xFC, 0x97, 0xC9]) 12 = false :=
  burst_rejected magicFrame [0xFD, 1, 0, 0, 0, 0, 0, 0, 0xFE, 0xFC, 0x97,
    0xC9] magicFrame_accepted rfl (by decide)
    ⟨72, by
      intro i differs
      by_contra outside
      refine differs ?_
      by_cases last : i < 96
      · have each : ∀ i < 96, ¬ (72 ≤ i ∧ i < 72 + 16) → (bytesBits magicFrame)[i]? =
            (bytesBits [0xFD, 1, 0, 0, 0, 0, 0, 0, 0xFE, 0xFC, 0x97, 0xC9])[i]? := by decide +kernel
        exact each i last outside
      · rw [List.getElem?_eq_none, List.getElem?_eq_none] <;> rw [length_bytesBits]
          <;> simpa [magicFrame] using last⟩

end PtzAgx.Alink
