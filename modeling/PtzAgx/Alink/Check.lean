import PtzAgx.Lib.Bytes
import PtzAgx.Lib.Framing
import PtzAgx.Lib.Words

/-! # The alink frame and its checks

`check/checksum.c` and `check/alink_check.c`. A frame is a nine byte header, the
payload it announces and two CRC bytes. The checks take pointers, as in the
source, and read as far as the header tells them to; `PIL_SPECAIL` is not
compiled in and is left out, and so are the diagnostics they print.
-/

namespace PtzAgx.Alink

open Bytes Words Framing

def alinkMsgMagicValue : UInt8 := 0xFD
def alinkNoPayloadSize : Nat := 11
def alinkHeaderChecksumLen : Nat := 8
/-- `sizeof(alink_msg_head_t)`. -/
def alinkMsgHeadSize : Nat := 9
def x25InitCrc : UInt16 := 0xFFFF

/-! ## `alink_msg_head_t` seen through a pointer -/

namespace MsgHead

variable (psHeader : Ptr UInt8)

def magic : UInt8 := psHeader 0
def lenLo : UInt8 := psHeader 1
def lenHi : UInt8 := psHeader 2
def seq : UInt8 := psHeader 3
def destid : UInt8 := psHeader 4
def sourceid : UInt8 := psHeader 5
def msgid : UInt8 := psHeader 6
def ans : UInt8 := psHeader 7
def checksum : UInt8 := psHeader 8

end MsgHead

/-! ## `checksum.c` -/

def crcAccumulate (data : UInt8) (crcAccum : UInt16) : UInt16 :=
  let tmp := data ^^^ (crcAccum &&& 0xFF).toUInt8
  let tmp := tmp ^^^ (tmp <<< 4)
  (crcAccum >>> 8) ^^^ (tmp.toUInt16 <<< 8) ^^^ (tmp.toUInt16 <<< 3) ^^^ (tmp.toUInt16 >>> 4)

/-- The CRC register after these bytes. -/
def crcOver (crc : UInt16) (bytes : List UInt8) : UInt16 :=
  bytes.foldl (fun crc data => crcAccumulate data crc) crc

/-- `length` is an `uint16_t`, whatever the caller passes. -/
def crcCalculate (pBuffer : Ptr UInt8) (length : Nat) : UInt16 :=
  crcOver x25InitCrc (pBuffer.read (wrap 16 length))

/-! ## `alink_check.c` -/

def alinkGetPayloadSize (psHeader : Ptr UInt8) : UInt16 :=
  word16 (MsgHead.lenHi psHeader) (MsgHead.lenLo psHeader)

def alinkGetPackageSize (psHeader : Ptr UInt8) : Nat :=
  wrap 32 ((alinkGetPayloadSize psHeader).toNat + alinkNoPayloadSize)

def alinkGetHeaderChecksum (psHeader : Ptr UInt8) : UInt8 :=
  (psHeader.read alinkHeaderChecksumLen).foldl (· + ·) 0

/-- `wPkgSize - 3` is an `int` that `crc_calculate` takes as an `uint16_t`. -/
def alinkGetPackageCrc (pbyPkg : Ptr UInt8) (wPkgSize : Nat) : UInt16 :=
  crcCalculate (pbyPkg.advance 1) (wrapSub 32 (wrap 16 wPkgSize) 3)

def alinkCheckMagic (x : UInt8) : Bool := alinkMsgMagicValue == x

def alinkCheckHeaderChecksum (psHeader : Ptr UInt8) : Bool :=
  MsgHead.checksum psHeader == alinkGetHeaderChecksum psHeader

def alinkCheckCrc (pbyPkg : Ptr UInt8) (wLen : Nat) : Bool :=
  let wPgkLen := alinkGetPackageSize pbyPkg
  if wPgkLen = wLen then
    let wCrcCalc := crcCalculate (pbyPkg.advance 1) (wrapSub 32 wPgkLen 3)
    let pbyCrcIndex := pbyPkg.advance (wrapSub 32 wPgkLen 2)
    let wCrcRecv := word16 (pbyCrcIndex 1) (pbyCrcIndex 0)
    wCrcRecv == wCrcCalc
  else false

def alinkCheckPackage (pbyPkg : Ptr UInt8) (wLen : Nat) : Bool :=
  let wLen := wrap 16 wLen
  if alinkCheckMagic (pbyPkg 0) then
    if alinkNoPayloadSize > wLen then false
    else if alinkCheckHeaderChecksum pbyPkg then alinkCheckCrc pbyPkg wLen
    else false
  else false

/-! ## What the checks read -/

theorem alinkGetPackageSize_eq (psHeader : Ptr UInt8) :
    alinkGetPackageSize psHeader = (alinkGetPayloadSize psHeader).toNat + 11 := by
  have bound := (alinkGetPayloadSize psHeader).toNat_lt
  rw [alinkGetPackageSize, alinkNoPayloadSize, wrap_of_lt (by omega)]

theorem alinkGetPackageSize_bounds (psHeader : Ptr UInt8) :
    11 ≤ alinkGetPackageSize psHeader ∧ alinkGetPackageSize psHeader ≤ 65546 := by
  have bound := (alinkGetPayloadSize psHeader).toNat_lt
  rw [alinkGetPackageSize_eq]
  omega

section Congruence

variable {p q : Ptr UInt8} {n : Nat} (same : p.read n = q.read n)

include same

theorem alinkGetPackageSize_congr (header : 3 ≤ n) :
    alinkGetPackageSize p = alinkGetPackageSize q := by
  simp only [alinkGetPackageSize, alinkGetPayloadSize, MsgHead.lenHi, MsgHead.lenLo,
    Ptr.apply_of_read same (show 1 < n by omega), Ptr.apply_of_read same (show 2 < n by omega)]

theorem alinkCheckHeaderChecksum_congr (header : alinkMsgHeadSize ≤ n) :
    alinkCheckHeaderChecksum p = alinkCheckHeaderChecksum q := by
  have summed : p.read alinkHeaderChecksumLen = q.read alinkHeaderChecksumLen :=
    Ptr.read_congr fun i small =>
      Ptr.apply_of_read same
        (by simp only [alinkHeaderChecksumLen, alinkMsgHeadSize] at small header; omega)
  simp only [alinkCheckHeaderChecksum, MsgHead.checksum, alinkGetHeaderChecksum, summed,
    Ptr.apply_of_read same (show 8 < n from header)]

theorem alinkCheckCrc_congr (whole : alinkNoPayloadSize ≤ n) :
    alinkCheckCrc p n = alinkCheckCrc q n := by
  have large : 11 ≤ n := whole
  have sizes := alinkGetPackageSize_congr same (by omega)
  have bounds := alinkGetPackageSize_bounds q
  by_cases sized : alinkGetPackageSize q = n
  · have three : wrapSub 32 n 3 = n - 3 := wrapSub_of_le (by omega) (by omega)
    have two : wrapSub 32 n 2 = n - 2 := wrapSub_of_le (by omega) (by omega)
    have covered : (p.advance 1).read (wrap 16 (n - 3)) = (q.advance 1).read (wrap 16 (n - 3)) := by
      apply Ptr.read_congr
      intro i small
      have cut : wrap 16 (n - 3) ≤ n - 3 := Nat.mod_le _ _
      exact Ptr.apply_of_read same (by omega)
    simp only [alinkCheckCrc, sizes, sized, if_true, three, two, crcCalculate, covered,
      Ptr.advance_apply, Ptr.apply_of_read same (show n - 2 + 0 < n by omega),
      Ptr.apply_of_read same (show n - 2 + 1 < n by omega)]
  · simp only [alinkCheckCrc, sizes, sized, if_false]

theorem alinkCheckPackage_congr (long : 11 ≤ n) (short : n ≤ 65535) :
    alinkCheckPackage p n = alinkCheckPackage q n := by
  have nine : alinkMsgHeadSize = 9 := rfl
  have fits : wrap 16 n = n := wrap_of_lt (by omega)
  simp only [alinkCheckPackage, fits, Ptr.apply_of_read same (show 0 < n by omega),
    alinkCheckHeaderChecksum_congr same (by omega), alinkCheckCrc_congr same long]

end Congruence

/-! ## The frame format -/

/-- alink frames as a format of the framing library. -/
def alinkFormat : Format UInt8 where
  start := alinkCheckMagic
  headLen := alinkMsgHeadSize
  headOk head := alinkCheckHeaderChecksum (Ptr.ofList head)
  size head := alinkGetPackageSize (Ptr.ofList head)
  bodyOk body := alinkCheckCrc (Ptr.ofList body) body.length
  headLen_pos := by decide
  headLen_lt_size head := by
    have bounds := alinkGetPackageSize_bounds (Ptr.ofList head)
    simp only [alinkMsgHeadSize]
    omega

/-- A byte string that `alink_check_package` accepts with its own length. -/
structure Accepted (f : List UInt8) : Prop where
  long : 11 ≤ f.length
  short : f.length ≤ 65535
  checked : alinkCheckPackage (Ptr.ofList f) f.length = true

/-- The shortest frame, all header fields zero. -/
def emptyFrame : List UInt8 := [0xFD, 0, 0, 0, 0, 0, 0, 0, 0xFD, 0xE6, 0x50]

theorem emptyFrame_accepted : Accepted emptyFrame :=
  ⟨by decide, by decide, by decide⟩

/-- A frame whose payload is the magic byte. -/
def magicFrame : List UInt8 := [0xFD, 1, 0, 0, 0, 0, 0, 0, 0xFE, 0xFD, 0x97, 0xC9]

theorem magicFrame_accepted : Accepted magicFrame :=
  ⟨by decide, by decide, by decide⟩

theorem ofList_head {s : List UInt8} (hasHead : alinkMsgHeadSize ≤ s.length) :
    (Ptr.ofList (alinkFormat.head s)).read alinkMsgHeadSize =
      (Ptr.ofList s).read alinkMsgHeadSize := by
  apply Ptr.read_congr
  intro i small
  have inside : i < (alinkFormat.head s).length := by
    simp only [Format.head, alinkFormat, List.length_take]
    omega
  rw [Ptr.ofList_apply inside, Ptr.ofList_apply (show i < s.length by omega)]
  simp only [Format.head, List.getElem_take]

theorem headOk_eq {s : List UInt8} (hasHead : alinkMsgHeadSize ≤ s.length) :
    alinkFormat.headOk (alinkFormat.head s) = alinkCheckHeaderChecksum (Ptr.ofList s) :=
  alinkCheckHeaderChecksum_congr (ofList_head hasHead) (Nat.le_refl _)

theorem size_eq {s : List UInt8} (hasHead : alinkMsgHeadSize ≤ s.length) :
    alinkFormat.size (alinkFormat.head s) = alinkGetPackageSize (Ptr.ofList s) :=
  alinkGetPackageSize_congr (ofList_head hasHead) (by decide)

theorem alinkCheckCrc_size {p : Ptr UInt8} {n : Nat} (checked : alinkCheckCrc p n = true) :
    alinkGetPackageSize p = n := by
  by_contra other
  simp [alinkCheckCrc, other] at checked

/-- The batch validator accepts exactly the frames of the format that fit its
    length argument. -/
theorem alinkCheckPackage_iff {f : List UInt8} (long : 11 ≤ f.length) (short : f.length ≤ 65535) :
    alinkCheckPackage (Ptr.ofList f) f.length = true ↔ alinkFormat.IsFrame f := by
  have fits : wrap 16 f.length = f.length := wrap_of_lt (by omega)
  have hasHead : alinkMsgHeadSize ≤ f.length := by simp only [alinkMsgHeadSize]; omega
  have enough : ¬ alinkNoPayloadSize > f.length := by simp only [alinkNoPayloadSize]; omega
  obtain ⟨b, rest, rfl⟩ : ∃ b rest, f = b :: rest := by
    cases f with
    | nil => simp at long
    | cons b rest => exact ⟨b, rest, rfl⟩
  have first : Ptr.ofList (b :: rest) 0 = b := rfl
  simp only [alinkCheckPackage, fits, enough, first, if_false]
  constructor
  · intro checked
    split_ifs at checked with starts header
    exact
      { starts := ⟨b, rest, rfl, starts⟩
        hasHead := hasHead
        headOk := (headOk_eq hasHead).trans header
        sized := (size_eq hasHead).trans (alinkCheckCrc_size checked)
        bodyOk := checked }
  · intro frame
    obtain ⟨c, tail, same, starts⟩ := frame.starts
    injection same with same
    subst same
    have magic : alinkCheckMagic b = true := starts
    have header := (headOk_eq hasHead).symm.trans frame.headOk
    simp only [magic, header, if_true]
    exact frame.bodyOk

theorem Accepted.isFrame {f : List UInt8} (accepted : Accepted f) : alinkFormat.IsFrame f :=
  (alinkCheckPackage_iff accepted.long accepted.short).mp accepted.checked

theorem Accepted.size_append (accepted : Accepted f) (rest : List UInt8) :
    alinkGetPackageSize (Ptr.ofList (f ++ rest)) = f.length := by
  have long := accepted.long
  have hasHead : alinkMsgHeadSize ≤ f.length := accepted.isFrame.hasHead
  have grown : alinkMsgHeadSize ≤ (f ++ rest).length := by
    rw [List.length_append]
    omega
  rw [← size_eq grown, alinkFormat.head_append rest hasHead]
  exact accepted.isFrame.sized

theorem Accepted.starts_append (accepted : Accepted f) (rest : List UInt8) :
    alinkFormat.Starts (f ++ rest) := by
  obtain ⟨b, tail, rfl, start⟩ := accepted.isFrame.starts
  exact ⟨b, tail ++ rest, rfl, start⟩

end PtzAgx.Alink
