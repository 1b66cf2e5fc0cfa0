import PtzAgx.EthLink.PtzPackage
import PtzAgx.Lib.Checksum

/-! # A PTZ package with one wrong byte

The checksum of a package covers everything from the length field to itself, and
the length field says where it stands. So a receiver finds out about one byte
that differs anywhere behind the length field, up to the end of the checksum.
The stop word behind it is not looked at, nor is the version in front.
-/

namespace PtzAgx.EthLink

open Object Words Checksum

/-! ## What an error leaves behind -/

section Error

variable {pac : List UInt8} {lmsg lmsg' : PtzProtocolMsg} {ret : Int}

theorem ptzProtocolVerify_error (verified : ptzProtocolVerify pac lmsg = some (ret, lmsg'))
    (error : ret ≠ 0) :
    lmsg'.msg = none := by
  simp only [ptzProtocolVerify, Option.bind_eq_bind, Option.bind_eq_some_iff] at verified
  obtain ⟨calVerify, -, verify, -, rest⟩ := verified
  split at rest
  · cases rest
    rfl
  · obtain ⟨stopbit, -, zero⟩ := Option.bind_eq_some_iff.mp rest
    cases zero
    exact (error rfl).elim

theorem ptzProtocolNetworkDataAnalysis_error {allocated : Bool} {len : Nat}
    (analysed : ptzProtocolNetworkDataAnalysis allocated pac len lmsg = some (ret, lmsg'))
    (error : ret ≠ 0) :
    lmsg'.msg = none := by
  simp only [ptzProtocolNetworkDataAnalysis, Option.bind_eq_bind, Option.bind_eq_some_iff]
    at analysed
  obtain ⟨head, -, rest⟩ := analysed
  split at rest
  · cases rest
    exact (error rfl).elim
  · obtain ⟨len, -, rest⟩ := Option.bind_eq_some_iff.mp rest
    obtain ⟨command, -, rest⟩ := Option.bind_eq_some_iff.mp rest
    split at rest
    · cases allocated with
      | true =>
          rw [if_pos rfl] at rest
          obtain ⟨msg, -, verified⟩ := Option.bind_eq_some_iff.mp rest
          exact ptzProtocolVerify_error verified error
      | false =>
          cases rest
          rfl
    · exact ptzProtocolVerify_error rest error

end Error

/-! ## One byte that differs -/

section Differs

variable {pac pac' : List UInt8} {i n : Nat}

theorem ptzWordAt_before (differs : DiffersAt i pac pac') (before : n + 4 ≤ i) :
    ptzWordAt pac' n = ptzWordAt pac n := by
  have front := differs.take_eq before
  have word : (pac'.drop n).take 4 = (pac.drop n).take 4 := by
    rw [List.take_drop, List.take_drop, front]
  rw [ptzWordAt, ptzWordAt, word]

theorem ptzWordAt_behind (differs : DiffersAt i pac pac') (after : i < n) :
    ptzWordAt pac' n = ptzWordAt pac n := by
  rw [ptzWordAt, ptzWordAt, differs.drop_eq after]

theorem littleEndian_word_lt (pac : List UInt8) (n : Nat) :
    littleEndian ((pac.drop n).take 4) < 2 ^ 32 := by
  have four : ((pac.drop n).take 4).length ≤ 4 := List.length_take_le 4 _
  exact Nat.lt_of_lt_of_le (littleEndian_lt _) (Nat.pow_le_pow_right (by decide : 0 < 256) four)

theorem ptzWordAt_ne (differs : DiffersAt i pac pac') (from_start : n ≤ i) (to_end : i < n + 4) :
    ptzWordAt pac' n ≠ ptzWordAt pac n := by
  intro same
  apply (differs.window from_start to_end).littleEndian_ne
  have values := congrArg UInt32.toNat same
  rwa [ptzWordAt, ptzWordAt, UInt32.toNat_ofNat_of_lt' (littleEndian_word_lt pac' n),
    UInt32.toNat_ofNat_of_lt' (littleEndian_word_lt pac n)] at values

theorem ptzByteSum_before (differs : DiffersAt i pac pac') (before : n ≤ i) :
    ptzByteSum pac' n = ptzByteSum pac n := by
  by_cases short : n ≤ 8
  · rw [ptzByteSum, ptzByteSum, Nat.sub_eq_zero_of_le short, List.take_zero, List.take_zero]
  · have whole : 8 + (n - 8) = n := by omega
    rw [ptzByteSum, ptzByteSum, List.take_drop, List.take_drop, whole, differs.take_eq before]

theorem ptzByteSum_ne (differs : DiffersAt i pac pac') (from_length : 8 ≤ i) (to_end : i < n) :
    ptzByteSum pac' n ≠ ptzByteSum pac n :=
  (differs.window from_length (by omega : i < 8 + (n - 8))).byteSum_ne 0

/-- The stored checksum and the sum cannot both be what they were, nor can both
    have changed. -/
theorem checksum_ne (differs : DiffersAt i pac pac') (stored : ptzWordAt pac n = ptzByteSum pac n)
    (from_length : 8 ≤ i)
    (to_end : i < n + 4) : ptzWordAt pac' n ≠ ptzByteSum pac' n := by
  cases Nat.lt_or_ge i n with
  | inl covered =>
      rw [ptzWordAt_behind differs covered, stored]
      exact (ptzByteSum_ne differs from_length covered).symm
  | inr inside =>
      rw [ptzByteSum_before differs inside, ← stored]
      exact ptzWordAt_ne differs inside to_end

end Differs

/-! ## The packages of the encoder -/

/-- Behind the length field, up to the checksum and including it: the command,
    the time stamp, the message, the sequence number and the checksum. -/
def PtzChecked (msglen i : Nat) : Prop :=
  ptzPackageHeadLen + ptzPackageProtocolLen + ptzPackageLengthLen ≤ i ∧
    i < ptzPackageMsgOffset + msglen + ptzPackageSeqMsgLen + ptzPackageCrcLen

instance (msglen i : Nat) : Decidable (PtzChecked msglen i) := inferInstanceAs (Decidable (_ ∧ _))

theorem ptzPackageBytes_refused (tv : Timeval) (msgid : UInt32) {msg pac' : List UInt8} {i : Nat}
    (allocated : Bool)
    (len : Nat) (lmsg : PtzProtocolMsg) (fits : msg.length ≤ ptzPackageMaxLen)
    (checked : PtzChecked msg.length i)
    (differs : DiffersAt i (ptzPackageBytes tv msgid msg) pac') :
    Refused (ptzProtocolNetworkDataAnalysis allocated pac' len lmsg) := by
  have most : ptzPackageMaxLen = 2048 := rfl
  obtain ⟨from_command, to_checksum⟩ : 12 ≤ i ∧ i < 24 + msg.length + 4 + 4 := checked
  have total := length_ptzPackageBytes tv msgid msg
  have total' : pac'.length = msg.length + 36 := differs.length.trans total
  have overhead : (UInt32.ofNat (msg.length + ptzPackageOverhead)).toNat = msg.length + 20 :=
    UInt32.toNat_ofNat_of_lt' (show msg.length + 20 < 2 ^ 32 by omega)
  have place : ptzChecksumPlace pac' = 28 + msg.length := by
    rw [ptzChecksumPlace, ptzWordAt_before differs (by omega), ptzPackageBytes_len, overhead,
      wrap_of_lt (by omega)]
    omega
  apply (ptzProtocolNetworkDataAnalysis_refused_iff allocated len lmsg (by omega) (by omega)).mpr
  constructor
  · rw [ptzWordAt_before differs (by omega)]
    exact ptzPackageBytes_head tv msgid msg
  · rw [place]
    exact .inr ⟨by omega, checksum_ne differs (ptzPackageBytes_crc tv msgid msg) (by omega)
      (by omega)⟩

/-- One wrong byte in the part that is checked makes the receiver refuse the
    package and keep no message, whether there is memory for one or not. -/
theorem ptzProtocol_corruption_rejected (tv : Timeval) (msgid : UInt32)
    {msg pac written pac' : List UInt8} {total i : Nat}
    (allocated : Bool) (lmsg : PtzProtocolMsg) (fits : msg.length ≤ ptzPackageMaxLen - 36)
    (made : ptzProtocolPackage tv msgid msg pac = some (total, written))
    (checked : PtzChecked msg.length i)
    (differs : DiffersAt i (written.take total) pac') :
    ∃ ret lmsg', ptzProtocolNetworkDataAnalysis allocated pac' total lmsg = some (ret, lmsg') ∧
      ret ≠ 0 ∧
      lmsg'.msg = none := by
  have bytes := ptzProtocolPackage_eq tv msgid msg pac (ptzProtocolPackage_fits tv msgid msg made)
  obtain ⟨rfl, rfl⟩ := Prod.mk.inj (Option.some.inj (made.symm.trans bytes))
  rw [← length_ptzPackageBytes tv msgid msg, take_overlay] at differs
  obtain ⟨ret, lmsg', analysed, error⟩ :=
    ptzPackageBytes_refused tv msgid allocated (msg.length + 36) lmsg
    (Nat.le_trans fits (Nat.sub_le _ _)) checked differs
  exact ⟨ret, lmsg', analysed, error, ptzProtocolNetworkDataAnalysis_error analysed error⟩

/-- A message of three bytes, the first of them changed on the way. -/
theorem ptzProtocol_corruption_rejected_three :
    let written :=
  overlay (List.replicate 2048 0) (ptzPackageBytes ⟨1700000000, 999999⟩ 0x0B [1, 0xFF, 3])
    ptzProtocolPackage ⟨1700000000, 999999⟩ 0x0B [1, 0xFF, 3] (List.replicate 2048 0) =
    some (39, written) ∧
      ∃ ret lmsg', ptzProtocolNetworkDataAnalysis true ((written.take 39).set 24 0x81) 39
      ⟨0, 0, none⟩ = some (ret, lmsg') ∧
        ret ≠ 0 ∧ lmsg'.msg = none := by
  intro written
  have made : ptzProtocolPackage ⟨1700000000, 999999⟩ 0x0B [1, 0xFF, 3] (List.replicate 2048 0) =
      some (39, written) :=
    ptzProtocolPackage_eq _ _ _ _ (by rw [List.length_replicate]; decide)
  have length : (ptzPackageBytes ⟨1700000000, 999999⟩ 0x0B [1, 0xFF, 3]).length = 39 :=
    length_ptzPackageBytes _ _ _
  have packet : written.take 39 = ptzPackageBytes ⟨1700000000, 999999⟩ 0x0B [1, 0xFF, 3] := by
    rw [← length]
    exact take_overlay _ _
  have differs : DiffersAt 24 (written.take 39) ((written.take 39).set 24 0x81) := by
    rw [packet]
    exact ⟨List.length_set, by decide, fun j other => List.getElem?_set_ne other.symm⟩
  exact ⟨made, ptzProtocol_corruption_rejected _ _ true _ (by decide) made (by decide) differs⟩

end PtzAgx.EthLink
