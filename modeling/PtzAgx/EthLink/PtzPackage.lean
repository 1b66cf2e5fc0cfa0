import PtzAgx.EthLink.PtzProtocol

/-! # Sending a PTZ package

The encoding half of `ptz_protocol/ptz_control_protocol.c`, over a buffer with
bounds like the decoding half, and the two of them together. The printout of the
package is left out.
-/

namespace PtzAgx.EthLink

open Object Words

def ptzPackageProtocolVersion : UInt32 := 9002
def ptzPackageStopbit : UInt32 := 0x8B8A8089
def ptzPackageMaxLen : Nat := 2048

/-- `struct timeval`. -/
structure Timeval where
  tvSec : Int
  tvUsec : Int

/-- Milliseconds, as `timesmap` holds them. -/
def Timeval.timesmap (tv : Timeval) : Nat := unsigned 64 (tv.tvSec * 1000 + tv.tvUsec.tdiv 1000)

def wordBytes (w : UInt32) : List UInt8 := littleBytes 4 w.toNat

/-- `seq_no`, which nothing counts up. -/
def ptzSeqNo : UInt32 := 0

/-- `tv` is what `gettimeofday` finds. The result is the package length and the
    buffer behind `pac`. -/
def ptzProtocolPackage (tv : Timeval) (msgid : UInt32) (msg : List UInt8) (pac : List UInt8) :
    Option (Nat × List UInt8) := do
  let len := msg.length
  let pac ← write pac 0 (wordBytes ptzPackageHead)
  let pac ← write pac 4 (wordBytes ptzPackageProtocolVersion)
  let pac ← write pac 8 (wordBytes (UInt32.ofNat (len + ptzPackageOverhead)))
  let pac ← write pac 12 (wordBytes msgid)
  let pac ← write pac 16 (littleBytes 8 tv.timesmap)
  let pac ← write pac ptzPackageMsgOffset msg
  let data := ptzPackageMsgOffset + len
  let totalLen := ptzPackageMsgOffset + len
  let pac ← write pac data (wordBytes ptzSeqNo)
  let totalLen := totalLen + ptzPackageSeqMsgLen
  let crc ← ptzProtocolCrcCal pac totalLen
  let pac ← write pac (data + 4) (wordBytes crc)
  let totalLen := totalLen + ptzPackageCrcLen
  let pac ← write pac (data + 8) (wordBytes ptzPackageStopbit)
  let totalLen := totalLen + ptzPackageStopbitLen
  return (totalLen, pac)

/-! ## What is sent -/

section Bytes

variable (tv : Timeval) (msgid : UInt32) (msg : List UInt8)

/-- The package up to the message. -/
def ptzPackageStart : List UInt8 :=
  wordBytes ptzPackageHead ++ wordBytes ptzPackageProtocolVersion ++
    wordBytes (UInt32.ofNat (msg.length + ptzPackageOverhead)) ++ wordBytes msgid ++
    littleBytes 8 tv.timesmap

/-- The part of the package in front of its checksum. -/
def ptzPackageBody : List UInt8 := ptzPackageStart tv msgid msg ++ msg ++ wordBytes ptzSeqNo

/-- All of the package. -/
def ptzPackageBytes : List UInt8 :=
  let body := ptzPackageBody tv msgid msg
  body ++ wordBytes (ptzByteSum body body.length) ++ wordBytes ptzPackageStopbit

@[simp] theorem length_wordBytes (w : UInt32) : (wordBytes w).length = 4 :=
  length_littleBytes 4 w.toNat

theorem length_ptzPackageStart : (ptzPackageStart tv msgid msg).length = ptzPackageMsgOffset := by
  simp only [ptzPackageStart, List.length_append, length_wordBytes, length_littleBytes]
  rfl

theorem length_ptzPackageBody : (ptzPackageBody tv msgid msg).length = 28 + msg.length := by
  have offset : ptzPackageMsgOffset = 24 := rfl
  simp only [ptzPackageBody, List.length_append, length_wordBytes, length_ptzPackageStart]
  omega

theorem length_ptzPackageBytes : (ptzPackageBytes tv msgid msg).length = msg.length + 36 := by
  simp only [ptzPackageBytes, List.length_append, length_wordBytes, length_ptzPackageBody]
  omega

theorem ptzByteSum_append (body rest : List UInt8) :
    ptzByteSum (body ++ rest) body.length = ptzByteSum body body.length := by
  by_cases short : body.length ≤ 8
  · have nothing : body.length - 8 = 0 := by omega
    simp only [ptzByteSum, nothing, List.take_zero]
  · have whole : (body.drop 8).length = body.length - 8 := List.length_drop
    rw [ptzByteSum, ptzByteSum, List.drop_append_of_le_length (by omega), ← whole, List.take_left,
      List.take_length]

theorem ptzProtocolPackage_eq (pac : List UInt8) (fits : msg.length + 36 ≤ pac.length) :
    ptzProtocolPackage tv msgid msg pac = some (msg.length + 36,
      overlay pac (ptzPackageBytes tv msgid msg)) := by
  have word (w : UInt32) := length_wordBytes w
  have start := length_ptzPackageStart tv msgid msg
  have body := length_ptzPackageBody tv msgid msg
  have offset : ptzPackageMsgOffset = 24 := rfl
  have total : ptzPackageMsgOffset + msg.length + 4 = (ptzPackageBody tv msgid msg).length := by
    omega
  have inside : (ptzPackageBody tv msgid msg).length ≤
      (overlay pac (ptzPackageBody tv msgid msg)).length := by
    rw [length_overlay (by omega)]
    omega
  have sum : ptzProtocolCrcCal (overlay pac (ptzPackageBody tv msgid msg))
    (ptzPackageMsgOffset + msg.length + 4) =
      some (ptzByteSum (ptzPackageBody tv msgid msg) (ptzPackageBody tv msgid msg).length) := by
    rw [total, ptzProtocolCrcCal_inside inside, overlay, ptzByteSum_append]
  show (write (overlay pac []) 0 _ >>= _) = _
  rw [write_bind (by rfl) (by rw [word]; omega), write_bind (by simp) (by rw [word]; omega),
    write_bind (by simp) (by rw [word]; omega), write_bind (by simp) (by rw [word]; omega),
    write_bind (by simp) (by rw [length_littleBytes]; omega)]
  show (write (overlay pac (ptzPackageStart tv msgid msg)) ptzPackageMsgOffset msg >>= _) = _
  rw [write_bind start.symm (by omega), write_bind (by rw [List.length_append, start])
    (by rw [word]; omega)]
  show (ptzProtocolCrcCal (overlay pac (ptzPackageBody tv msgid msg))
    (ptzPackageMsgOffset + msg.length + 4) >>= _) = _
  rw [sum]
  show (write (overlay pac (ptzPackageBody tv msgid msg))
    (ptzPackageMsgOffset + msg.length + 4) _ >>= _) = _
  rw [write_bind total (by rw [word]; omega),
    write_bind (by rw [List.length_append, word, ← total]) (by rw [word]; omega)]
  have length : ptzPackageMsgOffset + msg.length + ptzPackageSeqMsgLen + ptzPackageCrcLen +
    ptzPackageStopbitLen =
      msg.length + 36 := by
    simp only [ptzPackageSeqMsgLen, ptzPackageCrcLen, ptzPackageStopbitLen]
    omega
  exact congrArg (fun n => some (n, overlay pac (ptzPackageBytes tv msgid msg))) length

/-- The encoder stays inside its buffer only if the whole package fits. -/
theorem ptzProtocolPackage_fits {pac : List UInt8} {result : Nat × List UInt8}
    (made : ptzProtocolPackage tv msgid msg pac = some result) : msg.length + 36 ≤ pac.length := by
  simp only [ptzProtocolPackage, Option.bind_eq_bind, Option.bind_eq_some_iff] at made
  obtain ⟨pac₁, head, pac₂, version, pac₃, len, pac₄, command, pac₅, timesmap, pac₆, body, pac₇,
    seq, crc, -, pac₈, sum, pac₉, stopbit, -⟩ := made
  have last := (write_some stopbit).1
  have offset : ptzPackageMsgOffset = 24 := rfl
  rw [(write_some sum).2, (write_some seq).2, (write_some body).2, (write_some timesmap).2,
    (write_some command).2,
    (write_some len).2, (write_some version).2, (write_some head).2, length_wordBytes] at last
  omega

theorem ptzProtocolPackage_isSome_iff (pac : List UInt8) :
    (ptzProtocolPackage tv msgid msg pac).isSome ↔ msg.length + 36 ≤ pac.length := by
  constructor
  · intro returns
    obtain ⟨result, made⟩ := Option.isSome_iff_exists.mp returns
    exact ptzProtocolPackage_fits tv msgid msg made
  · intro fits
    rw [ptzProtocolPackage_eq tv msgid msg pac fits]
    rfl

/-! ## What is received -/

theorem ptzWordAt_eq {pac : List UInt8} {i : Nat} (front : List UInt8) (w : UInt32)
    (split : front ++ wordBytes w <+: pac) (here : i = front.length) : ptzWordAt pac i = w := by
  obtain ⟨rest, rfl⟩ := split
  have word : (wordBytes w ++ rest).take 4 = wordBytes w := List.take_left' (length_wordBytes w)
  have value : w.toNat % 256 ^ 4 = w.toNat := Nat.mod_eq_of_lt w.toNat_lt
  rw [ptzWordAt, List.append_assoc, here, List.drop_left, word, wordBytes, littleEndian_littleBytes,
    value, UInt32.ofNat_toNat]

theorem ptzPackageBytes_starts : ptzPackageStart tv msgid msg <+: ptzPackageBytes tv msgid msg := by
  simp only [ptzPackageBytes, ptzPackageBody, List.append_assoc]
  exact List.prefix_append _ _

theorem ptzPackageBytes_head : ptzWordAt (ptzPackageBytes tv msgid msg) 0 = ptzPackageHead := by
  apply ptzWordAt_eq [] ptzPackageHead (.trans _ (ptzPackageBytes_starts tv msgid msg)) rfl
  simp only [ptzPackageStart, List.append_assoc, List.nil_append]
  exact List.prefix_append _ _

theorem ptzPackageBytes_len :
    ptzWordAt (ptzPackageBytes tv msgid msg) 8 =
      UInt32.ofNat (msg.length + ptzPackageOverhead) := by
  apply ptzWordAt_eq (wordBytes ptzPackageHead ++ wordBytes ptzPackageProtocolVersion) _
    (.trans _ (ptzPackageBytes_starts tv msgid msg)) rfl
  simp only [ptzPackageStart, List.append_assoc]
  exact ⟨_, by simp only [List.append_assoc]; rfl⟩

theorem ptzPackageBytes_command : ptzWordAt (ptzPackageBytes tv msgid msg) 12 = msgid := by
  apply ptzWordAt_eq (wordBytes ptzPackageHead ++ wordBytes ptzPackageProtocolVersion ++
    wordBytes (UInt32.ofNat (msg.length + ptzPackageOverhead)))
    _ (.trans _ (ptzPackageBytes_starts tv msgid msg)) rfl
  exact List.prefix_append _ _

theorem ptzPackageBytes_msg :
    ((ptzPackageBytes tv msgid msg).drop ptzPackageMsgOffset).take msg.length = msg := by
  simp only [ptzPackageBytes, ptzPackageBody, List.append_assoc]
  rw [List.drop_left' (length_ptzPackageStart tv msgid msg), List.take_left]

theorem ptzPackageBytes_crc : ptzWordAt (ptzPackageBytes tv msgid msg) (28 + msg.length) =
    ptzByteSum (ptzPackageBytes tv msgid msg) (28 + msg.length) := by
  have sum : ptzByteSum (ptzPackageBytes tv msgid msg) (ptzPackageBody tv msgid msg).length =
      ptzByteSum (ptzPackageBody tv msgid msg) (ptzPackageBody tv msgid msg).length := by
    rw [ptzPackageBytes, List.append_assoc, ptzByteSum_append]
  rw [← length_ptzPackageBody tv msgid msg, sum]
  exact ptzWordAt_eq _ _ (List.prefix_append _ _) rfl

theorem ptzProtocolVerify_accepts {pac : List UInt8} {lmsg : PtzProtocolMsg} {n : Nat}
    (inside : n + 8 ≤ pac.length)
    (place : (ptzPackageMsgOffset : Int) + lmsg.msglen + ptzPackageSeqMsgLen = n)
    (small : n < 2 ^ 32)
    (same : ptzWordAt pac n = ptzByteSum pac n) : ptzProtocolVerify pac lmsg = some (0, lmsg) := by
  have sum : unsigned 32 (n : Int) = n := by
    simp only [unsigned]
    omega
  have after : (n : Int) + 4 = ((n + 4 : Nat) : Int) := rfl
  simp only [ptzProtocolVerify, place, sum]
  rw [ptzProtocolCrcCal_inside (by omega), ptzWord_inside (by omega), after,
    ptzWord_inside (by omega)]
  simp only [Option.bind_eq_bind, Option.bind_some]
  rw [if_neg (not_not_intro same)]
  rfl

theorem ptzMsglen_package (fits : msg.length + ptzPackageOverhead < 2 ^ 31) :
    ptzMsglen (UInt32.ofNat (msg.length + ptzPackageOverhead)) = msg.length := by
  have overhead : ptzPackageOverhead = 20 := rfl
  have value : (UInt32.ofNat (msg.length + ptzPackageOverhead)).toNat = msg.length +
      ptzPackageOverhead :=
    UInt32.toNat_ofNat_of_lt' (show _ < 2 ^ 32 by omega)
  rcases ptzMsglen_cases (UInt32.ofNat (msg.length + ptzPackageOverhead)) with ⟨_, eq⟩ | ⟨large, _⟩
  · rw [eq, value]
    omega
  · omega

/-- Decoding what was encoded. A message without bytes leaves `msg` as it was. -/
theorem ptzProtocolNetworkDataAnalysis_bytes (len : Nat) (lmsg : PtzProtocolMsg)
    (fits : msg.length ≤ ptzPackageMaxLen) :
    ptzProtocolNetworkDataAnalysis true (ptzPackageBytes tv msgid msg) len lmsg =
      some (0, ⟨msgid, msg.length, if msg = [] then lmsg.msg else some msg⟩) := by
  have total := length_ptzPackageBytes tv msgid msg
  have overhead : ptzPackageOverhead = 20 := rfl
  have offset : ptzPackageMsgOffset = 24 := rfl
  have seq : ptzPackageSeqMsgLen = 4 := rfl
  have most : ptzPackageMaxLen = 2048 := rfl
  have msglen := ptzMsglen_package msg (by omega)
  have accepts (found : Option (List UInt8)) :
      ptzProtocolVerify (ptzPackageBytes tv msgid msg) ⟨msgid, msg.length, found⟩ =
      some (0, ⟨msgid, msg.length, found⟩) :=
    ptzProtocolVerify_accepts (by omega) (by simp only; omega) (by omega)
      (ptzPackageBytes_crc tv msgid msg)
  unfold ptzProtocolNetworkDataAnalysis PtzProtocolPac.head PtzProtocolPac.len
    PtzProtocolPac.command
  rw [ptzWord_bind (by omega : 0 + 4 ≤ _), ptzPackageBytes_head, if_neg (not_not_intro rfl),
    ptzWord_bind (by omega : 8 + 4 ≤ _), ptzWord_bind (by omega : 12 + 4 ≤ _), ptzPackageBytes_len,
    ptzPackageBytes_command, msglen]
  cases msg with
  | nil => exact accepts lmsg.msg
  | cons b msg =>
      have some_bytes : (0 : Int) < (b :: msg).length := Int.natCast_pos.mpr (Nat.succ_pos _)
      rw [if_pos some_bytes, if_pos rfl, if_neg (List.cons_ne_nil b msg)]
      have copied := ptzPackageBytes_msg tv msgid (b :: msg)
      rw [Int.toNat_natCast, slice_bind (by omega), copied]
      exact accepts (some (b :: msg))

end Bytes

/-- The receiver of a package gets the command and the message its sender put
    into it, `NULL` for an empty message. `command` and `msglen` are whatever the
    receiver's record holds before. -/
theorem ptzProtocol_roundtrip (tv : Timeval) (msgid command : UInt32) (msglen : Int)
    (msg pac : List UInt8)
    (fits : msg.length ≤ ptzPackageMaxLen - 36) (room : msg.length + 36 ≤ pac.length) :
    ∃ pac', ptzProtocolPackage tv msgid msg pac = some (msg.length + 36, pac') ∧
      ptzProtocolNetworkDataAnalysis true (pac'.take (msg.length + 36)) (msg.length + 36) ⟨command,
        msglen, none⟩ =
        some (0, ⟨msgid, msg.length, if msg = [] then none else some msg⟩) := by
  refine ⟨_, ptzProtocolPackage_eq tv msgid msg pac room, ?_⟩
  rw [← length_ptzPackageBytes tv msgid msg, take_overlay]
  exact ptzProtocolNetworkDataAnalysis_bytes tv msgid msg _ _ (Nat.le_trans fits (Nat.sub_le _ _))

theorem ptzProtocol_roundtrip_three :
    ∃ pac', ptzProtocolPackage ⟨1700000000, 999999⟩ 0x0B
      [1, 0xFF, 3] (List.replicate ptzPackageMaxLen 0) =
        some (39, pac') ∧
      ptzProtocolNetworkDataAnalysis true (pac'.take 39) 39 ⟨0, 0, none⟩ =
      some (0, ⟨0x0B, 3, some [1, 0xFF, 3]⟩) :=
  ptzProtocol_roundtrip ⟨1700000000, 999999⟩ 0x0B 0 0 [1, 0xFF, 3]
    (List.replicate ptzPackageMaxLen 0) (by decide)
    (by rw [List.length_replicate]; decide)

end PtzAgx.EthLink
