import Mathlib.Data.List.TFAE
import Mathlib.Tactic.TFAE
import PtzAgx.Alink.Burst
import PtzAgx.Alink.Frame
import PtzAgx.Lib.Object

/-! # The device search protocol's own frame check

`eth_protocol/netcon_protocol.c`. The UDP search protocol uses the alink frame
but brings its own analysis, with the CRC loop written out once more. It agrees
with the two validators of alink on every byte string that fits a 16 bit
length.
-/

namespace PtzAgx.EthLink

open Bytes Words Crc Framing Alink

/-- `sizeof(eth_protocol_head_t)`. -/
def ethProtocolHeadSize : Nat := 9

/-- One round of the inlined CRC loop. -/
def ethProtocolCrcRound (data : UInt8) (crc : UInt16) : UInt16 :=
  let tmp := data ^^^ (crc &&& 0xFF).toUInt8
  let tmp := tmp ^^^ (tmp <<< 4)
  (crc >>> 8) ^^^ (tmp.toUInt16 <<< 8) ^^^ (tmp.toUInt16 <<< 3) ^^^ (tmp.toUInt16 >>> 4)

/-- `while( count-- )`: the CRC and the pointer behind the bytes it covers. -/
def ethProtocolCrcLoop : Nat → Ptr UInt8 → UInt16 → UInt16 × Ptr UInt8
  | 0, data, crc => (crc, data)
  | count + 1, data, crc =>
    ethProtocolCrcLoop count (data.advance 1) (ethProtocolCrcRound (data 0) crc)

/-- The loop over the first eight header bytes. -/
def ethProtocolChecksum (msg : Ptr UInt8) : UInt8 := (msg.read 8).foldl (· + ·) 0

/-- The offset of the payload in `msg`, `none` for `NULL`. -/
def ethProtocolAnalysis (msg : Ptr UInt8) (len : Nat) : Option Nat :=
  if 0xFD ≠ MsgHead.magic msg then none
  else
    let size := ((MsgHead.lenHi msg).toNat <<< 8) ||| (MsgHead.lenLo msg).toNat
    if size + 11 ≠ len then none
    else if MsgHead.checksum msg ≠ ethProtocolChecksum msg then none
    else
      let after := ethProtocolCrcLoop (wrapSub 32 len 3) (msg.advance 1) 0xFFFF
      let check := word16 (after.2 1) (after.2 0)
      if after.1 ≠ check then none else some ethProtocolHeadSize

/-! ## Making a message -/

def devIdAgx : UInt8 := 0x07
def netprotocalMsgIdLookup : UInt8 := 0xBA
def netprotocalMsgIdLookupResp : UInt8 := 0xBB
def netprotocalMsgIdRequestConnect : UInt8 := 0xBC

/-- The loop of `eth_protocol_package`, which steps before it reads, so that it
    ends at byte `count`. -/
def ethProtocolPackageCrc (msg : List UInt8) (count : Nat) : Option UInt16 :=
  Object.foldFrom (fun crc data => ethProtocolCrcRound data crc) msg count 1 0xFFFF

/-- The size it returns, and the message. -/
def ethProtocolPackage (msgid : UInt8) (msg : List UInt8) (len : Nat) :
    Option (Nat × List UInt8) := do
  let msg ← Object.write msg 0 [0xFD, UInt8.ofNat len, UInt8.ofNat (len / 256), 0, 0xFF,
    devIdAgx, msgid, 0]
  let checksum ← Object.foldFrom (· + ·) msg 8 0 0
  let msg ← Object.write msg 8 [checksum]
  let count := wrapSub 32 (wrap 32 (len + 11)) 3
  let crc ← ethProtocolPackageCrc msg count
  let msg ← Object.write msg (count + 1) [crc.toUInt8]
  let msg ← Object.write msg (count + 2) [(crc >>> 8).toUInt8]
  return (wrap 32 (len + 11), msg)

/-- `sizeof(eth_protocol_cntinfo_t)`: 32 bytes of `sn`, then `ip`, `port` and `type`. -/
def ethProtocolCntinfoSize : Nat := 40

/-- `sizeof(eth_protocol_request_t)`. -/
def ethProtocolRequestSize : Nat := 51

def ethProtocolGetRequestPackage (msg epCtlinfo : List UInt8) : Option (Nat × List UInt8) := do
  let epReqPackage := List.replicate ethProtocolRequestSize 0
  let epReqPackage ← Object.write epReqPackage ethProtocolHeadSize epCtlinfo
  let (_, epReqPackage) ← ethProtocolPackage netprotocalMsgIdRequestConnect epReqPackage
    (ethProtocolRequestSize - ethProtocolHeadSize - 2)
  let msg ← Object.write msg 0 epReqPackage
  return (ethProtocolRequestSize, msg)

/-! ## The analysis beside alink's checks -/

theorem ethProtocolCrcLoop_eq (count : Nat) (data : Ptr UInt8) (crc : UInt16) :
    ethProtocolCrcLoop count data crc = (crcOver crc (data.read count), data.advance count) := by
  induction count generalizing data crc with
  | zero => simp [ethProtocolCrcLoop, crcOver]
  | succ count ih =>
      rw [ethProtocolCrcLoop, ih, Ptr.read_succ, Ptr.advance_advance, Nat.add_comm 1]
      rfl

section Agreement

variable {mem msg : Ptr UInt8} {len : Nat}

theorem ethProtocolAnalysis_size (msg : Ptr UInt8) :
    ((MsgHead.lenHi msg).toNat <<< 8) |||
      (MsgHead.lenLo msg).toNat = (alinkGetPayloadSize msg).toNat := by
  rw [shiftLeft_or, alinkGetPayloadSize, word16_toNat]

theorem ethProtocolAnalysis_crc (long : 11 ≤ len) (short : len ≤ 65535)
    (sized : alinkGetPackageSize msg = len) :
    (ethProtocolCrcLoop (wrapSub 32 len 3) (msg.advance 1) 0xFFFF).1 =
        word16 ((ethProtocolCrcLoop (wrapSub 32 len 3) (msg.advance 1) 0xFFFF).2 1)
          ((ethProtocolCrcLoop (wrapSub 32 len 3) (msg.advance 1) 0xFFFF).2 0) ↔
      alinkCheckCrc msg len = true := by
  have three : wrapSub 32 len 3 = len - 3 := wrapSub_of_le (by omega) (by omega)
  have two : wrapSub 32 len 2 = len - 2 := wrapSub_of_le (by omega) (by omega)
  have covered : wrap 16 (len - 3) = len - 3 := wrap_of_lt (by omega)
  have behind : 1 + (len - 3) = len - 2 := by omega
  simp only [ethProtocolCrcLoop_eq, alinkCheckCrc, sized, if_true, three, two,
    crcCalculate, covered, Ptr.advance_apply, ← Nat.add_assoc, behind, beq_iff_eq]
  exact eq_comm

/-- The analysis makes the checks of `alink_check_package`, the length before
    the header checksum. -/
theorem ethProtocolAnalysis_iff (long : 11 ≤ len) (short : len ≤ 65535) :
    ethProtocolAnalysis msg len ≠ none ↔ alinkCheckPackage msg len = true := by
  have fits : wrap 16 len = len := wrap_of_lt (by omega)
  have enough : ¬ alinkNoPayloadSize > len := Nat.not_lt.mpr long
  have size : (alinkGetPayloadSize msg).toNat + 11 = alinkGetPackageSize msg :=
    (alinkGetPackageSize_eq msg).symm
  simp only [ethProtocolAnalysis, ethProtocolAnalysis_size, size, alinkCheckPackage, fits,
    enough, if_false]
  by_cases magic : 0xFD = MsgHead.magic msg
  · have starts : alinkCheckMagic (msg 0) = true := beq_iff_eq.mpr magic
    by_cases header : MsgHead.checksum msg = ethProtocolChecksum msg
    · have summed : alinkCheckHeaderChecksum msg = true := beq_iff_eq.mpr header
      by_cases sized : alinkGetPackageSize msg = len
      · have crc := ethProtocolAnalysis_crc long short sized
        simp only [magic, starts, header, summed, sized, ne_eq, not_true, if_false, if_true, ← crc]
        split_ifs with same
        · exact iff_of_true not_false same
        · exact iff_of_false (fun found => found rfl) same
      · have refused : alinkCheckCrc msg len = false := by
          simp only [alinkCheckCrc, sized, if_false]
        simp [magic, starts, summed, sized, refused]
    · have summed : alinkCheckHeaderChecksum msg = false := beq_eq_false_iff_ne.mpr header
      simp [starts, header, summed]
  · have starts : alinkCheckMagic (msg 0) = false := beq_eq_false_iff_ne.mpr magic
    simp [magic, starts]

variable {psHandle : AlinkOrderRef} {psRecv : AlinkRecv} {sImport : AlinkRecvImport}
  {p : List UInt8}

/-- The batch validator, the search protocol's analysis and the streaming
    receiver accept the same byte strings. The last two items say the same of
    the receiver: that it hands over `p` where it stands, and that it hands over
    nothing else. -/
theorem validators_agree (long : 11 ≤ p.length) (short : p.length ≤ 65535)
    (ready : Ready mem psHandle psRecv sImport p) :
    List.TFAE
      [alinkCheckPackage (mem.advance sImport.pbyData) p.length = true,
        ethProtocolAnalysis (mem.advance sImport.pbyData) p.length ≠ none,
        ∃ psRecv' sent, alinkRecvTask mem psRecv sImport = some (psRecv', sent) ∧
          ∃ d ∈ sent, d.psImport.pbyMsg = sImport.pbyData ∧ d.msg = p,
        ∃ psRecv', alinkRecvTask mem psRecv sImport =
          some (psRecv', [dispatchOf mem psHandle sImport sImport.pbyData p.length])] := by
  have packages : alinkCheckPackage (mem.advance sImport.pbyData) p.length = true ↔
      alinkFormat.IsFrame p := by
    have stored : (mem.advance sImport.pbyData).read p.length = (Ptr.ofList p).read p.length := by
      rw [ready.stored, Ptr.read_ofList]
    rw [alinkCheckPackage_congr stored long short, alinkCheckPackage_iff long short]
  tfae_have 1 ↔ 2 := (ethProtocolAnalysis_iff long short).symm
  tfae_have 1 → 4 := by
    intro checked
    obtain ⟨psRecv', ran, -⟩ := alinkRecvTask_frame ready (packages.mp checked)
    exact ⟨psRecv', ran⟩
  tfae_have 4 → 3 := by
    rintro ⟨psRecv', ran⟩
    exact ⟨psRecv', _, ran, _, List.mem_cons_self, rfl, ready.stored⟩
  tfae_have 3 → 1 := by
    rintro ⟨psRecv', sent, ran, d, member, -, whole⟩
    obtain ⟨psRecv'', sent', ran', scanned⟩ := alinkRecvTask_scan ready
    obtain ⟨rfl, rfl⟩ := Prod.mk.inj (Option.some.inj (ran.symm.trans ran'))
    have found : p ∈ (alinkFormat.scan p).1 := by
      rw [← scanned.msgs]
      exact List.mem_map.mpr ⟨d, member, whole⟩
    exact packages.mpr (alinkFormat.isFrame_of_mem_scan found)
  tfae_finish

theorem ethProtocolAnalysis_found {pbyData : Nat}
    (found : ethProtocolAnalysis msg len = some pbyData) :
    11 ≤ len ∧ pbyData = ethProtocolHeadSize := by
  simp only [ethProtocolAnalysis] at found
  split_ifs at found with magic sized
  exact ⟨by omega, (Option.some.inj found).symm⟩

theorem ethProtocolAnalysis_accepted (accepted : ethProtocolAnalysis msg len ≠ none) :
    11 ≤ len ∧ ethProtocolAnalysis msg len = some ethProtocolHeadSize := by
  obtain ⟨pbyData, found⟩ := Option.ne_none_iff_exists'.mp accepted
  obtain ⟨long, rfl⟩ := ethProtocolAnalysis_found found
  exact ⟨long, found⟩

theorem ethProtocolAnalysis_congr {other : Ptr UInt8} (short : len ≤ 65535)
    (same : msg.read len = other.read len)
    (accepted : ethProtocolAnalysis msg len ≠ none) :
    ethProtocolAnalysis other len = some ethProtocolHeadSize := by
  have long := (ethProtocolAnalysis_accepted accepted).1
  have checked := (ethProtocolAnalysis_iff long short).mp accepted
  rw [alinkCheckPackage_congr same long short] at checked
  exact (ethProtocolAnalysis_accepted ((ethProtocolAnalysis_iff long short).mpr checked)).2

theorem ethProtocolAnalysis_append {f : List UInt8} (short : f.length ≤ 65535)
    (accepted : ethProtocolAnalysis (Ptr.ofList f) f.length ≠ none) (rest : List UInt8) :
    ethProtocolAnalysis (Ptr.ofList (f ++ rest)) f.length = some ethProtocolHeadSize ∧
      MsgHead.msgid (Ptr.ofList (f ++ rest)) = MsgHead.msgid (Ptr.ofList f) := by
  have long := (ethProtocolAnalysis_accepted accepted).1
  have front : (Ptr.ofList f).read f.length = (Ptr.ofList (f ++ rest)).read f.length :=
    Ptr.read_congr fun i inside => (Ptr.ofList_front f rest inside).symm
  exact ⟨ethProtocolAnalysis_congr short front accepted,
    Ptr.ofList_front f rest (show 6 < f.length by omega)⟩

end Agreement

theorem validators_agree_empty :
    let mem := Ptr.ofList emptyFrame
    let psRecv : AlinkRecv := ⟨0, 0, some .sOrder, 0, .checkMagic⟩
    let sImport : AlinkRecvImport := ⟨2, 0, emptyFrame.length, 7, true⟩
    List.TFAE
      [alinkCheckPackage (mem.advance sImport.pbyData) emptyFrame.length = true,
        ethProtocolAnalysis (mem.advance sImport.pbyData) emptyFrame.length ≠ none,
        ∃ psRecv' sent, alinkRecvTask mem psRecv sImport = some (psRecv', sent) ∧
          ∃ d ∈ sent, d.psImport.pbyMsg = sImport.pbyData ∧ d.msg = emptyFrame,
        ∃ psRecv', alinkRecvTask mem psRecv sImport =
          some (psRecv', [dispatchOf mem .sOrder sImport sImport.pbyData emptyFrame.length])] :=
  validators_agree emptyFrame_accepted.long emptyFrame_accepted.short ⟨rfl, rfl, rfl,
    rfl, by decide⟩

/-! ## What is made -/

section Package

variable (msgid : UInt8) {msg payload : List UInt8}

/-- The header of a message of this size, in front of its checksum. -/
def ethProtocolFields (len : Nat) : List UInt8 :=
  [0xFD, UInt8.ofNat len, UInt8.ofNat (len / 256), 0, 0xFF, devIdAgx, msgid, 0]

def ethProtocolHead (len : Nat) : List UInt8 :=
  ethProtocolFields msgid len ++ [(ethProtocolFields msgid len).foldl (· + ·) 0]

/-- All of the message with this payload. -/
def ethProtocolFrame (payload : List UInt8) : List UInt8 :=
  let body := ethProtocolHead msgid payload.length ++ payload
  let crc := crcOver 0xFFFF body.tail
  body ++ [crc.toUInt8, (crc >>> 8).toUInt8]

theorem length_ethProtocolBody (payload : List UInt8) :
    (ethProtocolHead msgid payload.length ++ payload).length = payload.length + 8 + 1 := by
  have nine : (ethProtocolHead msgid payload.length).length = 9 := rfl
  rw [List.length_append, nine]
  omega

theorem length_ethProtocolFrame (payload : List UInt8) :
    (ethProtocolFrame msgid payload).length = payload.length + 11 :=
  (List.length_append).trans (congrArg (· + 2) (length_ethProtocolBody msgid payload))

theorem ethProtocolFrame_payload (payload : List UInt8) :
    ((ethProtocolFrame msgid payload).drop ethProtocolHeadSize).take payload.length = payload := by
  rw [ethProtocolFrame, List.append_assoc, List.drop_left' (by rfl), List.take_left]

theorem ethProtocolFields_sum (len : Nat) (fits : 8 ≤ msg.length) :
    Object.foldFrom (· + ·) (Object.overlay msg (ethProtocolFields msgid len)) 8 0 0 =
      some ((ethProtocolFields msgid len).foldl (· + ·) 0) := by
  have inside : 0 + 8 ≤ (Object.overlay msg (ethProtocolFields msgid len)).length := by
    rw [Object.length_overlay (show (ethProtocolFields msgid len).length ≤ msg.length from fits)]
    omega
  rw [Object.foldFrom_inside _ _ inside, List.drop_zero]
  exact congrArg (fun cells => some (cells.foldl (· + ·) 0))
    (Object.take_overlay msg (ethProtocolFields msgid len))

theorem ethProtocolPackageCrc_overlay (msg : List UInt8) {body : List UInt8} {count : Nat}
    (length : body.length = count + 1) (fits : body.length ≤ msg.length) :
    ethProtocolPackageCrc (Object.overlay msg body) count = some (crcOver 0xFFFF body.tail) := by
  have inside : 1 + count ≤ (Object.overlay msg body).length := by
    rw [Object.length_overlay fits]
    omega
  have tail : body.tail.length = count := by
    rw [List.length_tail, length, Nat.add_sub_cancel]
  have covered : ((Object.overlay msg body).drop 1).take count = body.tail := by
    rw [Object.overlay, List.drop_append_of_le_length (by omega), List.drop_one,
      List.take_left' tail]
  rw [ethProtocolPackageCrc, Object.foldFrom_inside _ _ inside, covered]
  rfl

/-- The payload is where it belongs; the header and the CRC are written around it. -/
theorem ethProtocolPackage_eq (sized : msg.length = payload.length + 11)
    (placed : (msg.drop ethProtocolHeadSize).take payload.length = payload)
    (short : payload.length + 11 < 2 ^ 32) :
    ethProtocolPackage msgid msg payload.length = some (payload.length + 11,
      ethProtocolFrame msgid payload) := by
  have total : wrap 32 (payload.length + 11) = payload.length + 11 := wrap_of_lt short
  have count : wrapSub 32 (payload.length + 11) 3 = payload.length + 8 :=
    wrapSub_of_le (by omega) short
  have body := length_ethProtocolBody msgid payload
  have kept : Object.overlay msg (ethProtocolHead msgid payload.length) =
      Object.overlay msg (ethProtocolHead msgid payload.length ++ payload) := by
    rw [← Object.overlay_kept msg (ethProtocolHead msgid payload.length) payload.length]
    exact congrArg (fun cells => Object.overlay msg (ethProtocolHead msgid payload.length ++ cells))
      placed
  have crc := ethProtocolPackageCrc_overlay msg body (by omega)
  rw [ethProtocolPackage, total, count]
  show (Object.write (Object.overlay msg []) 0 (ethProtocolFields msgid payload.length) >>= _) = _
  rw [Object.write_bind (by rfl)
    (by simp only [ethProtocolFields, List.length_cons, List.length_nil]; omega),
    List.nil_append, ethProtocolFields_sum msgid payload.length (by omega)]
  show (Object.write (Object.overlay msg (ethProtocolFields msgid payload.length)) 8 _ >>= _) = _
  rw [Object.write_bind (by rfl) (by rw [List.length_singleton]; omega), ← ethProtocolHead, kept]
  show (ethProtocolPackageCrc _ (payload.length + 8) >>= _) = _
  rw [crc]
  show (Object.write (Object.overlay msg (ethProtocolHead msgid payload.length ++ payload))
    (payload.length + 8 + 1) _
    >>= _) = _
  rw [Object.write_bind body.symm (by rw [List.length_singleton]; omega),
    Object.write_bind (by rw [List.length_append, body]; rfl)
    (by rw [List.length_singleton]; omega),
    List.append_assoc, List.singleton_append, ← ethProtocolFrame, Object.overlay_whole]
  · rfl
  · rw [length_ethProtocolFrame, sized]

theorem ethProtocolGetRequestPackage_eq {epCtlinfo : List UInt8}
    (sized : epCtlinfo.length = ethProtocolCntinfoSize)
    (room : msg.length = ethProtocolRequestSize) :
    ethProtocolGetRequestPackage msg epCtlinfo =
      some (ethProtocolRequestSize, ethProtocolFrame netprotocalMsgIdRequestConnect epCtlinfo) := by
  have forty : epCtlinfo.length = 40 := sized
  have filled :
    Object.write (List.replicate ethProtocolRequestSize 0) ethProtocolHeadSize epCtlinfo =
      some (List.replicate 9 0 ++ epCtlinfo ++ List.replicate 2 0) := by
    rw [Object.write, sized]
    rfl
  have made : ethProtocolPackage netprotocalMsgIdRequestConnect
    (List.replicate 9 0 ++ epCtlinfo ++ List.replicate 2 0)
      epCtlinfo.length = some (epCtlinfo.length + 11,
        ethProtocolFrame netprotocalMsgIdRequestConnect epCtlinfo) :=
    ethProtocolPackage_eq _ (by simp) (by simp [ethProtocolHeadSize]) (by rw [forty]; decide)
  have length : (ethProtocolFrame netprotocalMsgIdRequestConnect epCtlinfo).length =
      msg.length := by
    rw [length_ethProtocolFrame, forty, room]
    rfl
  rw [forty] at made
  rw [ethProtocolGetRequestPackage, filled]
  show (ethProtocolPackage netprotocalMsgIdRequestConnect _ 40 >>= _) = _
  rw [made]
  show (Object.write msg 0 (ethProtocolFrame netprotocalMsgIdRequestConnect epCtlinfo) >>= _) = _
  rw [Object.write_whole length]
  rfl

/-- The loop of the analysis, over a message made here, finds the CRC that was
    stored and stops in front of it. -/
theorem ethProtocolFrame_crcLoop (payload : List UInt8) :
    let frame := Ptr.ofList (ethProtocolFrame msgid payload)
    let crc := crcOver 0xFFFF (ethProtocolHead msgid payload.length ++ payload).tail
    ethProtocolCrcLoop (payload.length + 8) (frame.advance 1) 0xFFFF =
    (crc, frame.advance (payload.length + 9)) ∧
      frame (payload.length + 9) = crc.toUInt8 ∧ frame (payload.length + 10) =
      (crc >>> 8).toUInt8 := by
  intro frame crc
  obtain ⟨covered, low, high⟩ :=
    Ptr.ofList_trailer (length_ethProtocolBody msgid payload) crc.toUInt8 (crc >>> 8).toUInt8
  have behind : 1 + (payload.length + 8) = payload.length + 9 := by omega
  refine ⟨?_, low, high⟩
  rw [ethProtocolCrcLoop_eq, Ptr.advance_advance, behind]
  exact congrArg (fun cells => (crcOver 0xFFFF cells, frame.advance (payload.length + 9))) covered

/-- The analysis accepts what was made, also where the size of the whole message
    does not fit 16 bits. -/
theorem ethProtocolFrame_analysis (payload : List UInt8) (fits : payload.length ≤ 65535) :
    ethProtocolAnalysis (Ptr.ofList (ethProtocolFrame msgid payload))
      (ethProtocolFrame msgid payload).length =
      some ethProtocolHeadSize := by
  have length := length_ethProtocolFrame msgid payload
  obtain ⟨loop, low, high⟩ := ethProtocolFrame_crcLoop msgid payload
  have magic : 0xFD = MsgHead.magic (Ptr.ofList (ethProtocolFrame msgid payload)) := rfl
  have size : ((MsgHead.lenHi (Ptr.ofList (ethProtocolFrame msgid payload))).toNat <<< 8 |||
      (MsgHead.lenLo (Ptr.ofList (ethProtocolFrame msgid payload))).toNat) = payload.length := by
    have word : alinkGetPayloadSize (Ptr.ofList (ethProtocolFrame msgid payload)) =
        word16 (UInt8.ofNat (payload.length / 256)) (UInt8.ofNat payload.length) := rfl
    rw [ethProtocolAnalysis_size, word, word16_split, wrap_of_lt (Nat.lt_succ_of_le fits)]
  have summed : ethProtocolChecksum (Ptr.ofList (ethProtocolFrame msgid payload)) =
      (ethProtocolFields msgid payload.length).foldl (· + ·) 0 := rfl
  have stored : MsgHead.checksum (Ptr.ofList (ethProtocolFrame msgid payload)) =
      (ethProtocolFields msgid payload.length).foldl (· + ·) 0 := by
    unfold ethProtocolFrame ethProtocolHead
    rw [List.append_assoc, List.append_assoc]
    exact Ptr.ofList_append_cons (ethProtocolFields msgid payload.length) _ _
  have count : wrapSub 32 (payload.length + 11) 3 = payload.length + 8 :=
    wrapSub_of_le (by omega) (by omega)
  rw [length]
  simp only [ethProtocolAnalysis, ← magic, size, summed, stored, count, loop, Ptr.advance_apply,
    Nat.add_zero, Nat.add_assoc, Nat.reduceAdd, low, high, word16_bytes, ne_eq, not_true, if_false]

/-- A message round trip. The header and the CRC bytes may hold anything before;
    what is returned is the size of the message, and the analysis points at the
    payload in it. -/
theorem ethProtocol_roundtrip (head payload crc : List UInt8) (fits : payload.length ≤ 65535)
    (nine : head.length = ethProtocolHeadSize) (two : crc.length = 2) :
    ∃ msg, ethProtocolPackage msgid (head ++ payload ++ crc) payload.length =
      some (payload.length + 11, msg) ∧
      msg.length = payload.length + 11 ∧
      (msg.drop ethProtocolHeadSize).take payload.length = payload ∧
      ethProtocolAnalysis (Ptr.ofList msg) (payload.length + 11) = some ethProtocolHeadSize ∧
      MsgHead.msgid (Ptr.ofList msg) = msgid := by
  have length := length_ethProtocolFrame msgid payload
  have sized : (head ++ payload ++ crc).length = payload.length + 11 := by
    rw [List.length_append, List.length_append, nine, two, ethProtocolHeadSize]
    omega
  have placed : ((head ++ payload ++ crc).drop ethProtocolHeadSize).take payload.length =
      payload := by
    rw [List.append_assoc, List.drop_left' nine, List.take_left]
  have analysed := ethProtocolFrame_analysis msgid payload fits
  rw [length] at analysed
  exact ⟨_, ethProtocolPackage_eq msgid sized placed (by omega), length,
    ethProtocolFrame_payload msgid payload, analysed, rfl⟩

theorem ethProtocol_roundtrip_two :
    ∃ msg, ethProtocolPackage 0xBB (List.replicate 9 0xAA ++ [1, 2] ++ [0xAA, 0xAA]) 2 =
      some (13, msg) ∧
      msg.length = 13 ∧ (msg.drop ethProtocolHeadSize).take 2 = [1, 2] ∧
      ethProtocolAnalysis (Ptr.ofList msg) 13 = some ethProtocolHeadSize ∧
      MsgHead.msgid (Ptr.ofList msg) = 0xBB :=
  ethProtocol_roundtrip 0xBB (List.replicate 9 0xAA) [1, 2] [0xAA, 0xAA] (by decide) rfl rfl

end Package

/-! ## One CRC -/

section OneCrc

variable (bytes rest : List UInt8)

theorem crcCalculate_run (short : bytes.length < 65536) :
    (crcCalculate (Ptr.ofList (bytes ++ rest)) bytes.length).toNat =
      run x25Polynomial 0xFFFF (bytesBits bytes) := by
  rw [crcCalculate, wrap_of_lt short, Ptr.read_ofList_append]
  exact crcOver_run x25InitCrc bytes

theorem ethProtocolCrcLoop_run :
    (ethProtocolCrcLoop bytes.length (Ptr.ofList (bytes ++ rest)) 0xFFFF).1.toNat =
      run x25Polynomial 0xFFFF (bytesBits bytes) := by
  rw [ethProtocolCrcLoop_eq, Ptr.read_ofList_append]
  exact crcOver_run 0xFFFF bytes

theorem ethProtocolPackageCrc_run (first : UInt8) :
    (ethProtocolPackageCrc (first :: bytes ++ rest) bytes.length).map UInt16.toNat =
      some (run x25Polynomial 0xFFFF (bytesBits bytes)) := by
  have fits : (first :: bytes).length ≤ (first :: bytes ++ rest).length := by
    rw [List.length_append]
    exact Nat.le_add_right _ _
  have whole :
      Object.overlay (first :: bytes ++ rest) (first :: bytes) = first :: bytes ++ rest := by
    rw [Object.overlay, List.drop_left]
  have crc := ethProtocolPackageCrc_overlay (first :: bytes ++ rest) (List.length_cons) fits
  rw [whole] at crc
  rw [crc]
  exact congrArg some (crcOver_run 0xFFFF bytes)

/-- `crc_calculate` and the two loops of the search protocol are given the same
    bytes, the encoder's one place before them, and find the bit-serial CRC. -/
theorem crcLoops_bitSerial (short : bytes.length < 65536) (first : UInt8) :
    let crc := run x25Polynomial 0xFFFF (bytesBits bytes)
    (crcCalculate (Ptr.ofList (bytes ++ rest)) bytes.length).toNat = crc ∧
      (ethProtocolPackageCrc (first :: bytes ++ rest) bytes.length).map UInt16.toNat = some crc ∧
      (ethProtocolCrcLoop bytes.length (Ptr.ofList (bytes ++ rest)) 0xFFFF).1.toNat = crc :=
  ⟨crcCalculate_run bytes rest short, ethProtocolPackageCrc_run bytes rest first,
    ethProtocolCrcLoop_run bytes rest⟩

theorem crcLoops_bitSerial_three :
    let crc := run x25Polynomial 0xFFFF (bytesBits [1, 2, 3])
    (crcCalculate (Ptr.ofList ([1, 2, 3] ++ [9])) 3).toNat = crc ∧
      (ethProtocolPackageCrc (0 :: [1, 2, 3] ++ [9]) 3).map UInt16.toNat = some crc ∧
      (ethProtocolCrcLoop 3 (Ptr.ofList ([1, 2, 3] ++ [9])) 0xFFFF).1.toNat = crc :=
  crcLoops_bitSerial [1, 2, 3] [9] (by decide) 0

end OneCrc

end PtzAgx.EthLink
