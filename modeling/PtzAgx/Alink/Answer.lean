import PtzAgx.Alink.System

/-! # Answering a message

`alink_order_send` and `alink_order_init` of `analysis/alink_order.c`. A message
whose `ans` is set asks for an answer, and `alink_order_task` prepares one for
every message. It would be sent by the call that is commented out at the end of
the task. What that call would send is described here, and that without it no
message is answered.

The mutex and the values returned are left out.
-/

namespace PtzAgx.Alink

open Bytes Words

/-- `ALINK_SEND_BUFFER_SIZE`, the size of both send buffers. -/
def alinkSendBufferSize : UInt16 := 16 * 1024

/-- The header up to its checksum, which ends right before the response. -/
def alinkOrderFields (pbySend : Ptr UInt8) (psResp : AlinkResp) (psHeader : Ptr UInt8) :
    Ptr UInt8 :=
  let pbySend := Function.update pbySend 0 alinkMsgMagicValue
  let pbySend := Function.update pbySend 1 (UInt8.ofNat psResp.wCount)
  let pbySend := Function.update pbySend 2 (UInt8.ofNat (psResp.wCount / 256))
  let pbySend := Function.update pbySend 3 (MsgHead.seq psHeader)
  let pbySend := Function.update pbySend 4 (MsgHead.sourceid psHeader)
  let pbySend := Function.update pbySend 5 (MsgHead.destid psHeader)
  let pbySend := Function.update pbySend 6 (MsgHead.msgid psHeader)
  Function.update pbySend 7 0

/-- The send buffer afterwards and the calls of `pe_send`. `pbyBuffer` is the
    order's buffer, which holds the nine bytes in front of the response. -/
def alinkOrderSend (pbyBuffer : Ptr UInt8) (psResp : AlinkResp) (psHeader : Ptr UInt8) :
    Ptr UInt8 × List OrderSend :=
  let psImport := psResp.psArg
  let pbySend : Ptr UInt8 := fun i =>
    if i < alinkMsgHeadSize then pbyBuffer i else psResp.pbyBuffer (i - alinkMsgHeadSize)
  if MsgHead.ans psHeader ≠ 0 ∧ psImport.peSend = true then
    let pbySend := alinkOrderFields pbySend psResp psHeader
    let pbySend := Function.update pbySend 8 (alinkGetHeaderChecksum pbySend)
    let wCount := wrap 16 (psResp.wCount + alinkNoPayloadSize)
    let wCrc := alinkGetPackageCrc pbySend wCount
    let pbySend := Function.update pbySend (wrapSub 64 wCount 2) wCrc.toUInt8
    let pbySend := Function.update pbySend (wrapSub 64 wCount 1) (wCrc >>> 8).toUInt8
    (pbySend, [{ handle := psImport.handle, pbyData := Ptr.read pbySend wCount }])
  else (pbySend, [])

/-- A frame that answers a message with the response that was prepared for it. -/
structure AnswerTo (pbyMsg : Ptr UInt8) (psResp : AlinkResp) (f : List UInt8) : Prop where
  accepted : Accepted f
  seq : MsgHead.seq (Ptr.ofList f) = MsgHead.seq pbyMsg
  msgid : MsgHead.msgid (Ptr.ofList f) = MsgHead.msgid pbyMsg
  destid : MsgHead.destid (Ptr.ofList f) = MsgHead.sourceid pbyMsg
  sourceid : MsgHead.sourceid (Ptr.ofList f) = MsgHead.destid pbyMsg
  ans : MsgHead.ans (Ptr.ofList f) = 0
  counted : (alinkGetPayloadSize (Ptr.ofList f)).toNat = psResp.wCount
  payload : ((Ptr.ofList f).advance alinkMsgHeadSize).read psResp.wCount =
    psResp.pbyBuffer.read psResp.wCount

/-- One answer if the message asks for it and there is a way to send it, and
    nothing otherwise. -/
def AnsweredBy (psImport : AlinkOrderImport) (pbyMsg : Ptr UInt8) (psResp : AlinkResp)
    (sent : List OrderSend) : Prop :=
  if MsgHead.ans pbyMsg ≠ 0 ∧ psImport.peSend = true then
    ∃ f, sent = [{ handle := psImport.handle, pbyData := f }] ∧ AnswerTo pbyMsg psResp f
  else sent = []

/-! ## What `alink_order_send` sends -/

section Send

variable {pbyBuffer pbyMsg : Ptr UInt8} {psResp : AlinkResp}

/-- The response as a packet. -/
def answerPacket (pbyMsg : Ptr UInt8) (psResp : AlinkResp)
    (fits : psResp.wCount + alinkNoPayloadSize ≤ 65535) :
    AlinkPacket where
  seq := MsgHead.seq pbyMsg
  destid := MsgHead.sourceid pbyMsg
  sourceid := MsgHead.destid pbyMsg
  msgid := MsgHead.msgid pbyMsg
  ans := 0
  payload := psResp.pbyBuffer.read psResp.wCount
  fits := by rwa [Ptr.length_read]

theorem answerPacket_answers (fits : psResp.wCount + alinkNoPayloadSize ≤ 65535) :
    AnswerTo pbyMsg psResp (answerPacket pbyMsg psResp fits).frame := by
  have length : (answerPacket pbyMsg psResp fits).payload.length = psResp.wCount :=
    Ptr.length_read _ _
  have counted := (answerPacket pbyMsg psResp fits).payloadSize_frame
  rw [length] at counted
  have carried := (answerPacket pbyMsg psResp fits).carries
  exact
    { accepted := AlinkPacket.frame_accepted _
      seq := carried.seq
      msgid := carried.msgid
      destid := carried.destid
      sourceid := carried.sourceid
      ans := carried.ans
      counted := counted
      payload := by rw [← counted, carried.payload, counted]; rfl }

theorem alinkOrderFields_prepared (pbySend : Ptr UInt8)
    (fits : psResp.wCount + alinkNoPayloadSize ≤ 65535)
    (behind : pbySend.advance alinkMsgHeadSize = psResp.pbyBuffer) :
    Prepared (answerPacket pbyMsg psResp fits) (alinkOrderFields pbySend psResp pbyMsg) := by
  have length : (answerPacket pbyMsg psResp fits).payload.length = psResp.wCount :=
    Ptr.length_read _ _
  refine
    { magic := rfl
      lenLo := by rw [length]; rfl
      lenHi := by rw [length]; rfl
      seq := rfl
      sourceid := rfl
      msgid := rfl
      ans := rfl
      payload := ?_ }
  rw [length]
  simp only [alinkOrderFields]
  rw [Ptr.read_update_before _ _ _ (by decide), Ptr.read_update_before _ _ _ (by decide),
    Ptr.read_update_before _ _ _ (by decide), Ptr.read_update_before _ _ _ (by decide),
    Ptr.read_update_before _ _ _ (by decide), Ptr.read_update_before _ _ _ (by decide),
    Ptr.read_update_before _ _ _ (by decide), Ptr.read_update_before _ _ _ (by decide), behind]
  rfl

theorem alinkOrderSend_answers (pbyBuffer : Ptr UInt8)
    (fits : psResp.wCount + alinkNoPayloadSize ≤ 65535) :
    AnsweredBy psResp.psArg pbyMsg psResp (alinkOrderSend pbyBuffer psResp pbyMsg).2 := by
  unfold AnsweredBy
  by_cases asked : MsgHead.ans pbyMsg ≠ 0 ∧ psResp.psArg.peSend = true
  · let pbySend : Ptr UInt8 := fun i =>
      if i < alinkMsgHeadSize then pbyBuffer i else psResp.pbyBuffer (i - alinkMsgHeadSize)
    have behind : pbySend.advance alinkMsgHeadSize = psResp.pbyBuffer := by
      funext i
      simp [pbySend]
    have length : (answerPacket pbyMsg psResp fits).payload.length = psResp.wCount :=
      Ptr.length_read _ _
    have count : wrap 16 (psResp.wCount + alinkNoPayloadSize) = psResp.wCount + 11 :=
      wrap_of_lt (by omega)
    -- The destination is in the header already, so a refresh for it writes what is written here.
    have same : Function.update (alinkOrderFields pbySend psResp pbyMsg) 4
      (MsgHead.sourceid pbyMsg) =
        alinkOrderFields pbySend psResp pbyMsg := Function.update_eq_self 4 _
    have prepared :
        Prepared (answerPacket pbyMsg psResp fits) (alinkOrderFields pbySend psResp pbyMsg) :=
      alinkOrderFields_prepared pbySend fits behind
    have sent := @Prepared.refresh _ _ (MsgHead.sourceid pbyMsg) prepared
    simp only [length, alinkUploadRefresh, same, count] at sent
    rw [if_pos asked, alinkOrderSend, if_pos asked]
    simp only [count]
    refine ⟨(answerPacket pbyMsg psResp fits).frame, ?_, answerPacket_answers fits⟩
    exact congrArg (fun f => [({ handle := psResp.psArg.handle, pbyData := f } : OrderSend)]) sent
  · simp only [alinkOrderSend, asked, if_false]

end Send

/-! ## What `alink_order_task` leaves to send -/

/-- What a handler does with the response it is given. -/
structure Obliging {σ : Type} (sends : σ → List OrderSend)
    (pvCmdTask : AlinkPayload → AlinkResp → σ → AlinkResp × σ) : Prop where
  /-- It leaves the sending to the task. -/
  silent : ∀ psPayload psResp world, sends (pvCmdTask psPayload psResp world).2 = sends world
  kept : ∀ psPayload psResp world, (pvCmdTask psPayload psResp world).1.psArg = psResp.psArg
  /-- The response does not outgrow the send buffer. -/
  bounded : ∀ psPayload psResp world, psResp.wCount + alinkNoPayloadSize ≤
    alinkSendBufferSize.toNat →
    (pvCmdTask psPayload psResp world).1.wCount + alinkNoPayloadSize ≤ alinkSendBufferSize.toNat

def AllObliging {σ : Type} (sends : σ → List OrderSend) (psCmdList : List (AlinkCmdList σ)) :
    Prop :=
  ∀ c ∈ psCmdList, ∀ pvCmdTask, c.pvCmdTask = some pvCmdTask → Obliging sends pvCmdTask

/-- The response as it was, or one no longer than the longest the system commands
    have. -/
def Filled (psResp after : AlinkResp) : Prop :=
  after = psResp ∨ (after.psArg = psResp.psArg ∧ after.wCount ≤ alinkSysGetInfoAckSize)

theorem filled_fill {psResp psResp' : AlinkResp} {wCount : Nat} (i : Nat) (cells : List UInt8)
    (kept : psResp'.psArg = psResp.psArg) (small : wCount ≤ alinkSysGetInfoAckSize) :
    Filled psResp (psResp'.fill i cells wCount) := .inr ⟨kept, small⟩

theorem obliging_fill {pvCmdTask : AlinkPayload → AlinkResp → AlinkWorld → AlinkResp × AlinkWorld}
    (fills : ∀ psPayload psResp world, (pvCmdTask psPayload psResp world).2.sends = world.sends ∧
      Filled psResp (pvCmdTask psPayload psResp world).1) :
      Obliging AlinkWorld.sends pvCmdTask where
  silent psPayload psResp world := (fills psPayload psResp world).1
  kept psPayload psResp world := by
    rcases (fills psPayload psResp world).2 with same | ⟨kept, -⟩
    · rw [same]
    · exact kept
  bounded psPayload psResp world fits := by
    rcases (fills psPayload psResp world).2 with same | ⟨-, small⟩
    · rwa [same]
    · have room : alinkSysGetInfoAckSize + alinkNoPayloadSize ≤ alinkSendBufferSize.toNat := by
        decide
      omega

theorem systemSetStatus_obliging : Obliging AlinkWorld.sends systemSetStatus := by
  apply obliging_fill
  intro psPayload psResp world
  simp only [systemSetStatus]
  split_ifs
  · exact ⟨rfl, filled_fill 0 _ rfl (by decide)⟩
  · exact ⟨rfl, filled_fill 0 _ rfl (by decide)⟩
  · exact ⟨rfl, filled_fill 0 _ rfl (by decide)⟩
  · exact ⟨rfl, .inl rfl⟩

theorem systemGetInfo_obliging : Obliging AlinkWorld.sends systemGetInfo := by
  apply obliging_fill
  intro psPayload psResp world
  simp only [systemGetInfo]
  split_ifs
  · exact ⟨rfl, filled_fill 0 _ rfl (Nat.le_refl _)⟩
  · exact ⟨rfl, filled_fill 2 _ rfl (Nat.le_refl _)⟩
  · exact ⟨rfl, filled_fill 0 _ rfl (Nat.le_refl _)⟩
  · exact ⟨rfl, .inl rfl⟩

theorem systemHeartbeatExt_obliging : Obliging AlinkWorld.sends systemHeartbeatExt :=
  obliging_fill fun _ _ _ => ⟨rfl, .inl rfl⟩

theorem systemSetSn_obliging : Obliging AlinkWorld.sends systemSetSn :=
  obliging_fill fun _ _ _ => ⟨rfl, filled_fill 0 _ rfl (by decide)⟩

theorem ofTrack_obliging (c : RecordCmd) :
    AllObliging AlinkWorld.sends (c.table.map AlinkCmdList.ofTrack) := by
  have respects : ∀ tracked ∈ c.table, ∀ pvCmdTask, tracked.pvCmdTask = some pvCmdTask →
      ∀ psPayload psResp world, (pvCmdTask psPayload psResp world).1 = psResp := by
    cases c <;> simp [RecordCmd.table, alinkTrackInit, alinkTargetInit, trackPkgTracked,
      trackPkgAttitude, trackPkgDroneId, trackPkgRemoteId, userCustomTrackTarget]
  intro psCmdList member pvCmdTask registered
  obtain ⟨tracked, listed, rfl⟩ := List.mem_map.mp member
  obtain ⟨task, handled, rfl⟩ := Option.map_eq_some_iff.mp registered
  exact obliging_fill fun psPayload psResp world =>
    ⟨rfl, .inl (respects tracked listed task handled psPayload psResp world.track)⟩

/-- All handlers of the program are obliging. -/
theorem alinkInit_obliging (psHandle : AlinkOrderRef) :
    AllObliging AlinkWorld.sends (alinkInit psHandle) := by
  have system : AllObliging AlinkWorld.sends alinkSystemInit := by
    intro c member pvCmdTask registered
    simp only [alinkSystemInit, List.mem_cons, List.not_mem_nil, or_false] at member
    rcases member with rfl | rfl | rfl | rfl
    · exact Option.some.inj registered ▸ systemSetStatus_obliging
    · exact Option.some.inj registered ▸ systemGetInfo_obliging
    · exact Option.some.inj registered ▸ systemHeartbeatExt_obliging
    · exact Option.some.inj registered ▸ systemSetSn_obliging
  cases psHandle with
  | sOrder =>
      intro c member
      rcases List.mem_append.mp member with target | other
      · exact ofTrack_obliging .userTarget c target
      · exact system c other
  | sOrderServer => exact ofTrack_obliging .tracked

section Task

variable {σ : Type} {sends : σ → List OrderSend} {psOrder : AlinkOrder σ}
  {psImport : AlinkOrderImport}
  {pbyMsg : Ptr UInt8}

theorem alinkOrderTask_response (obliging : AllObliging sends psOrder.psCmdList) (world : σ) :
    (alinkOrderTask psOrder psImport pbyMsg world).1.psArg = psImport ∧
      (alinkOrderTask psOrder psImport pbyMsg world).1.wCount + alinkNoPayloadSize ≤
      alinkSendBufferSize.toNat := by
  have room : (alinkRespOf psOrder psImport).wCount + alinkNoPayloadSize ≤
      alinkSendBufferSize.toNat :=
    show 1 + alinkNoPayloadSize ≤ alinkSendBufferSize.toNat by decide
  rcases alinkOrderTask_cases psOrder psImport pbyMsg world with alone | ⟨c, member, -, -,
    pvCmdTask, registered, called⟩
  · rw [alone]
    exact ⟨rfl, room⟩
  · rw [called]
    have oblige := obliging c member pvCmdTask registered
    exact ⟨oblige.kept _ _ world, oblige.bounded _ _ world room⟩

theorem alinkOrderTask_silent (obliging : AllObliging sends psOrder.psCmdList)
    (psImport : AlinkOrderImport)
    (pbyMsg : Ptr UInt8) (world : σ) :
    sends (alinkOrderTask psOrder psImport pbyMsg world).2 = sends world := by
  rcases alinkOrderTask_cases psOrder psImport pbyMsg world with alone | ⟨c, member, -, -,
    pvCmdTask, registered, called⟩
  · rw [alone]
  · rw [called]
    exact (obliging c member pvCmdTask registered).silent _ _ world

theorem unanswered_nil {psResp : AlinkResp} :
    AnsweredBy psImport pbyMsg psResp [] ↔ MsgHead.ans pbyMsg = 0 ∨ psImport.peSend = false := by
  by_cases asked : MsgHead.ans pbyMsg ≠ 0 ∧ psImport.peSend = true
  · have missing : ¬ AnsweredBy psImport pbyMsg psResp [] := by
      rw [AnsweredBy, if_pos asked]
      rintro ⟨f, sent, -⟩
      exact List.cons_ne_nil _ _ sent.symm
    refine iff_of_false missing ?_
    rintro (none | closed)
    · exact asked.1 none
    · rw [asked.2] at closed
      cases closed
  · refine iff_of_true ?_ ?_
    · rw [AnsweredBy, if_neg asked]
    · rwa [not_and_or, not_not, Bool.not_eq_true] at asked

/-- Handing on the response would answer every message. -/
theorem alinkOrderSend_task (obliging : AllObliging sends psOrder.psCmdList) (world : σ) :
    AnsweredBy psImport pbyMsg (alinkOrderTask psOrder psImport pbyMsg world).1
      (alinkOrderSend psOrder.pbyBuffer (alinkOrderTask psOrder psImport pbyMsg world).1
        pbyMsg).2 := by
  let psResp := (alinkOrderTask psOrder psImport pbyMsg world).1
  obtain ⟨kept, fits⟩ :
    psResp.psArg = psImport ∧ psResp.wCount + alinkNoPayloadSize ≤ alinkSendBufferSize.toNat :=
    alinkOrderTask_response obliging world
  have short : alinkSendBufferSize.toNat ≤ 65535 := by decide
  have answered :
      AnsweredBy psResp.psArg pbyMsg psResp (alinkOrderSend psOrder.pbyBuffer psResp pbyMsg).2 :=
    alinkOrderSend_answers psOrder.pbyBuffer (Nat.le_trans fits short)
  rwa [kept] at answered

/-- Without that no answer is sent, which is right only if there was none to
    send. -/
theorem alinkOrderTask_answered_iff (obliging : AllObliging sends psOrder.psCmdList)
    (psImport : AlinkOrderImport)
    (pbyMsg : Ptr UInt8) (world : σ) :
    (∃ sent, sends (alinkOrderTask psOrder psImport pbyMsg world).2 = sends world ++ sent ∧
        AnsweredBy psImport pbyMsg (alinkOrderTask psOrder psImport pbyMsg world).1 sent) ↔
      MsgHead.ans pbyMsg = 0 ∨ psImport.peSend = false := by
  have silent := alinkOrderTask_silent obliging psImport pbyMsg world
  rw [silent]
  constructor
  · rintro ⟨sent, same, answered⟩
    obtain rfl : sent = [] := List.append_right_eq_self.mp same.symm
    exact unanswered_nil.mp answered
  · intro nothing
    exact ⟨[], (List.append_nil _).symm, unanswered_nil.mpr nothing⟩

end Task

/-- A system information request that wants an answer, as it arrives. -/
def getInfoRequest : List UInt8 := [0xFD, 1, 0, 7, 3, 6, 0xD2, 1, 0xE1, 1, 0x02, 0x89]

theorem getInfoRequest_accepted : Accepted getInfoRequest := ⟨by decide, by decide, by decide⟩

/-- The table of the C2 and a world nothing has happened in. -/
def c2Order : AlinkOrder AlinkWorld where
  wBufferSize := alinkSendBufferSize.toNat
  pbyBuffer := fun _ => 0
  psCmdList := alinkInit .sOrder

def bootWorld : AlinkWorld where
  track := { pack := fun _ => 0, localPack := fun _ => 0, algMsgs := [] }
  sUpload := alinkUploadInit alinkDevIdAgx (fun _ => 0) alinkUploadBufferSize
  sends := []

def c2Import : AlinkOrderImport where
  ePortId := 3
  pbyMsg := 0
  handle := 1
  peSend := true

theorem alinkOrderTask_answered_iff_getInfo :
    (∃ sent, (alinkOrderTask c2Order c2Import (Ptr.ofList getInfoRequest) bootWorld).2.sends =
      bootWorld.sends ++ sent ∧
        AnsweredBy c2Import (Ptr.ofList getInfoRequest)
          (alinkOrderTask c2Order c2Import (Ptr.ofList getInfoRequest) bootWorld).1 sent) ↔
      MsgHead.ans (Ptr.ofList getInfoRequest) = 0 ∨ c2Import.peSend = false :=
  alinkOrderTask_answered_iff (alinkInit_obliging .sOrder) c2Import
    (Ptr.ofList getInfoRequest) bootWorld

/-- The C2 gets no answer to its request. -/
theorem getInfoRequest_unanswered :
    ¬ ∀ (psOrder : AlinkOrder AlinkWorld) (psImport : AlinkOrderImport) (f : List UInt8)
      (world : AlinkWorld),
      Accepted f → AllObliging AlinkWorld.sends psOrder.psCmdList →
        ∃ sent, (alinkOrderTask psOrder psImport (Ptr.ofList f) world).2.sends =
        world.sends ++ sent ∧
          AnsweredBy psImport (Ptr.ofList f)
          (alinkOrderTask psOrder psImport (Ptr.ofList f) world).1 sent := by
  intro answers
  have obliging : AllObliging AlinkWorld.sends c2Order.psCmdList := alinkInit_obliging .sOrder
  obtain ⟨sent, same, answered⟩ :=
    answers c2Order c2Import getInfoRequest bootWorld getInfoRequest_accepted obliging
  rw [alinkOrderTask_silent obliging] at same
  obtain rfl : sent = [] := List.append_right_eq_self.mp same.symm
  rcases unanswered_nil.mp answered with none | closed
  · exact absurd none (by decide)
  · cases closed

end PtzAgx.Alink
