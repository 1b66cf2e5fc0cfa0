import PtzAgx.Alink.Frame
import PtzAgx.Alink.Package

/-! # Sending a package to its subscribers

`alink_upload_init` and `alink_upload_send_package` of `upload/alink_upload.c`.
One buffer serves all subscribers: the payload and most of the header are
written once, and the destination, the header checksum and the CRC again for
every subscriber. The mutex is left out.
-/

namespace PtzAgx.Alink

open Bytes Words Framing Intrusive

/-- `alink_upload_t` and the contents of its buffer. `alink_upload_init` takes
    the buffer size as an `uint16_t`. -/
structure AlinkUpload where
  byDevId : UInt8
  byReq : UInt8
  wBufferSize : Nat
  pbyBuffer : Ptr UInt8
  bounded : wBufferSize ≤ 65535

def alinkUploadInit (byDevId : UInt8) (pbyBuffer : Ptr UInt8) (wBufferSize : UInt16) :
    AlinkUpload where
  byDevId := byDevId
  byReq := 0
  wBufferSize := wBufferSize.toNat
  pbyBuffer := pbyBuffer
  bounded := Nat.le_of_lt_succ wBufferSize.toNat_lt

/-- `alink_send_list_t` without its link. `peSend` is `none` for `NULL`, and
    otherwise what the function returns for a handle and the bytes sent. -/
structure AlinkSendList where
  byRemoteId : UInt8
  handle : Nat
  peSend : Option (Nat → List UInt8 → Int)

/-- `alink_package_list_t` without its link. The package task gets the payload
    area of the buffer and its size, and returns what the area holds afterwards
    and the payload length. -/
structure AlinkPackageList (ι ν : Type) where
  byMsgId : UInt8
  byAns : UInt8
  pwPackageTask : Option (Ptr UInt8 → Nat → ι → Ptr UInt8 × UInt16)
  psSendList : SendLists ν

/-- One call of `pe_send`. -/
structure UploadSend (ν : Type) where
  psSendList : ν
  handle : Nat
  pbyData : List UInt8
  deriving Repr, DecidableEq

/-- What the loop writes for one subscriber. -/
def alinkUploadRefresh (pbyBuffer : Ptr UInt8) (wPayloadLen : Nat) (byRemoteId : UInt8) :
    Ptr UInt8 :=
  let pbyBuffer := Function.update pbyBuffer 4 byRemoteId
  let pbyBuffer := Function.update pbyBuffer 8 (alinkGetHeaderChecksum pbyBuffer)
  let wCount := wrap 16 (wPayloadLen + alinkNoPayloadSize)
  let wCrcCalc := alinkGetPackageCrc pbyBuffer wCount
  let pbyBuffer := Function.update pbyBuffer (wrapSub 64 wCount 2) wCrcCalc.toUInt8
  Function.update pbyBuffer (wrapSub 64 wCount 1) (wCrcCalc >>> 8).toUInt8

section Send

variable {ι ν : Type} (nodes : ν → AlinkSendList)

/-- The loop over the subscribers, from the node `psSendList` on. -/
def alinkUploadSendFrom (psNext : ν → Option ν) (wPayloadLen : Nat) :
    Nat → Int → Ptr UInt8 → Option ν → Option (Int × Ptr UInt8 × List (UploadSend ν))
  | _, eRet, pbyBuffer, none => some (eRet, pbyBuffer, [])
  | 0, _, _, some _ => none
  | fuel + 1, eRet, pbyBuffer, some psSendList =>
      match (nodes psSendList).peSend with
      | none => alinkUploadSendFrom psNext wPayloadLen fuel eRet pbyBuffer (psNext psSendList)
      | some peSend =>
          let pbyBuffer := alinkUploadRefresh pbyBuffer wPayloadLen (nodes psSendList).byRemoteId
          let wCount := wrap 16 (wPayloadLen + alinkNoPayloadSize)
          let pbyData := pbyBuffer.read wCount
          let handle := (nodes psSendList).handle
          (alinkUploadSendFrom psNext wPayloadLen fuel (peSend handle pbyData) pbyBuffer
            (psNext psSendList)).map
            fun after => (after.1, after.2.1, { psSendList, handle, pbyData } :: after.2.2)

/-- The buffer once the package task has run and the common header fields are
    written. -/
def alinkUploadPrepare (psUpload : AlinkUpload) (byMsgId byAns : UInt8) (payload : Ptr UInt8)
    (wPayloadLen : UInt16) :
    Ptr UInt8 :=
  let pbyBuffer : Ptr UInt8 := fun i =>
    if i < alinkMsgHeadSize then psUpload.pbyBuffer i else payload (i - alinkMsgHeadSize)
  let pbyBuffer := Function.update pbyBuffer 0 alinkMsgMagicValue
  let pbyBuffer := Function.update pbyBuffer 1 wPayloadLen.toUInt8
  let pbyBuffer := Function.update pbyBuffer 2 (wPayloadLen >>> 8).toUInt8
  let pbyBuffer := Function.update pbyBuffer 5 psUpload.byDevId
  let pbyBuffer := Function.update pbyBuffer 3 psUpload.byReq
  let pbyBuffer := Function.update pbyBuffer 6 byMsgId
  Function.update pbyBuffer 7 byAns

/-- The value returned, the upload state afterwards and the calls of `pe_send`.
    `none` is a subscriber list that goes on after `fuel` nodes. -/
def alinkUploadSendPackage (fuel : Nat) (psUpload : AlinkUpload) (psPackage : AlinkPackageList ι ν)
    (psImport : ι) :
    Option (Int × AlinkUpload × List (UploadSend ν)) :=
  match psPackage.psSendList.head, psPackage.pwPackageTask with
  | some first, some pwPackageTask =>
      let wSize := wrap 16 (wrapSub 32 psUpload.wBufferSize alinkNoPayloadSize)
      let called := pwPackageTask (psUpload.pbyBuffer.advance alinkMsgHeadSize) wSize psImport
      let pbyBuffer :=
        alinkUploadPrepare psUpload psPackage.byMsgId psPackage.byAns called.1 called.2
      (alinkUploadSendFrom nodes psPackage.psSendList.next called.2.toNat fuel 0 pbyBuffer
        (some first)).map
        fun after =>
          (after.1, { psUpload with byReq := psUpload.byReq + 1, pbyBuffer := after.2.1 },
            after.2.2)
  | _, _ => some (0, psUpload, [])

end Send

/-! ## The buffer between two subscribers -/

/-- The buffer holds the packet `p`, apart from the fields that depend on the
    subscriber. -/
structure Prepared (p : AlinkPacket) (pbyBuffer : Ptr UInt8) : Prop where
  magic : MsgHead.magic pbyBuffer = alinkMsgMagicValue
  lenLo : MsgHead.lenLo pbyBuffer = UInt8.ofNat p.payload.length
  lenHi : MsgHead.lenHi pbyBuffer = UInt8.ofNat (p.payload.length / 256)
  seq : MsgHead.seq pbyBuffer = p.seq
  sourceid : MsgHead.sourceid pbyBuffer = p.sourceid
  msgid : MsgHead.msgid pbyBuffer = p.msgid
  ans : MsgHead.ans pbyBuffer = p.ans
  payload : (pbyBuffer.advance alinkMsgHeadSize).read p.payload.length = p.payload

/-- The packet for one subscriber. -/
def AlinkPacket.to (p : AlinkPacket) (destid : UInt8) : AlinkPacket := { p with destid }

section Buffer

variable {p : AlinkPacket} {pbyBuffer : Ptr UInt8} {destid : UInt8}

theorem Prepared.fields (prepared : Prepared p pbyBuffer) :
    Ptr.read (Function.update pbyBuffer 4 destid) 8 = (p.to destid).fields := by
  obtain ⟨magic, lenLo, lenHi, seq, sourceid, msgid, ans, -⟩ := prepared
  have listed : Ptr.read (Function.update pbyBuffer 4 destid) 8 =
      [MsgHead.magic pbyBuffer, MsgHead.lenLo pbyBuffer, MsgHead.lenHi pbyBuffer,
        MsgHead.seq pbyBuffer, destid,
        MsgHead.sourceid pbyBuffer, MsgHead.msgid pbyBuffer, MsgHead.ans pbyBuffer] := rfl
  rw [listed, magic, lenLo, lenHi, seq, sourceid, msgid, ans]
  rfl

theorem Prepared.head (prepared : Prepared p pbyBuffer) :
    Ptr.read
      (Function.update (Function.update pbyBuffer 4 destid) 8
        (alinkGetHeaderChecksum (Function.update pbyBuffer 4 destid))) alinkMsgHeadSize =
        (p.to destid).head := by
  have eight : Ptr.read (Function.update pbyBuffer 4 destid) alinkHeaderChecksumLen =
      (p.to destid).fields :=
    prepared.fields
  rw [alinkGetHeaderChecksum, eight, alinkMsgHeadSize, Ptr.read_add _ 8 1,
    Ptr.read_update_after _ _ (Nat.le_refl 8), prepared.fields]
  rfl

theorem prepared_of_frame (same : pbyBuffer.read (p.payload.length + 11) = (p.to destid).frame) :
    Prepared p pbyBuffer := by
  have counted : (p.to destid).frame.length = p.payload.length + 11 := (p.to destid).length_frame
  have cells : pbyBuffer.read (p.payload.length + 11) =
      (Ptr.ofList (p.to destid).frame).read (p.payload.length + 11) := by
    rw [same, ← counted, Ptr.read_ofList]
  have cell {i : Nat} (inside : i < 8) : pbyBuffer i = Ptr.ofList (p.to destid).frame i :=
    Ptr.apply_of_read cells (by omega)
  have payload := (Ptr.read_of_append (Ptr.read_of_append same).1).2
  exact
    { magic := cell (by decide)
      lenLo := cell (by decide)
      lenHi := cell (by decide)
      seq := cell (by decide)
      sourceid := cell (by decide)
      msgid := cell (by decide)
      ans := cell (by decide)
      payload := payload }

/-- What a subscriber is sent is the frame of the packet for it. -/
theorem Prepared.refresh (prepared : Prepared p pbyBuffer) :
    (alinkUploadRefresh pbyBuffer p.payload.length destid).read (p.payload.length + 11) =
      (p.to destid).frame := by
  have fits := p.fits
  simp only [alinkNoPayloadSize] at fits
  have count : wrap 16 (p.payload.length + 11) = p.payload.length + 11 := wrap_of_lt (by omega)
  have three : wrapSub 32 (p.payload.length + 11) 3 = p.payload.length + 8 :=
    wrapSub_of_le (by omega) (by omega)
  have two : wrapSub 64 (p.payload.length + 11) 2 = p.payload.length + 9 :=
    wrapSub_of_le (by omega) (by omega)
  have one : wrapSub 64 (p.payload.length + 11) 1 = p.payload.length + 10 :=
    wrapSub_of_le (by omega) (by omega)
  have covered : wrap 16 (p.payload.length + 8) = p.payload.length + 8 := wrap_of_lt (by omega)
  let headed : Ptr UInt8 :=
    Function.update (Function.update pbyBuffer 4 destid) 8
      (alinkGetHeaderChecksum (Function.update pbyBuffer 4 destid))
  have payload : (headed.advance alinkMsgHeadSize).read p.payload.length = p.payload := by
    rw [Ptr.read_update_before _ _ _ (by decide), Ptr.read_update_before _ _ _ (by decide),
      prepared.payload]
  have body : headed.read (9 + p.payload.length) = (p.to destid).head ++ p.payload := by
    rw [Ptr.read_add]
    exact congrArg₂ (· ++ ·) prepared.head payload
  have crc : alinkGetPackageCrc headed (p.payload.length + 11) = (p.to destid).crc := by
    have tail := Ptr.drop_read headed (by omega : 1 ≤ 9 + p.payload.length)
    have behind : 9 + p.payload.length - 1 = p.payload.length + 8 := by omega
    rw [body, List.drop_one, behind] at tail
    rw [alinkGetPackageCrc, count, three, crcCalculate, covered, ← tail]
    rfl
  have written : alinkUploadRefresh pbyBuffer p.payload.length destid =
      Function.update (Function.update headed (p.payload.length + 9) (p.to destid).crc.toUInt8)
        (p.payload.length + 10) ((p.to destid).crc >>> 8).toUInt8 := by
    simp only [alinkUploadRefresh, alinkNoPayloadSize, count, two, one]
    rw [crc]
  have total : p.payload.length + 11 = 9 + p.payload.length + 2 := by omega
  have low : p.payload.length + 9 = 9 + p.payload.length + 0 := by omega
  have high : p.payload.length + 10 = 9 + p.payload.length + 1 := by omega
  have trailer (lo hi : UInt8) :
      (Ptr.advance (Function.update (Function.update headed (9 + p.payload.length + 0) lo)
        (9 + p.payload.length + 1) hi)
        (9 + p.payload.length)).read 2 = [lo, hi] := by
    have listed (q : Ptr UInt8) (i : Nat) : (q.advance i).read 2 = [q (i + 0), q (i + 1)] := rfl
    rw [listed, Function.update_of_ne (by omega), Function.update_self, Function.update_self]
  rw [written, total, Ptr.read_add, low, high, trailer, Ptr.read_update_after _ _ (by omega),
    Ptr.read_update_after _ _ (by omega), body]
  rfl

end Buffer

/-! ## The calls of `pe_send` -/

section Subscribers

variable {ι ν : Type} {nodes : ν → AlinkSendList} {psNext : ν → Option ν} {p : AlinkPacket}

/-- What one subscriber is given. -/
def uploadSendTo (nodes : ν → AlinkSendList) (p : AlinkPacket) (psSendList : ν) : UploadSend ν where
  psSendList := psSendList
  handle := (nodes psSendList).handle
  pbyData := (p.to (nodes psSendList).byRemoteId).frame

/-- The loop sends to the subscribers that have a `pe_send`, in list order. -/
theorem alinkUploadSendFrom_sends (nodes : ν → AlinkSendList) {subscribers : List ν} {fuel : Nat}
    {pbyBuffer : Ptr UInt8}
    {psSendListNow : Option ν} (eRet : Int) (listed : Segment psNext psSendListNow subscribers none)
    (enough : subscribers.length ≤ fuel) (prepared : Prepared p pbyBuffer) :
    ∃ eRet' pbyBuffer',
      alinkUploadSendFrom nodes psNext p.payload.length fuel eRet pbyBuffer psSendListNow =
        some (eRet', pbyBuffer',
          (subscribers.filter fun x => (nodes x).peSend.isSome).map (uploadSendTo nodes p)) := by
  induction subscribers generalizing fuel eRet pbyBuffer psSendListNow with
  | nil =>
      obtain rfl : psSendListNow = none := listed
      refine ⟨eRet, pbyBuffer, ?_⟩
      cases fuel <;> rfl
  | cons x rest ih =>
      obtain ⟨rfl, tail⟩ := listed
      obtain ⟨fuel, rfl⟩ :=
        Nat.exists_eq_succ_of_ne_zero (Nat.ne_of_gt (Nat.lt_of_lt_of_le (Nat.succ_pos _) enough))
      have shorter : rest.length ≤ fuel := Nat.le_of_succ_le_succ enough
      cases send : (nodes x).peSend with
      | none =>
          obtain ⟨eRet', pbyBuffer', ran⟩ := ih eRet tail shorter prepared
          refine ⟨eRet', pbyBuffer', ?_⟩
          simp only [alinkUploadSendFrom, send, ran, List.filter_cons, Option.isSome_none,
            Bool.false_eq_true, if_false]
      | some peSend =>
          have fits := p.fits
          have count : wrap 16 (p.payload.length + alinkNoPayloadSize) = p.payload.length +
              alinkNoPayloadSize :=
            wrap_of_lt (by omega)
          have frame : (alinkUploadRefresh pbyBuffer p.payload.length (nodes x).byRemoteId).read
              (p.payload.length + 11) = (p.to (nodes x).byRemoteId).frame := prepared.refresh
          obtain ⟨eRet', pbyBuffer', ran⟩ :=
            ih (peSend (nodes x).handle (p.to (nodes x).byRemoteId).frame) tail shorter
              (prepared_of_frame frame)
          refine ⟨eRet', pbyBuffer', ?_⟩
          simp only [alinkUploadSendFrom, send, count, List.filter_cons, Option.isSome_some,
            if_true, List.map_cons]
          rw [alinkNoPayloadSize, frame, ran]
          rfl

variable {psUpload : AlinkUpload} {psPackage : AlinkPackageList ι ν} {psImport : ι}
  {payload : Ptr UInt8}
  {wPayloadLen : UInt16} {m : List UInt8} {subscribers : List ν} {fuel : Nat}
  {pwPackageTask : Ptr UInt8 → Nat → ι → Ptr UInt8 × UInt16}

/-- The package as it goes to a subscriber with this remote id. -/
def uploadPacket (psUpload : AlinkUpload) (psPackage : AlinkPackageList ι ν) (m : List UInt8)
    (fits : m.length + alinkNoPayloadSize ≤ psUpload.wBufferSize) (byRemoteId : UInt8) :
    AlinkPacket where
  seq := psUpload.byReq
  destid := byRemoteId
  sourceid := psUpload.byDevId
  msgid := psPackage.byMsgId
  ans := psPackage.byAns
  payload := m
  fits := Nat.le_trans fits psUpload.bounded

theorem alinkUploadPrepare_prepared (fits : m.length + alinkNoPayloadSize ≤ psUpload.wBufferSize)
    (count : wPayloadLen.toNat = m.length) (written : payload.read m.length = m) :
    Prepared (uploadPacket psUpload psPackage m fits 0)
      (alinkUploadPrepare psUpload psPackage.byMsgId psPackage.byAns payload wPayloadLen) where
  magic := rfl
  lenLo := by
    have low : wPayloadLen.toUInt8 = UInt8.ofNat m.length := by
      rw [← count]
      exact UInt8.toNat_inj.mp (by simp)
    exact low
  lenHi := by
    have high : (wPayloadLen >>> 8).toUInt8 = UInt8.ofNat (m.length / 256) := by
      rw [← count]
      exact UInt8.toNat_inj.mp (by simp [UInt16.toNat_shiftRight, Nat.shiftRight_eq_div_pow])
    exact high
  seq := rfl
  sourceid := rfl
  msgid := rfl
  ans := rfl
  payload := by
    have behind :
      ((alinkUploadPrepare psUpload psPackage.byMsgId psPackage.byAns payload wPayloadLen).advance
        alinkMsgHeadSize).read m.length = payload.read m.length := by
      simp only [alinkUploadPrepare]
      rw [Ptr.read_update_before _ _ _ (by decide), Ptr.read_update_before _ _ _ (by decide),
        Ptr.read_update_before _ _ _ (by decide), Ptr.read_update_before _ _ _ (by decide),
        Ptr.read_update_before _ _ _ (by decide), Ptr.read_update_before _ _ _ (by decide),
        Ptr.read_update_before _ _ _ (by decide)]
      apply Ptr.read_congr
      intro i _
      simp [alinkMsgHeadSize]
    exact behind.trans written

/-- A call sends one frame to every subscriber with a `pe_send`, in list order,
    and uses up one sequence number unless nobody subscribes. -/
theorem alinkUploadSendPackage_sends (listed : psPackage.psSendList.Holds subscribers)
    (registered : psPackage.pwPackageTask = some pwPackageTask) (enough : subscribers.length ≤ fuel)
    (fits : m.length + alinkNoPayloadSize ≤ psUpload.wBufferSize)
    (called : pwPackageTask (psUpload.pbyBuffer.advance alinkMsgHeadSize)
      (wrap 16 (wrapSub 32 psUpload.wBufferSize alinkNoPayloadSize)) psImport =
      (payload, wPayloadLen))
    (count : wPayloadLen.toNat = m.length) (written : payload.read m.length = m) :
    ∃ eRet psUpload', alinkUploadSendPackage nodes fuel psUpload psPackage psImport =
        some (eRet, psUpload', (subscribers.filter fun x => (nodes x).peSend.isSome).map
          (uploadSendTo nodes (uploadPacket psUpload psPackage m fits 0))) ∧
      psUpload'.byReq = if subscribers = [] then psUpload.byReq else psUpload.byReq + 1 := by
  cases subscribers with
  | nil =>
      have empty : psPackage.psSendList.head = none := listed
      refine ⟨0, psUpload, ?_, rfl⟩
      simp only [alinkUploadSendPackage, empty]
      rfl
  | cons first rest =>
      have head : psPackage.psSendList.head = some first := listed.1
      have prepared : Prepared (uploadPacket psUpload psPackage m fits 0)
          (alinkUploadPrepare psUpload psPackage.byMsgId psPackage.byAns payload wPayloadLen) :=
        alinkUploadPrepare_prepared fits count written
      rw [Links.Holds, head] at listed
      obtain ⟨eRet, pbyBuffer, ran⟩ := alinkUploadSendFrom_sends nodes 0 listed enough prepared
      refine ⟨eRet, { psUpload with byReq := psUpload.byReq + 1, pbyBuffer }, ?_, rfl⟩
      have length : (uploadPacket psUpload psPackage m fits 0).payload.length = wPayloadLen.toNat :=
        count.symm
      rw [length] at ran
      simp only [alinkUploadSendPackage, head, registered, called]
      rw [ran]
      rfl

/-- Every subscriber that can be sent to gets one message, in list order, and its
    receiver decodes exactly the package from it. -/
theorem alinkUploadSendPackage_delivered
    (fits : m.length + alinkNoPayloadSize ≤ psUpload.wBufferSize)
    (listed : psPackage.psSendList.Holds subscribers)
    (registered : psPackage.pwPackageTask = some pwPackageTask)
    (called : pwPackageTask (psUpload.pbyBuffer.advance alinkMsgHeadSize)
      (wrap 16 (wrapSub 32 psUpload.wBufferSize alinkNoPayloadSize)) psImport =
      (payload, wPayloadLen))
    (count : wPayloadLen.toNat = m.length) (written : payload.read m.length = m) :
    ∃ eRet psUpload' sends,
      alinkUploadSendPackage nodes subscribers.length psUpload psPackage psImport =
      some (eRet, psUpload', sends) ∧
        sends.map UploadSend.psSendList = subscribers.filter (fun x => (nodes x).peSend.isSome) ∧
        (∀ send ∈ sends, send.handle = (nodes send.psSendList).handle ∧
          DeliveredAs send.pbyData (uploadPacket psUpload psPackage m fits
            (nodes send.psSendList).byRemoteId)) ∧
        psUpload'.byReq = if subscribers = [] then psUpload.byReq else psUpload.byReq + 1 := by
  obtain ⟨eRet, psUpload', ran, byReq⟩ :=
    alinkUploadSendPackage_sends listed registered (Nat.le_refl _) fits called count written
  refine ⟨eRet, psUpload', _, ran, ?_, ?_, byReq⟩
  · rw [List.map_map]
    exact List.map_id _
  · intro send member
    obtain ⟨x, -, rfl⟩ := List.mem_map.mp member
    exact ⟨rfl, AlinkPacket.delivered _⟩

end Subscribers

theorem alinkUploadSendPackage_delivered_two :
    let nodes : Nat → AlinkSendList :=
  fun x => { byRemoteId := 3, handle := x, peSend := if x = 1 then some fun _ _ => 0 else none }
    let pwPackageTask : Ptr UInt8 → Nat → Unit → Ptr UInt8 × UInt16 :=
      fun area _ _ => (area.store 0 [5, 6], 2)
    let psUpload := alinkUploadInit 7 (fun _ => 0xFD) 6144
    let psPackage : AlinkPackageList Unit Nat :=
      { byMsgId := 0x80, byAns := 0, pwPackageTask := some pwPackageTask
        psSendList := { head := some 1, next := fun x => if x = 1 then some 2 else none } }
    ∃ eRet psUpload' sends,
      alinkUploadSendPackage nodes [1, 2].length psUpload psPackage () =
      some (eRet, psUpload', sends) ∧
        sends.map UploadSend.psSendList = [1, 2].filter (fun x => (nodes x).peSend.isSome) ∧
        (∀ send ∈ sends, send.handle = (nodes send.psSendList).handle ∧
          DeliveredAs send.pbyData
            (uploadPacket psUpload psPackage [5, 6] (by decide)
              (nodes send.psSendList).byRemoteId)) ∧
        psUpload'.byReq = if [1, 2] = [] then psUpload.byReq else psUpload.byReq + 1 :=
  alinkUploadSendPackage_delivered (by decide) ⟨rfl, rfl, rfl⟩ rfl rfl rfl rfl

end PtzAgx.Alink
