import PtzAgx.Alink.System

/-! # What an upload leaves for the next

`track_pkg_target_info` and `alink_upload_target_info` of
`command/target/alink_target.c`, and `alink_upload_heartbeat` of
`command/system/alink_system.c`. All uploads share one buffer, and the last
eight bytes of a target item are never written. They stay zero because neither
the payload nor the CRC of any of the two packages ever falls on them.
-/

namespace PtzAgx.Alink

open Bytes Words Intrusive

/-- `alink_targets_item_t`; `reserve` is read by nothing. -/
structure AlinkTargetsItem where
  id : UInt16
  classification : UInt8
  rectX : UInt16
  rectY : UInt16
  rectW : UInt16
  rectH : UInt16
  rectXV : UInt16
  rectYV : UInt16
  classfyProb : UInt8
  deriving Repr, DecidableEq

/-- `alink_taget_info_t`. -/
structure AlinkTagetInfo where
  timestamp : UInt32
  objNum : UInt8
  targets : Nat → AlinkTargetsItem
  bounded : objNum.toNat ≤ alinkTargetMax

/-- The fields of an item in front of `reserve`, packed. -/
def AlinkTargetsItem.bytes (t : AlinkTargetsItem) : List UInt8 :=
  littleBytes 2 t.id.toNat ++ [t.classification] ++ littleBytes 2 t.rectX.toNat ++
    littleBytes 2 t.rectY.toNat ++
    littleBytes 2 t.rectW.toNat ++ littleBytes 2 t.rectH.toNat ++ littleBytes 2 t.rectXV.toNat ++
    littleBytes 2 t.rectYV.toNat ++ [t.classfyProb]

/-- The loop, `i` items done. -/
def targetInfoItems (targets : Nat → AlinkTargetsItem) (psTarget : Ptr UInt8) : Nat → Ptr UInt8
  | 0 => psTarget
  | i + 1 => (targetInfoItems targets psTarget i).store (5 + i * 24) (targets i).bytes

/-- `timestamp` and `objNum`. -/
def AlinkTagetInfo.front (t : AlinkTagetInfo) : List UInt8 :=
  littleBytes 4 t.timestamp.toNat ++ [t.objNum]

def trackPkgTargetInfo (pbyBuffer : Ptr UInt8) (_wSize : Nat) (pvObjTarget : AlinkTagetInfo) :
    Ptr UInt8 × UInt16 :=
  let psTarget := pbyBuffer.store 0 pvObjTarget.front
  (targetInfoItems pvObjTarget.targets psTarget pvObjTarget.objNum.toNat,
    UInt16.ofNat (5 + pvObjTarget.objNum.toNat * 24))

section Uploads

variable {ν : Type}

def sAlinkPackageHeartBeat (psSendList : SendLists ν) : AlinkPackageList Unit ν where
  byMsgId := 0xD0
  byAns := 0
  pwPackageTask := some systemPkgHeartbeat
  psSendList := psSendList

def sAlinkPackageTargetInfo (psSendList : SendLists ν) : AlinkPackageList AlinkTagetInfo ν where
  byMsgId := 0x80
  byAns := 0
  pwPackageTask := some trackPkgTargetInfo
  psSendList := psSendList

/-- The two packages there are, with what they are made of. -/
inductive UploadPackage where
  | heartbeat
  | targetInfo (psObjTargetInfo : AlinkTagetInfo)

/-- `alink_upload_heartbeat` and `alink_upload_target_info`. -/
def UploadPackage.upload (nodes : ν → AlinkSendList) (fuel : Nat) (sUpload : AlinkUpload)
    (psSendList : SendLists ν) :
    UploadPackage → Option (Int × AlinkUpload × List (UploadSend ν))
  | .heartbeat => alinkUploadSendPackage nodes fuel sUpload (sAlinkPackageHeartBeat psSendList) ()
  | .targetInfo psObjTargetInfo =>
      alinkUploadSendPackage nodes fuel sUpload (sAlinkPackageTargetInfo psSendList) psObjTargetInfo

/-- The upload as `alink_init` leaves it. -/
def bootUpload : AlinkUpload := alinkUploadInit alinkDevIdAgx (fun _ => 0) alinkUploadBufferSize

/-- The states any run of uploads and changes of the device id leads to. -/
inductive Uploaded (ν : Type) : AlinkUpload → Prop where
  | boot : Uploaded ν bootUpload
  | upload {sUpload eRet sUpload' sends} (package : UploadPackage) (nodes : ν →
      AlinkSendList) (fuel psSendList) :
      Uploaded ν sUpload → package.upload nodes fuel sUpload psSendList =
      some (eRet, sUpload', sends) →
        Uploaded ν sUpload'
  | setDevId {sUpload} (byDevId : UInt8) :
      Uploaded ν sUpload → Uploaded ν (alinkSetUploadDevId sUpload byDevId).2

end Uploads

/-! ## What is written where -/

/-- A place in the payload area that belongs to the `reserve` of an item. -/
def InReserve (k : Nat) : Prop := ∃ i j, j < 8 ∧ k = 5 + i * 24 + 16 + j

section Items

variable {targets : Nat → AlinkTargetsItem} {psTarget psTarget' : Ptr UInt8} {k : Nat}

@[simp] theorem AlinkTargetsItem.length_bytes (t : AlinkTargetsItem) : t.bytes.length = 16 := by
  simp [bytes]

@[simp] theorem AlinkTagetInfo.length_front (t : AlinkTagetInfo) : t.front.length = 5 := by
  simp [front]

theorem targetInfoItems_reserve (n : Nat) (reserve : InReserve k) :
    targetInfoItems targets psTarget n k = psTarget k := by
  obtain ⟨i, j, small, rfl⟩ := reserve
  induction n with
  | zero => rfl
  | succ n ih =>
      rw [targetInfoItems]
      by_cases before : i < n
      · rw [Ptr.store_before _ _ (by omega), ih]
      · rw [Ptr.store_after _ _ (by rw [AlinkTargetsItem.length_bytes]; omega), ih]

theorem targetInfoItems_congr (n : Nat)
    (agree : ∀ k, k < 5 ∨ InReserve k → psTarget k = psTarget' k)
    (inside : k < 5 + n * 24) :
    targetInfoItems targets psTarget n k = targetInfoItems targets psTarget' n k := by
  induction n with
  | zero => exact agree k (.inl (by omega))
  | succ n ih =>
      by_cases early : k < 5 + n * 24
      · rw [targetInfoItems, targetInfoItems, Ptr.store_before _ _ early,
          Ptr.store_before _ _ early, ih early]
      · by_cases field : k < 5 + n * 24 + 16
        · obtain ⟨j, rfl⟩ := Nat.exists_eq_add_of_le (Nat.not_lt.mp early)
          have small : j < (targets n).bytes.length := by
            rw [AlinkTargetsItem.length_bytes]
            omega
          rw [targetInfoItems, targetInfoItems, Ptr.store_inside _ _ small,
            Ptr.store_inside _ _ small]
        · have reserve : InReserve k := ⟨n, k - (5 + n * 24 + 16), by omega, by omega⟩
          rw [targetInfoItems_reserve (n + 1) reserve, targetInfoItems_reserve (n + 1) reserve,
            agree k (.inr reserve)]

theorem trackPkgTargetInfo_reserve (pbyBuffer : Ptr UInt8) (wSize : Nat)
    (psObjTarget : AlinkTagetInfo)
    (reserve : InReserve k) :
    (trackPkgTargetInfo pbyBuffer wSize psObjTarget).1 k = pbyBuffer k := by
  refine (targetInfoItems_reserve _ reserve).trans ?_
  obtain ⟨i, j, small, rfl⟩ := reserve
  exact Ptr.store_after _ _ (by rw [AlinkTagetInfo.length_front]; omega)

theorem trackPkgTargetInfo_congr {pbyBuffer pbyBuffer' : Ptr UInt8} (wSize : Nat)
    (psObjTarget : AlinkTagetInfo)
    (agree : ∀ k, InReserve k → pbyBuffer k = pbyBuffer' k) :
    (trackPkgTargetInfo pbyBuffer wSize psObjTarget).1.read (5 + psObjTarget.objNum.toNat * 24) =
      (trackPkgTargetInfo pbyBuffer' wSize psObjTarget).1.read (5 +
        psObjTarget.objNum.toNat * 24) := by
  apply Ptr.read_congr
  intro k inside
  refine targetInfoItems_congr _ ?_ inside
  rintro k (front | reserve)
  · have small : k < psObjTarget.front.length := by rwa [AlinkTagetInfo.length_front]
    rw [← Nat.zero_add k, Ptr.store_inside _ _ small, Ptr.store_inside _ _ small]
  · exact Ptr.store_congr _ _ (agree k reserve)

end Items

section Frame

variable {ι ν : Type} {nodes : ν → AlinkSendList} {psNext : ν → Option ν} {wPayloadLen fuel k : Nat}
  {pbyBuffer pbyBuffer' : Ptr UInt8} {eRet eRet' : Int} {sends : List (UploadSend ν)}

/-- Where the loop over the subscribers writes. -/
def Refreshed (wPayloadLen k : Nat) : Prop :=
  k = 4 ∨ k = 8 ∨ k = wrapSub 64 (wrap 16 (wPayloadLen + alinkNoPayloadSize)) 2 ∨
    k = wrapSub 64 (wrap 16 (wPayloadLen + alinkNoPayloadSize)) 1

theorem alinkUploadRefresh_frame (byRemoteId : UInt8) (outside : ¬ Refreshed wPayloadLen k) :
    alinkUploadRefresh pbyBuffer wPayloadLen byRemoteId k = pbyBuffer k := by
  simp only [Refreshed, not_or] at outside
  obtain ⟨destid, checksum, low, high⟩ := outside
  simp only [alinkUploadRefresh]
  rw [Function.update_of_ne high, Function.update_of_ne low, Function.update_of_ne checksum,
    Function.update_of_ne destid]

theorem alinkUploadSendFrom_frame {psSendListNow : Option ν} (outside : ¬ Refreshed wPayloadLen k)
    (returned : alinkUploadSendFrom nodes psNext wPayloadLen fuel eRet pbyBuffer psSendListNow =
      some (eRet', pbyBuffer', sends)) : pbyBuffer' k = pbyBuffer k := by
  induction fuel generalizing eRet pbyBuffer psSendListNow sends with
  | zero =>
      cases psSendListNow with
      | none =>
          obtain ⟨rfl, rfl, rfl⟩ := by simpa [alinkUploadSendFrom] using returned
          rfl
      | some x => cases returned
  | succ fuel ih =>
      cases psSendListNow with
      | none =>
          obtain ⟨rfl, rfl, rfl⟩ := by simpa [alinkUploadSendFrom] using returned
          rfl
      | some x =>
          cases send : (nodes x).peSend with
          | none =>
              simp only [alinkUploadSendFrom, send] at returned
              exact ih returned
          | some peSend =>
              simp only [alinkUploadSendFrom, send, Option.map_eq_some_iff] at returned
              obtain ⟨⟨eRet'', pbyBuffer'', sends''⟩, rest, same⟩ := returned
              obtain ⟨rfl, rfl, rfl⟩ := by simpa using same
              rw [ih rest, alinkUploadRefresh_frame _ outside]

theorem refreshed_iff (fits : wPayloadLen + alinkNoPayloadSize ≤ 65535) :
    Refreshed wPayloadLen k ↔ k = 4 ∨ k = 8 ∨ k = wPayloadLen + 9 ∨ k = wPayloadLen + 10 := by
  simp only [alinkNoPayloadSize] at fits
  have count : wrap 16 (wPayloadLen + 11) = wPayloadLen + 11 := wrap_of_lt (by omega)
  have two : wrapSub 64 (wPayloadLen + 11) 2 = wPayloadLen + 9 :=
    wrapSub_of_le (by omega) (by omega)
  have one : wrapSub 64 (wPayloadLen + 11) 1 = wPayloadLen + 10 :=
    wrapSub_of_le (by omega) (by omega)
  simp only [Refreshed, alinkNoPayloadSize, count, two, one]

/-- No reserve has ever been written to. -/
structure Clean (sUpload : AlinkUpload) : Prop where
  sized : sUpload.wBufferSize = alinkUploadBufferSize.toNat
  reserve : ∀ k, InReserve k → sUpload.pbyBuffer (alinkMsgHeadSize + k) = 0

variable {sUpload sUpload' : AlinkUpload} {psPackage : AlinkPackageList ι ν} {psImport : ι}
  {pwPackageTask : Ptr UInt8 → Nat → ι → Ptr UInt8 × UInt16}

theorem alinkUploadPrepare_behind (byMsgId byAns : UInt8) (payload : Ptr UInt8)
    (wPayloadLen : UInt16) (k : Nat) :
    alinkUploadPrepare sUpload byMsgId byAns payload wPayloadLen (alinkMsgHeadSize + k) =
      payload k := by
  have nine : alinkMsgHeadSize = 9 := rfl
  simp only [alinkUploadPrepare]
  rw [Function.update_of_ne (by omega), Function.update_of_ne (by omega),
    Function.update_of_ne (by omega),
    Function.update_of_ne (by omega), Function.update_of_ne (by omega),
    Function.update_of_ne (by omega),
    Function.update_of_ne (by omega), if_neg (by omega), Nat.add_sub_cancel_left]

theorem alinkUploadSendPackage_clean (clean : Clean sUpload)
    (registered : psPackage.pwPackageTask = some pwPackageTask)
    (area : ∀ pbyBuffer wSize k, InReserve k →
      (pwPackageTask pbyBuffer wSize psImport).1 k = pbyBuffer k)
    (count : ∀ pbyBuffer wSize, (pwPackageTask pbyBuffer wSize psImport).2.toNat = wPayloadLen)
    (fits : wPayloadLen + alinkNoPayloadSize ≤ 65535) (apart : ∀ k, InReserve k → k ≠ wPayloadLen ∧
      k ≠ wPayloadLen + 1)
    (returned : alinkUploadSendPackage nodes fuel sUpload psPackage psImport =
      some (eRet, sUpload', sends)) :
    Clean sUpload' := by
  cases head : psPackage.psSendList.head with
  | none =>
      simp only [alinkUploadSendPackage, head] at returned
      obtain ⟨-, rfl, -⟩ := by simpa using returned
      exact clean
  | some first =>
      simp only [alinkUploadSendPackage, head, registered, Option.map_eq_some_iff] at returned
      obtain ⟨⟨eRet'', pbyBuffer'', sends''⟩, sent, same⟩ := returned
      obtain ⟨-, rfl, -⟩ := by simpa using same
      refine ⟨clean.sized, fun k reserve => ?_⟩
      have outside : ¬ Refreshed wPayloadLen (alinkMsgHeadSize + k) := by
        obtain ⟨low, high⟩ := apart k reserve
        obtain ⟨i, j, -, rfl⟩ := reserve
        rw [refreshed_iff fits]
        simp only [alinkMsgHeadSize]
        omega
      rw [count] at sent
      have kept := alinkUploadSendFrom_frame outside sent
      rw [alinkUploadPrepare_behind, area _ _ _ reserve, Ptr.advance_apply, clean.reserve k reserve]
        at kept
      exact kept

end Frame

/-! ## Runs -/

section Runs

variable {ν : Type} {sUpload sUpload' : AlinkUpload} {nodes : ν → AlinkSendList} {fuel : Nat}
  {psSendList : SendLists ν}
  {eRet : Int} {sends : List (UploadSend ν)}

theorem targetInfo_count (pbyBuffer : Ptr UInt8) (wSize : Nat) (psObjTarget : AlinkTagetInfo) :
    (trackPkgTargetInfo pbyBuffer wSize psObjTarget).2.toNat =
      5 + psObjTarget.objNum.toNat * 24 := by
  have bound := psObjTarget.objNum.toNat_lt
  rw [trackPkgTargetInfo, UInt16.toNat_ofNat', Nat.mod_eq_of_lt (by omega)]

theorem upload_clean (package : UploadPackage) (clean : Clean sUpload)
    (returned : package.upload nodes fuel sUpload psSendList = some (eRet, sUpload', sends)) :
    Clean sUpload' := by
  cases package with
  | heartbeat =>
      have count (pbyBuffer : Ptr UInt8) (wSize : Nat) :
          (systemPkgHeartbeat pbyBuffer wSize ()).2.toNat = 3 := rfl
      refine alinkUploadSendPackage_clean clean rfl ?_ count (by decide) ?_ returned
      · rintro pbyBuffer wSize k ⟨i, j, small, rfl⟩
        have behind : 0 + ([100, 0, 0] : List UInt8).length ≤ 5 + i * 24 + 16 + j := by
          simp only [List.length_cons, List.length_nil]
          omega
        exact Ptr.store_after pbyBuffer _ behind
      · rintro k ⟨i, j, small, rfl⟩
        omega
  | targetInfo psObjTarget =>
      have bound := psObjTarget.objNum.toNat_lt
      refine alinkUploadSendPackage_clean clean rfl ?_
        (fun _ _ => targetInfo_count _ _ _) ?_ ?_ returned
      · exact fun pbyBuffer wSize k reserve =>
          trackPkgTargetInfo_reserve pbyBuffer wSize psObjTarget reserve
      · simp only [alinkNoPayloadSize]
        omega
      · rintro k ⟨i, j, small, rfl⟩
        omega

/-- The reserves are zero in every state reached. -/
theorem Uploaded.clean (uploaded : Uploaded ν sUpload) : Clean sUpload := by
  induction uploaded with
  | boot => exact ⟨rfl, fun _ _ => rfl⟩
  | upload package nodes fuel psSendList _ returned ih => exact upload_clean package ih returned
  | setDevId byDevId _ ih =>
      unfold alinkSetUploadDevId
      split
      · exact ⟨ih.sized, ih.reserve⟩
      · exact ih

theorem alinkUploadSendPackage_congr {ι : Type} {psPackage : AlinkPackageList ι ν}
    {psSendList' : SendLists ν}
    {psImport : ι} {wPayloadLen : Nat} {pwPackageTask : Ptr UInt8 → Nat → ι → Ptr UInt8 × UInt16}
    {subscribers : List ν}
    (clean : Clean sUpload) (clean' : Clean sUpload') (seq : sUpload.byReq = sUpload'.byReq)
    (dev : sUpload.byDevId = sUpload'.byDevId) (listed : psPackage.psSendList.Holds subscribers)
    (listed' : psSendList'.Holds subscribers)
    (registered : psPackage.pwPackageTask = some pwPackageTask)
    (count : ∀ pbyBuffer wSize, (pwPackageTask pbyBuffer wSize psImport).2.toNat = wPayloadLen)
    (fits : wPayloadLen + alinkNoPayloadSize ≤ alinkUploadBufferSize.toNat)
    (agree : ∀ wSize,
      (pwPackageTask (sUpload.pbyBuffer.advance alinkMsgHeadSize) wSize psImport).1.read
          wPayloadLen =
        (pwPackageTask (sUpload'.pbyBuffer.advance alinkMsgHeadSize) wSize psImport).1.read
          wPayloadLen) :
    ∃ r r', alinkUploadSendPackage nodes subscribers.length sUpload psPackage psImport = some r ∧
      alinkUploadSendPackage nodes subscribers.length sUpload'
      { psPackage with psSendList := psSendList' } psImport =
        some r' ∧ r.2.2 = r'.2.2 := by
  let wSize := wrap 16 (wrapSub 32 sUpload.wBufferSize alinkNoPayloadSize)
  have size : wrap 16 (wrapSub 32 sUpload'.wBufferSize alinkNoPayloadSize) = wSize := by
    rw [clean'.sized, ← clean.sized]
  let called := pwPackageTask (sUpload.pbyBuffer.advance alinkMsgHeadSize) wSize psImport
  let called' := pwPackageTask (sUpload'.pbyBuffer.advance alinkMsgHeadSize) wSize psImport
  let m := called.1.read wPayloadLen
  have length : m.length = wPayloadLen := Ptr.length_read _ _
  have fits₁ : m.length + alinkNoPayloadSize ≤ sUpload.wBufferSize := by rwa [length, clean.sized]
  have fits₂ : m.length + alinkNoPayloadSize ≤ sUpload'.wBufferSize := by rwa [length, clean'.sized]
  have written₁ : called.1.read m.length = m := by rw [length]
  have written₂ : called'.1.read m.length = m := by rw [length]; exact (agree wSize).symm
  obtain ⟨eRet, u, ran, -⟩ :=
    @alinkUploadSendPackage_sends _ _ nodes _ _ _ _ _ _ _ _ _ listed registered
    (Nat.le_refl _) fits₁ rfl ((count _ _).trans length.symm) written₁
  obtain ⟨eRet', u', ran', -⟩ :=
    @alinkUploadSendPackage_sends _ _ nodes _ { psPackage with psSendList := psSendList' }
    _ _ _ _ _ _ _ listed' registered (Nat.le_refl _) fits₂ (by rw [size])
    ((count _ _).trans length.symm) written₂
  have packet : uploadPacket sUpload psPackage m fits₁ 0 =
      uploadPacket sUpload' { psPackage with psSendList := psSendList' } m fits₂ 0 := by
    simp only [uploadPacket, seq, dev]
  exact ⟨_, _, ran, ran', by rw [packet]⟩

/-- What an upload sends is made of the source, the sequence number and the
    device id alone. -/
theorem upload_sends (package : UploadPackage) (clean : Clean sUpload) (clean' : Clean sUpload')
    (seq : sUpload.byReq = sUpload'.byReq) (dev : sUpload.byDevId = sUpload'.byDevId)
    {psSendList' : SendLists ν}
    {subscribers : List ν} (listed : psSendList.Holds subscribers)
    (listed' : psSendList'.Holds subscribers) :
    ∃ r r', package.upload nodes subscribers.length sUpload psSendList = some r ∧
      package.upload nodes subscribers.length sUpload' psSendList' = some r' ∧ r.2.2 = r'.2.2 := by
  cases package with
  | heartbeat =>
      have written (area : Ptr UInt8) : (area.store 0 [100, 0, 0]).read 3 = [100, 0, 0] :=
        Ptr.read_store area 0 [100, 0, 0]
      have agree (area area' : Ptr UInt8) :
          (area.store 0 [100, 0, 0]).read 3 = (area'.store 0 [100, 0, 0]).read 3 :=
        (written area).trans (written area').symm
      exact alinkUploadSendPackage_congr clean clean' seq dev listed listed' rfl (fun _ _ => rfl)
        (by decide)
        fun wSize => agree _ _
  | targetInfo psObjTarget =>
      have bound := psObjTarget.bounded
      have fits : 5 + psObjTarget.objNum.toNat * 24 + alinkNoPayloadSize ≤
          alinkUploadBufferSize.toNat := by
        have size : alinkUploadBufferSize.toNat = 6144 := rfl
        simp only [alinkTargetMax] at bound
        simp only [size, alinkNoPayloadSize]
        omega
      refine alinkUploadSendPackage_congr clean clean' seq dev listed listed' rfl
        (fun _ _ => targetInfo_count _ _ _)
        fits fun wSize => trackPkgTargetInfo_congr _ _ ?_
      intro k reserve
      rw [Ptr.advance_apply, Ptr.advance_apply, clean.reserve k reserve, clean'.reserve k reserve]

end Runs

/-- Two runs that end with the same upload send the same bytes to every
    subscriber, whatever was uploaded before. -/
theorem upload_forgets {ν : Type} {sUpload sUpload' : AlinkUpload} (uploaded : Uploaded ν sUpload)
    (uploaded' : Uploaded ν sUpload') (seq : sUpload.byReq = sUpload'.byReq)
    (dev : sUpload.byDevId = sUpload'.byDevId)
    (package : UploadPackage) (nodes : ν → AlinkSendList) {psSendList psSendList' : SendLists ν}
    {subscribers : List ν}
    (listed : psSendList.Holds subscribers) (listed' : psSendList'.Holds subscribers) :
    ∃ r r', package.upload nodes subscribers.length sUpload psSendList = some r ∧
      package.upload nodes subscribers.length sUpload' psSendList' = some r' ∧ r.2.2 = r'.2.2 :=
  upload_sends package uploaded.clean uploaded'.clean seq dev listed listed'

def oneTarget : AlinkTagetInfo where
  timestamp := 7
  objNum := 1
  targets := fun _ =>
    { id := 1, classification := 2, rectX := 3, rectY := 4, rectW := 5, rectH := 6,
      rectXV := 7, rectYV := 8
      classfyProb := 9 }
  bounded := by decide

/-- The first upload went to a subscriber that cannot be sent to. -/
def firstUpload (byMsgId : UInt8) (called : Ptr UInt8 × UInt16) : AlinkUpload :=
  { bootUpload with byReq := 1,
                    pbyBuffer := alinkUploadPrepare bootUpload byMsgId 0 called.1 called.2 }

theorem upload_forgets_oneTarget :
    let psSendList : SendLists Nat := { head := some 1, next := fun _ => none }
    let nodes : Nat → AlinkSendList :=
      fun x => { byRemoteId := 6, handle := x, peSend := some fun _ _ => 0 }
    let area := bootUpload.pbyBuffer.advance alinkMsgHeadSize
    ∃ r r', (UploadPackage.targetInfo oneTarget).upload nodes [1].length
    (firstUpload 0xD0 (systemPkgHeartbeat area 6133 ()))
        psSendList = some r ∧
      (UploadPackage.targetInfo oneTarget).upload nodes [1].length
      (firstUpload 0x80 (trackPkgTargetInfo area 6133 oneTarget))
        psSendList = some r' ∧ r.2.2 = r'.2.2 := by
  intro psSendList nodes area
  let quiet : Nat → AlinkSendList := fun x => { byRemoteId := 6, handle := x, peSend := none }
  exact upload_forgets (.upload .heartbeat quiet 1 psSendList .boot rfl)
    (.upload (.targetInfo oneTarget) quiet 1 psSendList .boot rfl) rfl rfl
    (.targetInfo oneTarget) nodes ⟨rfl, rfl⟩ ⟨rfl, rfl⟩

end PtzAgx.Alink
