import PtzAgx.Alink.Frame
import PtzAgx.Alink.Order

/-! # The handlers of radar, tracer and user target messages

`command/track/alink_track.c` and `user_custom_track_target` of
`command/target/alink_target.c`. Every handler copies the payload over one field
of a package, as many bytes as the message says. The table only asks for a
minimum, so whether a copy stays inside its field is a question about the
message.

A package is seen through a pointer to its start, and what lies behind it in
memory is the rest of what the pointer leads to. The payload is read through a
pointer of its own. The diagnostics are left out.
-/

namespace PtzAgx.Alink

open Bytes Words

def alinkTargetMax : Nat := 128

/-- `TRACK_INFO_PACKAGE_TYPE`. -/
inductive TrackInfoPackageType where
  | radar
  | tracerPRemoteId
  | tracerPDroneId
  | fromUser
  deriving Repr, DecidableEq

def TrackInfoPackageType.value : TrackInfoPackageType → UInt8
  | .radar => 0
  | .tracerPRemoteId => 1
  | .tracerPDroneId => 2
  | .fromUser => 3

/-! ## Record sizes, member by member -/

def sizeofInt : Nat := 4

/-- `alink_track_tracked_item_t`, packed. -/
def alinkTrackTrackedItemSize : Nat :=
  [1, 1, 1, 1, 1, 1, 1, 1, 2, 4, 2, 2, 2, 2, 2, 2, 2, 4, 4, 4, 2, 2, 2, 2, 2, 2, 2, 2, 2, 2, 2, 2,
    2, 2, 2, 2, 2, 4, 4, 2, 2 * 3].sum

/-- `alink_track_tracked_t`, packed. -/
def alinkTrackTrackedSize : Nat := [1, 1, 1, 1, 1, alinkTargetMax * alinkTrackTrackedItemSize].sum

/-- `alink_track_attitude_t`, packed. -/
def alinkTrackAttitudeSize : Nat := [1, 4, 4, 4, 4, 4, 4, 4, 2 * 6, 4].sum

/-- `alink_drone_id_items_t` and `alink_remote_id_items_t`, packed. -/
def alinkDroneIdItemsSize : Nat := [1, 25, 32, 4, 4, 2, 2, 2, 1, 2, 4, 4, 4, 2, 2].sum

/-- `alink_drone_id_track_t` and `alink_remote_id_track_t`, packed. -/
def alinkDroneIdTrackSize : Nat := [25, 1, alinkTargetMax * alinkDroneIdItemsSize].sum

/-- `user_track_target_t`, packed. -/
def userTrackTargetSize : Nat := [1, 1, 4, 4, 4, 25, 4, 4].sum

/-- `radar_track_info_packages_t`, packed. -/
def radarTrackInfoPackagesSize : Nat := sizeofInt + alinkTrackTrackedSize + alinkTrackAttitudeSize

/-- The packages that are not packed are aligned to their `int`. -/
def alignedSize (n : Nat) : Nat := (n + (sizeofInt - 1)) / sizeofInt * sizeofInt

/-- `droneid_track_info_packages_t` and `remoteid_track_info_packages_t`. -/
def droneidTrackInfoPackagesSize : Nat := alignedSize (sizeofInt + alinkDroneIdTrackSize)

/-- `user_track_target_packages_t`. -/
def userTrackTargetPackagesSize : Nat := alignedSize (sizeofInt + userTrackTargetSize)

/-- `sizeof(alink_track_get_config_info_t)`. -/
def alinkTrackGetConfigInfoSize : Nat := 1

/-! ## The writes of the handlers -/

/-- `pack.track_pack_type = ...`, a little-endian `int`. -/
def setTrackPackType (type : TrackInfoPackageType) (pack : Ptr UInt8) : Ptr UInt8 :=
  pack.store 0 [type.value, 0, 0, 0]

/-- `memcpy` of the payload over the field at this offset. -/
def copyPayload (offset : Nat) (psPayload : AlinkPayload) (pack : Ptr UInt8) : Ptr UInt8 :=
  pack.store offset (psPayload.pbyData.read psPayload.wLength)

/-- What `track_pkg_tracked` writes to the static package. -/
def trackedWrites (psPayload : AlinkPayload) (pack : Ptr UInt8) : Ptr UInt8 :=
  setTrackPackType .radar (copyPayload sizeofInt psPayload pack)

/-- What `track_pkg_attitude` writes to the static package. -/
def attitudeWrites (psPayload : AlinkPayload) (pack : Ptr UInt8) : Ptr UInt8 :=
  copyPayload (sizeofInt + alinkTrackTrackedSize) psPayload pack

/-- What the other handlers write to their local package. -/
def localWrites (type : TrackInfoPackageType) (psPayload : AlinkPayload) (pack : Ptr UInt8) :
    Ptr UInt8 :=
  copyPayload sizeofInt psPayload (setTrackPackType type pack)

def droneIdWrites : AlinkPayload → Ptr UInt8 → Ptr UInt8 := localWrites .tracerPDroneId
def remoteIdWrites : AlinkPayload → Ptr UInt8 → Ptr UInt8 := localWrites .tracerPRemoteId
def userTargetWrites : AlinkPayload → Ptr UInt8 → Ptr UInt8 := localWrites .fromUser

/-! ## The handlers -/

/-- The static package, the place of a handler's local package, and the messages
    given to `msg_send_to_alg`. -/
structure TrackWorld where
  pack : Ptr UInt8
  localPack : Ptr UInt8
  algMsgs : List (List UInt8)

/-- `= {0}` at the declaration of a local package. -/
def declared (size : Nat) (localPack : Ptr UInt8) : Ptr UInt8 :=
  localPack.store 0 (List.replicate size 0)

def trackPkgTracked (psPayload : AlinkPayload) (psResp : AlinkResp) (world : TrackWorld) :
    AlinkResp × TrackWorld :=
  let pack := trackedWrites psPayload world.pack
  (psResp, { world with pack, algMsgs := world.algMsgs ++ [pack.read radarTrackInfoPackagesSize] })

def trackPkgAttitude (psPayload : AlinkPayload) (psResp : AlinkResp) (world : TrackWorld) :
    AlinkResp × TrackWorld :=
  (psResp, { world with pack := attitudeWrites psPayload world.pack })

def trackPkgDroneId (psPayload : AlinkPayload) (psResp : AlinkResp) (world : TrackWorld) :
    AlinkResp × TrackWorld :=
  let localPack := droneIdWrites psPayload (declared droneidTrackInfoPackagesSize world.localPack)
  (psResp,
    { world with localPack,
                 algMsgs := world.algMsgs ++ [localPack.read droneidTrackInfoPackagesSize] })

/-- The only one that sends as much as it was given. -/
def trackPkgRemoteId (psPayload : AlinkPayload) (psResp : AlinkResp) (world : TrackWorld) :
    AlinkResp × TrackWorld :=
  let localPack := remoteIdWrites psPayload (declared droneidTrackInfoPackagesSize world.localPack)
  (psResp, { world with
               localPack,
               algMsgs := world.algMsgs ++ [localPack.read (sizeofInt + psPayload.wLength)] })

def userCustomTrackTarget (psPayload : AlinkPayload) (psResp : AlinkResp) (world : TrackWorld) :
    AlinkResp × TrackWorld :=
  let localPack := userTargetWrites psPayload (declared userTrackTargetPackagesSize world.localPack)
  (psResp,
    { world with localPack,
                 algMsgs := world.algMsgs ++ [localPack.read userTrackTargetPackagesSize] })

/-- The commands `alink_track_init` registers for radar devices. -/
def alinkTrackInit : List (AlinkCmdList TrackWorld) :=
  [⟨0x12, alinkTrackGetConfigInfoSize, some trackPkgTracked⟩,
    ⟨0x13, alinkTrackGetConfigInfoSize, some trackPkgAttitude⟩,
    ⟨0xE0, alinkTrackGetConfigInfoSize, some trackPkgDroneId⟩,
    ⟨0xE1, alinkTrackGetConfigInfoSize, some trackPkgRemoteId⟩]

/-- The command `alink_target_init` registers for the C2. -/
def alinkTargetInit : List (AlinkCmdList TrackWorld) :=
  [⟨0x81, sizeofInt, some userCustomTrackTarget⟩]

/-! ## One description of all five -/

inductive RecordCmd where
  | tracked
  | attitude
  | droneId
  | remoteId
  | userTarget
  deriving Repr, DecidableEq

namespace RecordCmd

def table : RecordCmd → List (AlinkCmdList TrackWorld)
  | .tracked | .attitude | .droneId | .remoteId => alinkTrackInit
  | .userTarget => alinkTargetInit

def byCmd : RecordCmd → UInt8
  | .tracked => 0x12
  | .attitude => 0x13
  | .droneId => 0xE0
  | .remoteId => 0xE1
  | .userTarget => 0x81

def wPayloadLen : RecordCmd → Nat
  | .tracked | .attitude | .droneId | .remoteId => alinkTrackGetConfigInfoSize
  | .userTarget => sizeofInt

def pvCmdTask : RecordCmd → AlinkPayload → AlinkResp → TrackWorld → AlinkResp × TrackWorld
  | .tracked => trackPkgTracked
  | .attitude => trackPkgAttitude
  | .droneId => trackPkgDroneId
  | .remoteId => trackPkgRemoteId
  | .userTarget => userCustomTrackTarget

/-- The package a handler writes to, as it is when the writes begin. -/
def object (world : TrackWorld) : RecordCmd → Ptr UInt8
  | .tracked | .attitude => world.pack
  | .droneId | .remoteId => declared droneidTrackInfoPackagesSize world.localPack
  | .userTarget => declared userTrackTargetPackagesSize world.localPack

/-- That package afterwards. -/
def written (world : TrackWorld) : RecordCmd → Ptr UInt8
  | .tracked | .attitude => world.pack
  | .droneId | .remoteId | .userTarget => world.localPack

def writes : RecordCmd → AlinkPayload → Ptr UInt8 → Ptr UInt8
  | .tracked => trackedWrites
  | .attitude => attitudeWrites
  | .droneId => droneIdWrites
  | .remoteId => remoteIdWrites
  | .userTarget => userTargetWrites

/-- Where the record a command is decoded into begins in its package. -/
def offset : RecordCmd → Nat
  | .attitude => sizeofInt + alinkTrackTrackedSize
  | .tracked | .droneId | .remoteId | .userTarget => sizeofInt

def size : RecordCmd → Nat
  | .tracked => alinkTrackTrackedSize
  | .attitude => alinkTrackAttitudeSize
  | .droneId | .remoteId => alinkDroneIdTrackSize
  | .userTarget => userTrackTargetSize

/-- What a handler may write: its record and, apart from the attitude, the
    package type. -/
def Owns (c : RecordCmd) (i : Nat) : Prop :=
  (c.offset ≤ i ∧ i < c.offset + c.size) ∨ (c ≠ .attitude ∧ i < sizeofInt)

end RecordCmd

/-- Whatever the package holds, these writes change it only where the command
    owns it. -/
def StaysInside (c : RecordCmd) (psPayload : AlinkPayload) : Prop :=
  ∀ pack i, ¬ c.Owns i → c.writes psPayload pack i = pack i

section Writes

variable {c : RecordCmd} {psPayload : AlinkPayload} {pack : Ptr UInt8} {i : Nat}

theorem setTrackPackType_behind (type : TrackInfoPackageType) (behind : sizeofInt ≤ i) :
    setTrackPackType type pack i = pack i := Ptr.store_after pack _ behind

/-- Behind the package type every handler writes just the payload. -/
theorem writes_behind (behind : sizeofInt ≤ i) :
    c.writes psPayload pack i = copyPayload c.offset psPayload pack i := by
  cases c with
  | tracked => exact setTrackPackType_behind .radar behind
  | attitude => rfl
  | droneId => exact Ptr.store_congr _ _ (setTrackPackType_behind .tracerPDroneId behind)
  | remoteId => exact Ptr.store_congr _ _ (setTrackPackType_behind .tracerPRemoteId behind)
  | userTarget => exact Ptr.store_congr _ _ (setTrackPackType_behind .fromUser behind)

theorem RecordCmd.offset_behind (c : RecordCmd) : sizeofInt ≤ c.offset := by
  cases c <;> decide

/-- Only the attitude has nothing to write at the package type, and it starts
    behind it. -/
theorem writes_front (front : i < sizeofInt) (foreign : ¬ c.Owns i) :
    c.writes psPayload pack i = pack i := by
  have attitude : c = .attitude := by
    by_contra other
    exact foreign (.inr ⟨other, front⟩)
  subst attitude
  exact Ptr.store_before pack _ (Nat.lt_of_lt_of_le front (RecordCmd.offset_behind .attitude))

theorem copyPayload_outside {offset : Nat} (outside : i < offset ∨ offset + psPayload.wLength ≤ i) :
    copyPayload offset psPayload pack i = pack i := by
  rcases outside with before | after
  · exact Ptr.store_before pack _ before
  · exact Ptr.store_after pack _ (by rwa [Ptr.length_read])

theorem copyPayload_inside (offset : Nat) {j : Nat} (inside : j < psPayload.wLength) :
    copyPayload offset psPayload pack (offset + j) = psPayload.pbyData j := by
  rw [copyPayload, Ptr.store_inside pack offset (by rwa [Ptr.length_read]), Ptr.getElem_read]

/-- The writes stay inside exactly when the payload fits the record. -/
theorem staysInside_iff : StaysInside c psPayload ↔ psPayload.wLength ≤ c.size := by
  have behind := c.offset_behind
  constructor
  · intro inside
    by_contra long
    -- The first byte behind the record, in a package that holds something else there.
    have foreign : ¬ c.Owns (c.offset + c.size) := by
      rintro (⟨_, here⟩ | ⟨_, front⟩) <;> omega
    have kept := inside (fun _ => psPayload.pbyData c.size + 1) (c.offset + c.size) foreign
    rw [writes_behind (by omega), copyPayload_inside c.offset (by omega)] at kept
    simp at kept
  · intro fits pack i foreign
    by_cases front : i < sizeofInt
    · exact writes_front front foreign
    · have outside : i < c.offset ∨ c.offset + psPayload.wLength ≤ i := by
        by_contra within
        exact foreign (.inl ⟨by omega, by omega⟩)
      rw [writes_behind (Nat.not_lt.mp front), copyPayload_outside outside]

theorem alinkOrderTask_handled {psOrder : AlinkOrder TrackWorld} {psImport : AlinkOrderImport}
    {pbyMsg : Ptr UInt8}
    (world : TrackWorld) (table : psOrder.psCmdList = c.table)
    (addressed : MsgHead.msgid pbyMsg = c.byCmd)
    (enough : c.wPayloadLen ≤ (alinkPayloadOf psImport pbyMsg).wLength) :
    alinkOrderTask psOrder psImport pbyMsg world =
      c.pvCmdTask (alinkPayloadOf psImport pbyMsg) (alinkRespOf psOrder psImport) world := by
  have registered :
    psOrder.psCmdList.find? (fun psCmdList => psCmdList.byCmd == MsgHead.msgid pbyMsg) =
      some ⟨c.byCmd, c.wPayloadLen, some c.pvCmdTask⟩ := by
    rw [table, addressed]
    cases c <;> rfl
  exact alinkOrderTask_call world registered rfl enough

theorem alinkOrderTask_writes {psOrder : AlinkOrder TrackWorld} {psImport : AlinkOrderImport}
    {pbyMsg : Ptr UInt8}
    (world : TrackWorld) (table : psOrder.psCmdList = c.table)
    (addressed : MsgHead.msgid pbyMsg = c.byCmd)
    (enough : c.wPayloadLen ≤ (alinkPayloadOf psImport pbyMsg).wLength) :
    c.written (alinkOrderTask psOrder psImport pbyMsg world).2 =
      c.writes (alinkPayloadOf psImport pbyMsg) (c.object world) := by
  rw [alinkOrderTask_handled world table addressed enough]
  cases c <;> rfl

end Writes

/-- A dispatched message makes its handler's writes to the command's package, and
    these stay inside the record exactly when the payload is no longer than it. -/
theorem recordCmd_inside_iff (c : RecordCmd) (psOrder : AlinkOrder TrackWorld)
    (psImport : AlinkOrderImport)
    (pbyMsg : Ptr UInt8) (table : psOrder.psCmdList = c.table)
    (addressed : MsgHead.msgid pbyMsg = c.byCmd)
    (enough : c.wPayloadLen ≤ (alinkPayloadOf psImport pbyMsg).wLength) :
    (∀ world, c.written (alinkOrderTask psOrder psImport pbyMsg world).2 =
        c.writes (alinkPayloadOf psImport pbyMsg) (c.object world)) ∧
      (StaysInside c (alinkPayloadOf psImport pbyMsg) ↔
        (alinkPayloadOf psImport pbyMsg).wLength ≤ c.size) :=
  ⟨fun world => alinkOrderTask_writes world table addressed enough, staysInside_iff⟩

/-- A user track target of this many payload bytes, all of them one. -/
def userTargetPacket (n : Nat) (fits : n + alinkNoPayloadSize ≤ 65535) : AlinkPacket where
  seq := 0
  destid := 0
  sourceid := 0
  msgid := 0x81
  ans := 0
  payload := List.replicate n 1
  fits := by rwa [List.length_replicate]

theorem userTargetPacket_length (psImport : AlinkOrderImport) (n : Nat)
    (fits : n + alinkNoPayloadSize ≤ 65535) :
    (alinkPayloadOf psImport (Ptr.ofList (userTargetPacket n fits).frame)).wLength = n := by
  rw [alinkPayloadOf_length, AlinkPacket.payloadSize_frame]
  exact List.length_replicate

/-- The largest payload that stays inside. -/
theorem recordCmd_inside_iff_userTarget :
    let psOrder : AlinkOrder TrackWorld :=
  { wBufferSize := 8192, pbyBuffer := fun _ => 0, psCmdList := alinkTargetInit }
    let psImport : AlinkOrderImport := { ePortId := 0, pbyMsg := 0, handle := 0, peSend := true }
    let pbyMsg := Ptr.ofList (userTargetPacket 47 (by decide)).frame
    (∀ world, RecordCmd.written (alinkOrderTask psOrder psImport pbyMsg world).2 .userTarget =
        RecordCmd.writes .userTarget (alinkPayloadOf psImport pbyMsg)
        (RecordCmd.object world .userTarget)) ∧
      (StaysInside .userTarget (alinkPayloadOf psImport pbyMsg) ↔
        (alinkPayloadOf psImport pbyMsg).wLength ≤ RecordCmd.size .userTarget) := by
  intro psOrder psImport pbyMsg
  have enough : RecordCmd.wPayloadLen .userTarget ≤ (alinkPayloadOf psImport pbyMsg).wLength := by
    rw [userTargetPacket_length]
    decide
  exact recordCmd_inside_iff .userTarget psOrder psImport pbyMsg rfl rfl enough

/-- One byte more is accepted, dispatched and written behind the record. -/
theorem recordCmd_overruns :
    ¬ ∀ (c : RecordCmd) (psOrder : AlinkOrder TrackWorld) (psImport : AlinkOrderImport)
      (f : List UInt8),
      Accepted f → psOrder.psCmdList = c.table → MsgHead.msgid (Ptr.ofList f) = c.byCmd →
        c.wPayloadLen ≤ (alinkPayloadOf psImport (Ptr.ofList f)).wLength →
          StaysInside c (alinkPayloadOf psImport (Ptr.ofList f)) := by
  intro contained
  let p := userTargetPacket 48 (by decide)
  let psImport : AlinkOrderImport := { ePortId := 0, pbyMsg := 0, handle := 0, peSend := true }
  have length : (alinkPayloadOf psImport (Ptr.ofList p.frame)).wLength = 48 :=
    userTargetPacket_length _ _ _
  have enough : RecordCmd.wPayloadLen .userTarget ≤
      (alinkPayloadOf psImport (Ptr.ofList p.frame)).wLength := by
    rw [length]
    decide
  have inside := contained .userTarget
      { wBufferSize := 8192, pbyBuffer := fun _ => 0, psCmdList := alinkTargetInit }
    psImport p.frame p.frame_accepted rfl rfl enough
  have long := staysInside_iff.mp inside
  rw [length] at long
  exact absurd long (by decide)

end PtzAgx.Alink
