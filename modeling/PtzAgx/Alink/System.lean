import PtzAgx.Alink.Commands
import PtzAgx.Alink.Upload

/-! # The system commands, and both command tables

`command/system/alink_system.c`, `alink_set_upload_dev_id` and the part of
`alink_init` of `alink.c` that fills the tables of the C2 and of the radar
devices. The handlers fill the response they are given; none of them sends it,
although `psResp->pe_send` would let them. The commented out functions are left
out.
-/

namespace PtzAgx.Alink

open Bytes Words

/-- One call of the `pe_send` of an import. -/
structure OrderSend where
  handle : Nat
  pbyData : List UInt8
  deriving Repr, DecidableEq

/-- What the handlers of both tables work on, and the responses sent so far. -/
structure AlinkWorld where
  track : TrackWorld
  sUpload : AlinkUpload
  sends : List OrderSend

/-- `ALINK_DEV_ID_RADAR`. -/
def alinkDevIdRadar : UInt8 := 3

/-- `ALINK_DEV_ID_AGX`. -/
def alinkDevIdAgx : UInt8 := 8

/-- `ALINK_UPLOAD_BUFFER_SIZE`. -/
def alinkUploadBufferSize : UInt16 := 6 * 1024

def alinkSetUploadDevId (sUpload : AlinkUpload) (byDevId : UInt8) : Int × AlinkUpload :=
  if alinkDevIdRadar = 0x0F &&& byDevId then (0, { sUpload with byDevId }) else (-1, sUpload)

/-! ## Record sizes -/

/-- `alink_sys_set_status_t`. -/
def alinkSysSetStatusSize : Nat := [1, 1, 1].sum

def alinkSysSetStatusAckSize : Nat := 1

def alinkSysGetInfoSize : Nat := 1

/-- `sizeof(psGetInfoAck->value)`. -/
def getInfoAckValueSize : Nat := 16

def alinkSysGetInfoAckSize : Nat := [1, getInfoAckValueSize].sum

def alinkSysHeartbeatExtSize : Nat := 1

def alinkSysSetSnSize : Nat := 15

def alinkSysSetSnAckSize : Nat := 1

/-! ## The handlers -/

/-- Bytes written to the response from this place on, and the count set. -/
def AlinkResp.fill (psResp : AlinkResp) (i : Nat) (cells : List UInt8) (wCount : Nat) : AlinkResp :=
  { psResp with pbyBuffer := psResp.pbyBuffer.store i cells, wCount }

def systemSetStatus (psPayload : AlinkPayload) (psResp : AlinkResp) (world : AlinkWorld) :
    AlinkResp × AlinkWorld :=
  let type := psPayload.pbyData 0
  let param1 := psPayload.pbyData 1
  if type = 0 ∨ type = 1 ∨ type = 2 ∨ type = 3 then (psResp.fill 0 [0] alinkSysSetStatusAckSize,
    world)
  else if type = 4 then
    let (eRet, sUpload) := alinkSetUploadDevId world.sUpload param1
    let status := if eRet = 0 then 0 else 1
    (psResp.fill 0 [status] alinkSysSetStatusAckSize, { world with sUpload })
  else (psResp, world)

/-- `"RADAR_12345678"` with its terminator. -/
def radarName : List UInt8 :=
  [0x52, 0x41, 0x44, 0x41, 0x52, 0x5F, 0x31, 0x32, 0x33, 0x34, 0x35, 0x36, 0x37, 0x38, 0]

/-- Types 0 and 2 leave the end of the value as the buffer has it. -/
def systemGetInfo (psPayload : AlinkPayload) (psResp : AlinkResp) (world : AlinkWorld) :
    AlinkResp × AlinkWorld :=
  let type := psPayload.pbyData 0
  if type = 0 then (psResp.fill 0 [0, 0] alinkSysGetInfoAckSize, world)
  else if type = 1 then
    let psResp := psResp.fill 0 (1 :: 0 :: List.replicate (getInfoAckValueSize - 1) 0) psResp.wCount
    (psResp.fill 2 radarName alinkSysGetInfoAckSize, world)
  else if type = 2 then (psResp.fill 0 [2, 3, 0, 0, 0] alinkSysGetInfoAckSize, world)
  else (psResp, world)

def systemHeartbeatExt (_psPayload : AlinkPayload) (psResp : AlinkResp) (world : AlinkWorld) :
    AlinkResp × AlinkWorld :=
  (psResp, world)

/-- Storing the number is commented out, so that it always fails. -/
def systemSetSn (_psPayload : AlinkPayload) (psResp : AlinkResp) (world : AlinkWorld) :
    AlinkResp × AlinkWorld :=
  let eRet : Int := -1
  let status := if 0 > eRet then 0 else 1
  (psResp.fill 0 [status] alinkSysSetSnAckSize, world)

/-- `faultnum` is 0, and the loop over the fault codes runs that often. -/
def systemPkgHeartbeat {ι : Type} (pbyBuffer : Ptr UInt8) (_wSize : Nat) (_psStatus : ι) :
    Ptr UInt8 × UInt16 :=
  (pbyBuffer.store 0 [100, 0, 0], 3)

/-! ## The tables -/

/-- The commands `alink_system_init` registers. -/
def alinkSystemInit : List (AlinkCmdList AlinkWorld) :=
  [⟨0xD1, alinkSysSetStatusSize, some systemSetStatus⟩,
    ⟨0xD2, alinkSysGetInfoSize, some systemGetInfo⟩,
    ⟨0xD3, alinkSysHeartbeatExtSize, some systemHeartbeatExt⟩,
    ⟨0xD4, alinkSysSetSnSize, some systemSetSn⟩]

/-- A command of the track handlers among the others. -/
def AlinkCmdList.ofTrack (psCmdList : AlinkCmdList TrackWorld) : AlinkCmdList AlinkWorld where
  byCmd := psCmdList.byCmd
  wPayloadLen := psCmdList.wPayloadLen
  pvCmdTask := psCmdList.pvCmdTask.map fun pvCmdTask psPayload psResp world =>
    let after := pvCmdTask psPayload psResp world.track
    (after.1, { world with track := after.2 })

/-- What `alink_init` leaves in a table. -/
def alinkInit : AlinkOrderRef → List (AlinkCmdList AlinkWorld)
  | .sOrder => alinkTargetInit.map .ofTrack ++ alinkSystemInit
  | .sOrderServer => alinkTrackInit.map .ofTrack

end PtzAgx.Alink
