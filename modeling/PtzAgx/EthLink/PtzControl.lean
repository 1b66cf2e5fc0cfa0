import PtzAgx.EthLink.PtzPackage
import PtzAgx.Lib.Bytes

/-! # Commands to the PTZ

`ptz_protocol/ptz_control.c` and `send_ptz_package` of `eth_link_ptz.c`. A
command copies its record into `dat` and hands it over with its length. The
records have a fixed size, except for that of the AI command, which ends with a
pointer to a parameter of any length; the parameter takes the pointer's place.
What `udp_socket_send` does with the package is left out.
-/

namespace PtzAgx.EthLink

open Bytes Object Words

def ptzCommandPeripheralCtrl : UInt32 := 0x11
def ptzCommandAiCtrl : UInt32 := 0x12
def ptzPhotoelectricityNo : UInt32 := 1

/-- `ptz_msg_peripheral_ctrl_t`. -/
structure PtzMsgPeripheralCtrl where
  photoelectricityNo : UInt32
  sysTimesmap : UInt64
  ctrlCmd : UInt32
  ctrlParam : UInt32
  reserver : UInt32
  deriving Repr, DecidableEq

/-- `ptz_msg_ai_ctrl_t`. `param` is an address, 0 for `NULL`. -/
structure PtzMsgAiCtrl where
  photoelectricityNo : UInt32
  sysTimesmap : UInt64
  configCmd : UInt32
  paramLen : UInt32
  param : UInt64
  deriving Repr, DecidableEq

/-- `sizeof(ptz_msg_peripheral_ctrl_t)`. -/
def ptzMsgPeripheralCtrlSize : Nat := 24

/-- `sizeof(ptz_msg_ai_ctrl_t)`, with a pointer of eight bytes. -/
def ptzMsgAiCtrlSize : Nat := 28

/-- `sizeof(actrl->param)`. -/
def ptzMsgAiCtrlParamSize : Nat := 8

/-- The record in memory. It is packed. -/
def PtzMsgPeripheralCtrl.bytes (pctrl : PtzMsgPeripheralCtrl) : List UInt8 :=
  wordBytes pctrl.photoelectricityNo ++ littleBytes 8 pctrl.sysTimesmap.toNat ++
    wordBytes pctrl.ctrlCmd ++
    wordBytes pctrl.ctrlParam ++ wordBytes pctrl.reserver

/-- The two fields every command sets itself. -/
def PtzMsgPeripheralCtrl.stamped (tv : Timeval) (pctrl : PtzMsgPeripheralCtrl) :
    PtzMsgPeripheralCtrl :=
  { pctrl with photoelectricityNo := ptzPhotoelectricityNo,
               sysTimesmap := UInt64.ofNat tv.timesmap }

def PtzMsgAiCtrl.stamped (tv : Timeval) (actrl : PtzMsgAiCtrl) : PtzMsgAiCtrl :=
  { actrl with photoelectricityNo := ptzPhotoelectricityNo,
               sysTimesmap := UInt64.ofNat tv.timesmap }

/-- The fields in front of the parameter's length. -/
def PtzMsgAiCtrl.front (actrl : PtzMsgAiCtrl) : List UInt8 :=
  wordBytes actrl.photoelectricityNo ++ littleBytes 8 actrl.sysTimesmap.toNat ++
    wordBytes actrl.configCmd

def PtzMsgAiCtrl.bytes (actrl : PtzMsgAiCtrl) : List UInt8 :=
  actrl.front ++ wordBytes actrl.paramLen ++ littleBytes 8 actrl.param.toNat

/-- The parameter in memory. -/
def PtzMsgAiCtrl.paramBytes (mem : Ptr UInt8) (actrl : PtzMsgAiCtrl) : List UInt8 :=
  (mem.advance actrl.param.toNat).read actrl.paramLen.toNat

/-! ## Sending -/

/-- The bytes of a message that are sent, its length taken as an `uint32_t`. -/
def PtzProtocolMsg.body (msginfo : PtzProtocolMsg) : Option (List UInt8) :=
  slice (msginfo.msg.getD []) (0 : Nat) (unsigned 32 msginfo.msglen)

/-- The value returned and the package. There is no result when something is
    written behind `pac`. -/
def sendPtzPackage (tv : Timeval) (msginfo : PtzProtocolMsg) : Option (Int × List UInt8) := do
  let pac := List.replicate ptzPackageMaxLen 0
  let msg ← msginfo.body
  let (retlen, pac) ← ptzProtocolPackage tv msginfo.command msg pac
  let sent ← slice pac (0 : Nat) retlen
  return (0, sent)

/-- How a command ends: the value returned, the caller's record, what
    `send_ptz_package` was given and what it sent. -/
structure PtzCommandDone (ρ : Type) where
  ret : Int
  record : Option ρ
  msginfo : Option PtzProtocolMsg
  sent : Option (List UInt8)
  deriving DecidableEq

/-- The `return -1` of a command. -/
def ptzCommandRefused {ρ : Type} (record : Option ρ) : PtzCommandDone ρ where
  ret := -1
  record := record
  msginfo := none
  sent := none

/-- A command from where `msginfo` is filled in. -/
def ptzCommandSend {ρ : Type} (tv : Timeval) (record : ρ) (msginfo : PtzProtocolMsg) :
    Option (PtzCommandDone ρ) :=
  (sendPtzPackage tv msginfo).map fun (ret, sent) =>
    { ret, record := some record, msginfo := some msginfo, sent := some sent }

/-- The size of `dat` in the commands whose records have a fixed size. -/
def ptzDatSize : Nat := 128

/-- A command of fixed size, behind the fields it sets. `bytes` is the record in
    memory. -/
def sendPtzRecord {ρ : Type} (tvPac : Timeval) (command : UInt32) (bytes : ρ → List UInt8)
    (record : Option ρ) :
    Option (PtzCommandDone ρ) :=
  match record with
  | none => some (ptzCommandRefused none)
  | some record => do
      let dat ← write (List.replicate ptzDatSize 0) 0 (bytes record)
      ptzCommandSend tvPac record { command, msglen := (bytes record).length, msg := some dat }

/-- `tv` is the time the command asks for, `tvPac` the one the package gets. -/
def sendPtzPeripheralCtrl (tv tvPac : Timeval) (pctrl : Option PtzMsgPeripheralCtrl) :
    Option (PtzCommandDone PtzMsgPeripheralCtrl) :=
  sendPtzRecord tvPac ptzCommandPeripheralCtrl PtzMsgPeripheralCtrl.bytes (pctrl.map (·.stamped tv))

/-- `dat` of the AI command. What is copied of the record is as long as another
    record is. -/
def ptzAiCtrlDat (mem : Ptr UInt8) (actrl : PtzMsgAiCtrl) : Option (List UInt8) := do
  let dat := List.replicate (ptzMsgAiCtrlSize + actrl.paramLen.toNat) 0
  let dat ← write dat 0 (actrl.bytes.take ptzMsgPeripheralCtrlSize)
  write dat (ptzMsgPeripheralCtrlSize - ptzMsgAiCtrlParamSize) (actrl.paramBytes mem)

/-- `allocated` says whether there is memory for `dat`. -/
def sendPtzAiCtrl (tv tvPac : Timeval) (allocated : Bool) (mem : Ptr UInt8)
    (actrl : Option PtzMsgAiCtrl) :
    Option (PtzCommandDone PtzMsgAiCtrl) :=
  match actrl with
  | none => some (ptzCommandRefused none)
  | some actrl =>
      if actrl.paramLen > 0 ∧ actrl.param = 0 then some (ptzCommandRefused (some actrl))
      else do
        let actrl := actrl.stamped tv
        if allocated then
          let dat ← ptzAiCtrlDat mem actrl
          ptzCommandSend tvPac actrl
            { command := ptzCommandAiCtrl
              msglen :=
                signed 32 (ptzMsgPeripheralCtrlSize - ptzMsgAiCtrlParamSize + actrl.paramLen.toNat)
              msg := some dat }
        else some (ptzCommandRefused (some actrl))

/-! ## Handing over -/

section Send

variable {ρ : Type} {tv : Timeval} {record : ρ} {msginfo : PtzProtocolMsg} {body : List UInt8}

theorem sendPtzPackage_eq (tv : Timeval) (handed : msginfo.body = some body) :
    sendPtzPackage tv msginfo =
      if body.length + 36 ≤ ptzPackageMaxLen then some (0, ptzPackageBytes tv msginfo.command body)
      else none := by
  have room : (List.replicate ptzPackageMaxLen (0 : UInt8)).length = ptzPackageMaxLen :=
    List.length_replicate
  have total := length_ptzPackageBytes tv msginfo.command body
  simp only [sendPtzPackage, handed, Option.bind_eq_bind, Option.bind_some]
  generalize List.replicate ptzPackageMaxLen (0 : UInt8) = pac at room
  split
  · rename_i fits
    have inside : 0 + (body.length + 36) ≤
        (overlay pac (ptzPackageBytes tv msginfo.command body)).length := by
      rw [length_overlay (by omega), room, Nat.zero_add]
      exact fits
    rw [ptzProtocolPackage_eq tv msginfo.command body pac (fits.trans_eq room.symm),
      Option.bind_some, slice_inside inside, List.drop_zero, ← total, take_overlay]
    rfl
  · rename_i outside
    have refused : ¬(ptzProtocolPackage tv msginfo.command body pac).isSome := by
      rw [ptzProtocolPackage_isSome_iff, room]
      exact outside
    rw [Option.not_isSome_iff_eq_none.mp refused, Option.bind_none]

theorem ptzCommandSend_eq (tv : Timeval) (record : ρ) (handed : msginfo.body = some body) :
    ptzCommandSend tv record msginfo =
      if body.length + 36 ≤ ptzPackageMaxLen then
        some { ret := 0, record := some record, msginfo := some msginfo,
               sent := some (ptzPackageBytes tv msginfo.command body) }
      else none := by
  rw [ptzCommandSend, sendPtzPackage_eq tv handed]
  split <;> rfl

end Send

/-- Either nothing is handed over and an error is returned, or what is handed
    over is the body that belongs to the record. In both cases nothing has been
    written outside an object. -/
def PtzEncoded {ρ : Type} (body : ρ → List UInt8) (result : Option (PtzCommandDone ρ)) : Prop :=
  ∃ done, result = some done ∧
    ((done.ret ≠ 0 ∧ done.msginfo = none ∧ done.sent = none) ∨
      ∃ record msginfo, done.record = some record ∧ done.msginfo = some msginfo ∧
      msginfo.body = some (body record))

theorem ptzEncoded_refused {ρ : Type} (body : ρ → List UInt8) (record : Option ρ) :
    PtzEncoded body (some (ptzCommandRefused record)) :=
  ⟨_, rfl, .inl ⟨Int.noConfusion, rfl, rfl⟩⟩

theorem PtzMsgPeripheralCtrl.length_bytes (pctrl : PtzMsgPeripheralCtrl) :
    pctrl.bytes.length = ptzMsgPeripheralCtrlSize := by
  simp only [bytes, List.length_append, length_wordBytes, length_littleBytes]
  rfl

theorem sendPtzRecord_encoded {ρ : Type} (tvPac : Timeval) (command : UInt32)
    {bytes : ρ → List UInt8}
    (fits : ∀ record, (bytes record).length ≤ ptzDatSize) (record : Option ρ) :
    PtzEncoded bytes (sendPtzRecord tvPac command bytes record) := by
  cases record with
  | none => exact ptzEncoded_refused bytes none
  | some record =>
      have size := fits record
      have room : (List.replicate ptzDatSize (0 : UInt8)).length = ptzDatSize :=
        List.length_replicate
      have short : ptzDatSize + 36 ≤ ptzPackageMaxLen := by decide
      have bound : ptzDatSize < 2 ^ 32 := by decide
      simp only [sendPtzRecord]
      generalize List.replicate ptzDatSize (0 : UInt8) = dat at room
      have handed : PtzProtocolMsg.body
          { command, msglen := (bytes record).length, msg := some (overlay dat (bytes record)) } =
            some (bytes record) := by
        have counted : unsigned 32 (bytes record).length = (bytes record).length := by
          simp only [unsigned]
          omega
        have inside : 0 + (bytes record).length ≤ (overlay dat (bytes record)).length := by
          rw [length_overlay (by omega)]
          omega
        rw [PtzProtocolMsg.body, counted, Option.getD_some, slice_inside inside, List.drop_zero,
          take_overlay]
      rw [write_front (by omega), Option.bind_eq_bind, Option.bind_some,
        ptzCommandSend_eq tvPac record handed, if_pos (by omega)]
      exact ⟨_, rfl, .inr ⟨_, _, rfl, rfl, handed⟩⟩

theorem sendPtzPeripheralCtrl_encoded (tv tvPac : Timeval) (pctrl : Option PtzMsgPeripheralCtrl) :
    PtzEncoded PtzMsgPeripheralCtrl.bytes (sendPtzPeripheralCtrl tv tvPac pctrl) :=
  sendPtzRecord_encoded tvPac ptzCommandPeripheralCtrl (fun record => record.length_bytes.trans_le
    (by decide)) _

/-! ## The AI command -/

/-- What the command has to say: the fields, and then exactly the parameter. -/
def PtzMsgAiCtrl.message (mem : Ptr UInt8) (actrl : PtzMsgAiCtrl) : List UInt8 :=
  actrl.front ++ wordBytes actrl.paramLen ++ actrl.paramBytes mem

/-- The calls that return before anything is handed over. -/
def PtzAiCtrlRefused (allocated : Bool) : Option PtzMsgAiCtrl → Prop
  | none => True
  | some actrl => (actrl.paramLen > 0 ∧ actrl.param = 0) ∨ allocated = false

section AiCtrl

variable (tv tvPac : Timeval) (mem : Ptr UInt8) (actrl : PtzMsgAiCtrl)

theorem PtzMsgAiCtrl.length_front : actrl.front.length = 16 := by
  simp only [front, List.length_append, length_wordBytes, length_littleBytes]

theorem PtzMsgAiCtrl.length_paramBytes : (actrl.paramBytes mem).length = actrl.paramLen.toNat :=
  Ptr.length_read _ _

theorem PtzMsgAiCtrl.length_message : (actrl.message mem).length = 20 + actrl.paramLen.toNat := by
  rw [message, List.length_append, List.length_append, length_wordBytes, length_front,
    length_paramBytes]

/-- The first copy ends in the middle of the pointer, the second one begins
    where the length of the parameter is. -/
theorem ptzAiCtrlDat_eq :
    ∃ rest, ptzAiCtrlDat mem actrl = some (actrl.front ++ actrl.paramBytes mem ++ rest) ∧
      rest.length = 12 := by
  have front := actrl.length_front
  have param := actrl.length_paramBytes mem
  have room : (List.replicate (ptzMsgAiCtrlSize + actrl.paramLen.toNat) (0 : UInt8)).length =
      28 + actrl.paramLen.toNat := List.length_replicate
  simp only [ptzAiCtrlDat]
  generalize List.replicate (ptzMsgAiCtrlSize + actrl.paramLen.toNat) (0 : UInt8) = dat at room
  obtain ⟨behind, copied, eight⟩ :
    ∃ behind, actrl.bytes.take ptzMsgPeripheralCtrlSize = actrl.front ++ behind ∧
      behind.length = 8 := by
    refine ⟨(wordBytes actrl.paramLen ++ littleBytes 8 actrl.param.toNat).take 8, ?_, ?_⟩
    · rw [PtzMsgAiCtrl.bytes, List.append_assoc, ptzMsgPeripheralCtrlSize, List.take_append, front,
        List.take_of_length_le (by omega)]
    · rw [List.length_take, List.length_append, length_wordBytes, length_littleBytes]
      rfl
  have first : (actrl.front ++ behind).length = 24 := by
    rw [List.length_append, front, eight]
  have length : (overlay dat (actrl.front ++ behind)).length = 28 + actrl.paramLen.toNat := by
    rw [length_overlay (by omega), room]
  have start : (overlay dat (actrl.front ++ behind)).take 16 = actrl.front := by
    rw [overlay, List.append_assoc, ← front, List.take_left]
  have place : ptzMsgPeripheralCtrlSize - ptzMsgAiCtrlParamSize = 16 := rfl
  rw [copied, write_front (by omega), Option.bind_eq_bind, Option.bind_some, place, write,
    if_pos (by omega), start]
  refine ⟨_, rfl, ?_⟩
  rw [List.length_drop, length]
  omega

theorem sendPtzAiCtrl_eq (valid : ¬ (actrl.paramLen > 0 ∧ actrl.param = 0)) :
    ∃ msginfo, msginfo.body =
        some ((actrl.stamped tv).front ++
          actrl.paramBytes mem |>.take (wrap 32 (16 + actrl.paramLen.toNat))) ∧
      sendPtzAiCtrl tv tvPac true mem (some actrl) =
      ptzCommandSend tvPac (actrl.stamped tv) msginfo := by
  obtain ⟨rest, dat, twelve⟩ := ptzAiCtrlDat_eq mem (actrl.stamped tv)
  have front := (actrl.stamped tv).length_front
  have param := (actrl.stamped tv).length_paramBytes mem
  have same : (actrl.stamped tv).paramBytes mem = actrl.paramBytes mem := rfl
  have msglen :
    ptzMsgPeripheralCtrlSize - ptzMsgAiCtrlParamSize + (actrl.stamped tv).paramLen.toNat =
      16 + actrl.paramLen.toNat := rfl
  have cut : wrap 32 (16 + actrl.paramLen.toNat) ≤ 16 + actrl.paramLen.toNat := Nat.mod_le _ _
  have counted : ((actrl.stamped tv).front ++ actrl.paramBytes mem).length =
      16 + actrl.paramLen.toNat := by
    rw [List.length_append, front, ← same, param]
    rfl
  refine ⟨_, ?_, by
    simp only [sendPtzAiCtrl, valid, if_false, if_true, dat, Option.bind_eq_bind, Option.bind_some]
    rfl⟩
  rw [PtzProtocolMsg.body, unsigned_signed, msglen, slice_inside]
  · rw [List.drop_zero, Option.getD_some, same, List.take_append_of_le_length (by omega)]
  · rw [Option.getD_some, same, List.length_append]
    omega

/-- The body is too short by the length that is not in it. -/
theorem sendPtzAiCtrl_not_encoded (valid : ¬ (actrl.paramLen > 0 ∧ actrl.param = 0)) :
    ¬ PtzEncoded (PtzMsgAiCtrl.message mem) (sendPtzAiCtrl tv tvPac true mem (some actrl)) := by
  obtain ⟨msginfo, handed, sent⟩ := sendPtzAiCtrl_eq tv tvPac mem actrl valid
  rw [sent, ptzCommandSend_eq tvPac _ handed]
  rintro ⟨done, result, how⟩
  split at result
  · obtain rfl := Option.some.inj result
    rcases how with ⟨error, -, -⟩ | ⟨record, msginfo', ⟨rfl⟩, ⟨rfl⟩, body⟩
    · exact error rfl
    · have lengths := congrArg List.length (Option.some.inj (body.symm.trans handed))
      have cut := List.length_take_le (wrap 32 (16 + actrl.paramLen.toNat))
        ((actrl.stamped tv).front ++ actrl.paramBytes mem)
      have wrapped : wrap 32 (16 + actrl.paramLen.toNat) ≤ 16 + actrl.paramLen.toNat :=
        Nat.mod_le _ _
      have whole : ((actrl.stamped tv).message mem).length = 20 + actrl.paramLen.toNat :=
        (actrl.stamped tv).length_message mem
      omega
  · cases result

/-- Nothing is written behind the package buffer as long as the parameter, or
    what is left of its length in 32 bits, is short enough. -/
theorem sendPtzAiCtrl_inside_iff (valid : ¬ (actrl.paramLen > 0 ∧ actrl.param = 0)) :
    (sendPtzAiCtrl tv tvPac true mem (some actrl)).isSome ↔
      wrap 32 (16 + actrl.paramLen.toNat) + 36 ≤ ptzPackageMaxLen := by
  obtain ⟨msginfo, handed, sent⟩ := sendPtzAiCtrl_eq tv tvPac mem actrl valid
  have wrapped : wrap 32 (16 + actrl.paramLen.toNat) ≤ 16 + actrl.paramLen.toNat := Nat.mod_le _ _
  have counted : ((actrl.stamped tv).front ++ actrl.paramBytes mem).length =
      16 + actrl.paramLen.toNat := by
    rw [List.length_append, (actrl.stamped tv).length_front, actrl.length_paramBytes]
  rw [sent, ptzCommandSend_eq tvPac _ handed,
    List.length_take_of_le (wrapped.trans_eq counted.symm)]
  split
  · rename_i fits
    exact iff_of_true rfl fits
  · rename_i outside
    exact iff_of_false Bool.noConfusion outside

end AiCtrl

/-- The AI command says what it has to when it is refused, and never else. -/
theorem sendPtzAiCtrl_encoded_iff (tv tvPac : Timeval) (allocated : Bool) (mem : Ptr UInt8)
    (actrl : Option PtzMsgAiCtrl) :
    PtzEncoded (PtzMsgAiCtrl.message mem) (sendPtzAiCtrl tv tvPac allocated mem actrl) ↔
      PtzAiCtrlRefused allocated actrl := by
  cases actrl with
  | none => exact iff_of_true (ptzEncoded_refused _ none) trivial
  | some actrl =>
      by_cases invalid : actrl.paramLen > 0 ∧ actrl.param = 0
      · rw [sendPtzAiCtrl, if_pos invalid]
        exact iff_of_true (ptzEncoded_refused _ _) (.inl invalid)
      · cases allocated with
        | true =>
            refine iff_of_false (sendPtzAiCtrl_not_encoded tv tvPac mem actrl invalid) ?_
            rintro (refused | unallocated)
            · exact invalid refused
            · cases unallocated
        | false =>
            rw [sendPtzAiCtrl, if_neg invalid]
            exact iff_of_true (ptzEncoded_refused _ _) (.inr rfl)

/-- A parameter of three bytes is sent without its length. -/
theorem sendPtzAiCtrl_loses_length :
    let mem := Ptr.store (fun _ => 0) 4096 [0x61, 0x62, 0x63]
    ¬ PtzEncoded (PtzMsgAiCtrl.message mem)
      (sendPtzAiCtrl ⟨1700000000, 0⟩ ⟨1700000000, 5⟩ true mem (some ⟨0, 0, 1, 3, 4096⟩)) :=
  sendPtzAiCtrl_not_encoded _ _ _ _ (by decide)

end PtzAgx.EthLink
