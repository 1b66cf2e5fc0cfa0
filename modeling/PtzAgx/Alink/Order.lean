import PtzAgx.Alink.Check
import PtzAgx.Alink.Recv

/-! # Dispatching a message to its command

`alink_order_task` of `analysis/alink_order.c`. A command table is the list its
chain holds; how commands get there is not covered here. A handler works on the
payload, on the response and on whatever world `σ` it has access to. Sending the
response is commented out in the source. The mutex is left out.
-/

namespace PtzAgx.Alink

open Bytes Words

/-- `alink_payload_t`. -/
structure AlinkPayload where
  ePortId : UInt8
  eRemoteId : UInt8
  wLength : Nat
  pbyData : Ptr UInt8

/-- `alink_resp_t`; `pe_send` is `alink_order_send`. -/
structure AlinkResp where
  wCount : Nat
  wSize : Nat
  pbyBuffer : Ptr UInt8
  psArg : AlinkOrderImport

variable {σ : Type}

/-- `alink_cmd_list_t` without its link and its `cmd_type`. `pvCmdTask` is `none`
    for `NULL`. -/
structure AlinkCmdList (σ : Type) where
  byCmd : UInt8
  wPayloadLen : Nat
  pvCmdTask : Option (AlinkPayload → AlinkResp → σ → AlinkResp × σ)

/-- `alink_order_t`, with the contents of its buffer. -/
structure AlinkOrder (σ : Type) where
  wBufferSize : Nat
  pbyBuffer : Ptr UInt8
  psCmdList : List (AlinkCmdList σ)

/-- What a handler is given of a message. -/
def alinkPayloadOf (psImport : AlinkOrderImport) (pbyMsg : Ptr UInt8) : AlinkPayload where
  ePortId := psImport.ePortId
  eRemoteId := MsgHead.sourceid pbyMsg
  wLength := ((MsgHead.lenHi pbyMsg).toNat <<< 8) ||| (MsgHead.lenLo pbyMsg).toNat
  pbyData := pbyMsg.advance alinkMsgHeadSize

/-- The response before a handler sees it, in the order's buffer. -/
def alinkRespOf (psOrder : AlinkOrder σ) (psImport : AlinkOrderImport) : AlinkResp where
  wCount := 1
  wSize := wrapSub 32 psOrder.wBufferSize alinkNoPayloadSize
  pbyBuffer := Function.update (psOrder.pbyBuffer.advance alinkMsgHeadSize) 0 0xFF
  psArg := psImport

/-- The first command with the message's id, whether or not it is called. -/
def alinkOrderTask (psOrder : AlinkOrder σ) (psImport : AlinkOrderImport) (pbyMsg : Ptr UInt8)
    (world : σ) :
    AlinkResp × σ :=
  let sResp := alinkRespOf psOrder psImport
  let sPayload := alinkPayloadOf psImport pbyMsg
  match psOrder.psCmdList.find? fun psCmdList => psCmdList.byCmd == MsgHead.msgid pbyMsg with
  | none => (sResp, world)
  | some psCmdList =>
      match psCmdList.pvCmdTask with
      | none => (sResp, world)
      | some pvCmdTask =>
          if psCmdList.wPayloadLen ≤ sPayload.wLength then pvCmdTask sPayload sResp world
            else (sResp, world)

theorem alinkPayloadOf_length (psImport : AlinkOrderImport) (pbyMsg : Ptr UInt8) :
    (alinkPayloadOf psImport pbyMsg).wLength = (alinkGetPayloadSize pbyMsg).toNat := by
  rw [alinkPayloadOf, shiftLeft_or, alinkGetPayloadSize, word16_toNat]

theorem alinkOrderTask_call {psOrder : AlinkOrder σ} {psImport : AlinkOrderImport}
    {pbyMsg : Ptr UInt8}
    {psCmdList : AlinkCmdList σ} {pvCmdTask : AlinkPayload → AlinkResp → σ → AlinkResp × σ}
    (world : σ)
    (registered : psOrder.psCmdList.find? (fun psCmdList => psCmdList.byCmd ==
      MsgHead.msgid pbyMsg) = some psCmdList)
    (handled : psCmdList.pvCmdTask = some pvCmdTask)
    (enough : psCmdList.wPayloadLen ≤ (alinkPayloadOf psImport pbyMsg).wLength) :
    alinkOrderTask psOrder psImport pbyMsg world =
      pvCmdTask (alinkPayloadOf psImport pbyMsg) (alinkRespOf psOrder psImport) world := by
  simp only [alinkOrderTask, registered, handled, enough, if_true]

/-- Either no handler is called, or the one of a command for the message is. -/
theorem alinkOrderTask_cases (psOrder : AlinkOrder σ) (psImport : AlinkOrderImport)
    (pbyMsg : Ptr UInt8) (world : σ) :
    alinkOrderTask psOrder psImport pbyMsg world = (alinkRespOf psOrder psImport, world) ∨
      ∃ psCmdList ∈ psOrder.psCmdList, MsgHead.msgid pbyMsg = psCmdList.byCmd ∧
        psCmdList.wPayloadLen ≤ (alinkPayloadOf psImport pbyMsg).wLength ∧
          ∃ pvCmdTask, psCmdList.pvCmdTask = some pvCmdTask ∧
            alinkOrderTask psOrder psImport pbyMsg world =
              pvCmdTask (alinkPayloadOf psImport pbyMsg) (alinkRespOf psOrder psImport) world := by
  cases found : psOrder.psCmdList.find? fun psCmdList => psCmdList.byCmd == MsgHead.msgid pbyMsg
    with
  | none => exact .inl (by simp only [alinkOrderTask, found])
  | some psCmdList =>
      have same := List.find?_some
        (p := fun psCmdList : AlinkCmdList σ => psCmdList.byCmd == MsgHead.msgid pbyMsg) found
      cases handled : psCmdList.pvCmdTask with
      | none => exact .inl (by simp only [alinkOrderTask, found, handled])
      | some pvCmdTask =>
          by_cases enough : psCmdList.wPayloadLen ≤ (alinkPayloadOf psImport pbyMsg).wLength
          · exact .inr ⟨psCmdList, List.mem_of_find?_eq_some found, (eq_of_beq same).symm, enough,
              pvCmdTask, handled, alinkOrderTask_call world found handled enough⟩
          · exact .inl (by simp only [alinkOrderTask, found, handled, enough, if_false])

end PtzAgx.Alink
