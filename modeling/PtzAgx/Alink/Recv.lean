import PtzAgx.Alink.Check

/-! # The alink receiver

`analysis/alink_recv.c` and the part of `analysis/alink_socket.c` that owns a
receiver. The receiver is a three state machine over a memory: its state keeps
an address (`pbyBuffer`) and two counters, never a byte, so what a check sees is
what memory holds at that address when the check runs. All functions here
therefore take the memory of the moment as an argument.

`wBufferSize` is stored by `alink_recv_init` and read by nothing, and is left
out.
-/

namespace PtzAgx.Alink

open Bytes Words

/-- The two command tables a receiver can be connected to. -/
inductive AlinkOrderRef where
  /-- `sOrder`, for the C2. -/
  | sOrder
  /-- `sOrder_server`, for radar devices. -/
  | sOrderServer
  deriving Repr, DecidableEq

/-- The function `pu_state` points to. -/
inductive RecvState where
  | checkMagic
  | checkHead
  | checkCrc
  deriving Repr, DecidableEq

/-- `alink_recv_t`. `sRecvCbk` is `none` while `pe_cbk` is `NULL`. -/
structure AlinkRecv where
  wPkgSize : Nat
  wCount : Nat
  sRecvCbk : Option AlinkOrderRef
  pbyBuffer : Nat
  puState : RecvState
  deriving Repr, DecidableEq

/-- `alink_recv_import_t`. `peSend` says whether `pe_send` is set. -/
structure AlinkRecvImport where
  ePortId : UInt8
  pbyData : Nat
  uLength : Nat
  handle : Nat
  peSend : Bool
  deriving Repr, DecidableEq

/-- `alink_order_import_t`. -/
structure AlinkOrderImport where
  ePortId : UInt8
  pbyMsg : Nat
  handle : Nat
  peSend : Bool
  deriving Repr, DecidableEq

/-- One call of the order callback, with the bytes its message pointer leads to
    at that moment. -/
structure Dispatch where
  psHandle : AlinkOrderRef
  psImport : AlinkOrderImport
  msg : List UInt8
  deriving Repr, DecidableEq

def alinkRecvStateCheckMagic (mem : Ptr UInt8) (psRecv : AlinkRecv) (psImport : AlinkRecvImport) :
    Nat × AlinkRecv × List Dispatch :=
  match ((mem.advance psImport.pbyData).read psImport.uLength).findIdx? alinkCheckMagic with
  | some uIndex =>
      (uIndex + 1,
        { psRecv with pbyBuffer := psImport.pbyData + uIndex, wCount := 1, puState := .checkHead },
        [])
  | none => (psImport.uLength, psRecv, [])

/-- `sizeof` is a 64 bit value, so the first comparison is one of 64 bits. -/
def alinkRecvStateCheckHead (mem : Ptr UInt8) (psRecv : AlinkRecv) (psImport : AlinkRecvImport) :
    Nat × AlinkRecv × List Dispatch :=
  if wrapSub 64 alinkMsgHeadSize psRecv.wCount > psImport.uLength then
    (psImport.uLength, { psRecv with wCount := wrap 32 (psRecv.wCount + psImport.uLength) }, [])
  else
    let uIndex := wrap 32 (wrapSub 64 alinkMsgHeadSize psRecv.wCount)
    let psRecv := { psRecv with wCount := wrap 32 (psRecv.wCount + uIndex) }
    let psHeader := mem.advance psRecv.pbyBuffer
    if alinkCheckHeaderChecksum psHeader then
      (uIndex, { psRecv with wPkgSize := alinkGetPackageSize psHeader, puState := .checkCrc }, [])
    else
      (uIndex, { psRecv with puState := .checkMagic }, [])

def alinkRecvStateCheckCrc (mem : Ptr UInt8) (psRecv : AlinkRecv) (psImport : AlinkRecvImport) :
    Nat × AlinkRecv × List Dispatch :=
  let uLen := psImport.uLength
  if psRecv.wPkgSize > wrap 32 (psRecv.wCount + uLen) then
    (uLen, { psRecv with wCount := wrap 32 (psRecv.wCount + uLen) }, [])
  else
    let uIndex := wrapSub 32 psRecv.wPkgSize psRecv.wCount
    let psRecv := { psRecv with wCount := wrap 32 (psRecv.wCount + uIndex) }
    let pbyMsg := mem.advance psRecv.pbyBuffer
    let sent :=
      if alinkCheckCrc pbyMsg psRecv.wCount then
        match psRecv.sRecvCbk with
        | some psHandle =>
            [{ psHandle
               psImport :=
                { ePortId := psImport.ePortId, pbyMsg := psRecv.pbyBuffer,
                  handle := psImport.handle,
                  peSend := psImport.peSend }
               msg := pbyMsg.read psRecv.wCount }]
        | none => []
      else []
    (uIndex, { psRecv with puState := .checkMagic }, sent)

/-- The call `psRecv->pu_state( psRecv, &sImport )`: bytes consumed, new state
    and the order callbacks made. -/
def AlinkRecv.puStateCall (mem : Ptr UInt8) (psRecv : AlinkRecv) (psImport : AlinkRecvImport) :
    Nat × AlinkRecv × List Dispatch :=
  match psRecv.puState with
  | .checkMagic => alinkRecvStateCheckMagic mem psRecv psImport
  | .checkHead => alinkRecvStateCheckHead mem psRecv psImport
  | .checkCrc => alinkRecvStateCheckCrc mem psRecv psImport

/-- The import behind its first `uIndex` bytes. -/
def AlinkRecvImport.advance (sImport : AlinkRecvImport) (uIndex : Nat) : AlinkRecvImport :=
  { sImport with pbyData := sImport.pbyData + uIndex, uLength := wrapSub 32 sImport.uLength uIndex }

/-- The loop of `alink_recv_task`, given up after `fuel` state calls. -/
def alinkRecvLoop (mem : Ptr UInt8) :
    Nat → AlinkRecv → AlinkRecvImport → Option (AlinkRecv × List Dispatch)
  | 0, psRecv, sImport => if sImport.uLength = 0 then some (psRecv, []) else none
  | fuel + 1, psRecv, sImport =>
      if sImport.uLength = 0 then some (psRecv, [])
      else
        let call := psRecv.puStateCall mem sImport
        (alinkRecvLoop mem fuel call.2.1 (sImport.advance call.1)).map
          fun after => (after.1, call.2.2 ++ after.2)

/-- Every state call is meant to consume a byte, so the loop gets as many calls
    as the import has bytes. `none` is a loop still running after them. -/
def alinkRecvTask (mem : Ptr UInt8) (psRecv : AlinkRecv) (psImport : AlinkRecvImport) :
    Option (AlinkRecv × List Dispatch) :=
  alinkRecvLoop mem psImport.uLength psRecv psImport

def alinkRecvInit (psRecv : AlinkRecv) (pbyBuffer : Nat) : AlinkRecv :=
  { psRecv with pbyBuffer := pbyBuffer, sRecvCbk := none, puState := .checkMagic }

def alinkRecvRegisterCbk (psRecv : AlinkRecv) (psHandle : AlinkOrderRef) : AlinkRecv :=
  { psRecv with sRecvCbk := some psHandle }

def alinkPackageValidLength (pr : Ptr UInt8) (recvlen : Nat) : Nat :=
  match (pr.read recvlen).findIdx? alinkCheckMagic with
  | some uIndex => alinkGetPackageSize (pr.advance uIndex)
  | none => 0

def alinkGetPackageHeadIndex (pr : Ptr UInt8) (recvlen : Nat) : Nat :=
  match (pr.read recvlen).findIdx? alinkCheckMagic with
  | some uIndex => uIndex
  | none => recvlen

/-- `alink_socket_t`. -/
structure AlinkSocket where
  sRecv : AlinkRecv
  sImport : AlinkRecvImport
  abyBuffer : Nat
  psOrder : Option AlinkOrderRef
  deriving Repr, DecidableEq

def alinkSocketInit (psSocket : AlinkSocket) (psOrder : AlinkOrderRef) : AlinkSocket :=
  { psSocket with
    sRecv := alinkRecvRegisterCbk (alinkRecvInit psSocket.sRecv psSocket.abyBuffer) psOrder
    psOrder := some psOrder }

def alinkSocketTask (mem : Ptr UInt8) (psSocket : AlinkSocket) (psImport : AlinkRecvImport) :
    Option (AlinkSocket × List Dispatch) :=
  (alinkRecvTask mem psSocket.sRecv psImport).map
    fun after => ({ psSocket with sRecv := after.1, sImport := psImport }, after.2)

/-! ## Single calls -/

section Calls

variable {mem : Ptr UInt8} {psRecv : AlinkRecv} {sImport : AlinkRecvImport}

theorem alinkRecvLoop_done (fuel : Nat) (empty : sImport.uLength = 0) :
    alinkRecvLoop mem fuel psRecv sImport = some (psRecv, []) := by
  cases fuel <;> simp [alinkRecvLoop, empty]

theorem alinkRecvLoop_call {fuel uIndex : Nat} {psRecv' : AlinkRecv} {sent : List Dispatch}
    (more : sImport.uLength ≠ 0) (call : psRecv.puStateCall mem sImport = (uIndex, psRecv', sent)) :
    alinkRecvLoop mem (fuel + 1) psRecv sImport =
      (alinkRecvLoop mem fuel psRecv' (sImport.advance uIndex)).map
        fun after => (after.1, sent ++ after.2) := by
  simp [alinkRecvLoop, more, call]

theorem alinkPackageValidLength_start {recvlen : Nat} (start : alinkCheckMagic (mem 0) = true)
    (some : 0 < recvlen) :
    alinkPackageValidLength mem recvlen = alinkGetPackageSize mem ∧
      alinkGetPackageHeadIndex mem recvlen = 0 := by
  obtain ⟨recvlen, rfl⟩ := Nat.exists_eq_succ_of_ne_zero (Nat.ne_of_gt some)
  simp only [alinkPackageValidLength, alinkGetPackageHeadIndex, Ptr.read_succ, List.findIdx?_cons,
    start, if_true, Ptr.advance_zero, and_self]

variable (mem)

theorem puStateCall_magic (state : psRecv.puState = .checkMagic) :
    psRecv.puStateCall mem sImport = alinkRecvStateCheckMagic mem psRecv sImport := by
  simp only [AlinkRecv.puStateCall, state]

theorem puStateCall_head (state : psRecv.puState = .checkHead) :
    psRecv.puStateCall mem sImport = alinkRecvStateCheckHead mem psRecv sImport := by
  simp only [AlinkRecv.puStateCall, state]

theorem puStateCall_crc (state : psRecv.puState = .checkCrc) :
    psRecv.puStateCall mem sImport = alinkRecvStateCheckCrc mem psRecv sImport := by
  simp only [AlinkRecv.puStateCall, state]

theorem checkMagic_found {uIndex : Nat}
    (found : ((mem.advance sImport.pbyData).read sImport.uLength).findIdx? alinkCheckMagic =
      some uIndex) :
    alinkRecvStateCheckMagic mem psRecv sImport =
      (uIndex + 1,
        { psRecv with pbyBuffer := sImport.pbyData + uIndex, wCount := 1, puState := .checkHead },
        []) := by
  simp only [alinkRecvStateCheckMagic, found]

theorem checkMagic_none
    (absent : ((mem.advance sImport.pbyData).read sImport.uLength).findIdx? alinkCheckMagic =
      none) :
    alinkRecvStateCheckMagic mem psRecv sImport = (sImport.uLength, psRecv, []) := by
  simp only [alinkRecvStateCheckMagic, absent]

theorem checkHead_short (few : psRecv.wCount + sImport.uLength < alinkMsgHeadSize) :
    alinkRecvStateCheckHead mem psRecv sImport =
      (sImport.uLength, { psRecv with wCount := psRecv.wCount + sImport.uLength }, []) := by
  simp only [alinkMsgHeadSize] at few
  have missing : wrapSub 64 9 psRecv.wCount = 9 - psRecv.wCount :=
    wrapSub_of_le (by omega) (by decide)
  have exact : wrap 32 (psRecv.wCount + sImport.uLength) = psRecv.wCount + sImport.uLength :=
    wrap_of_lt (by omega)
  have less : 9 - psRecv.wCount > sImport.uLength := by omega
  simp only [alinkRecvStateCheckHead, alinkMsgHeadSize, missing, exact, less, if_true]

theorem checkHead_whole (started : psRecv.wCount ≤ alinkMsgHeadSize)
    (enough : alinkMsgHeadSize ≤ psRecv.wCount + sImport.uLength) :
    alinkRecvStateCheckHead mem psRecv sImport =
      (alinkMsgHeadSize - psRecv.wCount,
        if alinkCheckHeaderChecksum (mem.advance psRecv.pbyBuffer) then
          { psRecv with
              wCount := alinkMsgHeadSize
              wPkgSize := alinkGetPackageSize (mem.advance psRecv.pbyBuffer)
              puState := .checkCrc }
        else { psRecv with wCount := alinkMsgHeadSize, puState := .checkMagic },
        []) := by
  simp only [alinkMsgHeadSize] at started enough
  have missing : wrapSub 64 9 psRecv.wCount = 9 - psRecv.wCount := wrapSub_of_le started (by decide)
  have small : wrap 32 (9 - psRecv.wCount) = 9 - psRecv.wCount := wrap_of_lt (by omega)
  have total : psRecv.wCount + (9 - psRecv.wCount) = 9 := by omega
  have nine : wrap 32 9 = 9 := rfl
  have reached : ¬ 9 - psRecv.wCount > sImport.uLength := by omega
  simp only [alinkRecvStateCheckHead, alinkMsgHeadSize, missing, small, total, nine,
    reached, if_false]
  split <;> rfl

theorem checkCrc_short (few : psRecv.wCount + sImport.uLength < psRecv.wPkgSize)
    (bounded : psRecv.wPkgSize < 2 ^ 32) :
    alinkRecvStateCheckCrc mem psRecv sImport =
      (sImport.uLength, { psRecv with wCount := psRecv.wCount + sImport.uLength }, []) := by
  have exact : wrap 32 (psRecv.wCount + sImport.uLength) = psRecv.wCount + sImport.uLength :=
    wrap_of_lt (by omega)
  simp only [alinkRecvStateCheckCrc, exact, few, if_true]

/-- What the order callback is given for a package at `pbyBuffer`. -/
def dispatchOf (mem : Ptr UInt8) (psHandle : AlinkOrderRef) (sImport : AlinkRecvImport)
    (pbyBuffer wCount : Nat) : Dispatch :=
  { psHandle
    psImport :=
      { ePortId := sImport.ePortId, pbyMsg := pbyBuffer, handle := sImport.handle,
        peSend := sImport.peSend }
    msg := (mem.advance pbyBuffer).read wCount }

theorem checkCrc_whole {psHandle : AlinkOrderRef} (registered : psRecv.sRecvCbk = some psHandle)
    (started : psRecv.wCount ≤ psRecv.wPkgSize)
    (enough : psRecv.wPkgSize ≤ psRecv.wCount + sImport.uLength)
    (bounded : psRecv.wCount + sImport.uLength < 2 ^ 32) :
    alinkRecvStateCheckCrc mem psRecv sImport =
      (psRecv.wPkgSize - psRecv.wCount,
        { psRecv with wCount := psRecv.wPkgSize, puState := .checkMagic },
        if alinkCheckCrc (mem.advance psRecv.pbyBuffer) psRecv.wPkgSize then
          [dispatchOf mem psHandle sImport psRecv.pbyBuffer psRecv.wPkgSize]
        else []) := by
  have exact : wrap 32 (psRecv.wCount + sImport.uLength) = psRecv.wCount + sImport.uLength :=
    wrap_of_lt bounded
  have missing : wrapSub 32 psRecv.wPkgSize psRecv.wCount = psRecv.wPkgSize - psRecv.wCount :=
    wrapSub_of_le started (by omega)
  have total : psRecv.wCount + (psRecv.wPkgSize - psRecv.wCount) = psRecv.wPkgSize := by omega
  have small : wrap 32 psRecv.wPkgSize = psRecv.wPkgSize := wrap_of_lt (by omega)
  have reached : ¬ psRecv.wPkgSize > psRecv.wCount + sImport.uLength := by omega
  simp only [alinkRecvStateCheckCrc, exact, missing, total, small, reached, registered,
    dispatchOf, if_false]

end Calls

end PtzAgx.Alink
