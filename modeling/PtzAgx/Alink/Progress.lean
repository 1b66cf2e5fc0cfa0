import PtzAgx.Alink.Recv

/-! # Progress of the receiver

`alinkRecvTask` lets memory stand still while an import runs. Here it does not:
buffers are freed, reused and overwritten between two state calls, so every call
gets a memory of its own. What survives is an invariant that links the counters
to the state, and with it every call moves on.
-/

namespace PtzAgx.Alink

open Bytes Words

/-- The largest import: the receive buffers of the callers have 1 MiB. -/
def alinkImportMax : Nat := 2 ^ 20

/-- One state call of `alink_recv_task`, with the receiver before and after it,
    the bytes of the import left to it and those it consumed. -/
structure StateCall where
  before : AlinkRecv
  left : Nat
  consumed : Nat
  after : AlinkRecv
  sent : List Dispatch
  deriving Repr, DecidableEq

def StateCall.of (mem : Ptr UInt8) (psRecv : AlinkRecv) (sImport : AlinkRecvImport) : StateCall :=
  let call := psRecv.puStateCall mem sImport
  { before := psRecv, left := sImport.uLength, consumed := call.1,
    after := call.2.1, sent := call.2.2 }

/-- The loop of `alink_recv_task` with the calls it makes, given up after `fuel`
    of them. `mems i` is the memory the call number `i` sees. -/
def alinkRecvCalls :
    (Nat → Ptr UInt8) → Nat → AlinkRecv → AlinkRecvImport → Option (AlinkRecv × List StateCall)
  | _, 0, psRecv, sImport => if sImport.uLength = 0 then some (psRecv, []) else none
  | mems, fuel + 1, psRecv, sImport =>
      if sImport.uLength = 0 then some (psRecv, [])
      else
        let call := StateCall.of (mems 0) psRecv sImport
        (alinkRecvCalls (fun i => mems (i + 1)) fuel call.after (sImport.advance call.consumed)).map
          fun rest => (rest.1, call :: rest.2)

/-- `alink_recv_task`, allowed one state call for each byte of the import. -/
def alinkRecvTaskCalls (mems : Nat → Ptr UInt8) (psRecv : AlinkRecv) (psImport : AlinkRecvImport) :
    Option (AlinkRecv × List StateCall) :=
  alinkRecvCalls mems psImport.uLength psRecv psImport

/-- The receivers that calls after `alink_recv_init` lead to. -/
inductive Reachable : AlinkRecv → Prop where
  | init (psRecv : AlinkRecv) (pbyBuffer : Nat) : Reachable (alinkRecvInit psRecv pbyBuffer)
  | registerCbk {psRecv} (psHandle : AlinkOrderRef) : Reachable psRecv →
      Reachable (alinkRecvRegisterCbk psRecv psHandle)
  | task {psRecv after calls} (mems : Nat → Ptr UInt8) (psImport : AlinkRecvImport) :
      Reachable psRecv →
      psImport.uLength ≤ alinkImportMax →
      alinkRecvTaskCalls mems psRecv psImport = some (after, calls) →
      Reachable after

/-- What holds of a receiver between two state calls. -/
def RecvInvariant (psRecv : AlinkRecv) : Prop :=
  match psRecv.puState with
  | .checkMagic => True
  | .checkHead => 1 ≤ psRecv.wCount ∧ psRecv.wCount ≤ 8
  | .checkCrc => 9 ≤ psRecv.wCount ∧ psRecv.wCount < psRecv.wPkgSize ∧ psRecv.wPkgSize ≤ 65546

instance (psRecv : AlinkRecv) : Decidable (RecvInvariant psRecv) := by
  unfold RecvInvariant
  cases psRecv.puState <;> infer_instance

/-- A call that moves on and keeps the invariant. The last two fields say that
    the differences the states compute are those of the integers. -/
structure StateCall.Sound (call : StateCall) : Prop where
  progress : 1 ≤ call.consumed
  within : call.consumed ≤ call.left
  before : RecvInvariant call.before
  after : RecvInvariant call.after
  head : call.before.puState = .checkHead → call.before.wCount ≤ alinkMsgHeadSize
  crc : call.before.puState = .checkCrc → call.before.wCount ≤ call.before.wPkgSize

section Step

variable {mem : Ptr UInt8} {psRecv : AlinkRecv} {sImport : AlinkRecvImport}

theorem invariant_magic (state : psRecv.puState = .checkMagic) : RecvInvariant psRecv := by
  simp only [RecvInvariant, state]

theorem invariant_head (state : psRecv.puState = .checkHead) :
    RecvInvariant psRecv ↔ 1 ≤ psRecv.wCount ∧ psRecv.wCount ≤ 8 := by
  simp only [RecvInvariant, state]

theorem invariant_crc (state : psRecv.puState = .checkCrc) :
    RecvInvariant psRecv ↔ 9 ≤ psRecv.wCount ∧ psRecv.wCount < psRecv.wPkgSize ∧
      psRecv.wPkgSize ≤ 65546 := by
  simp only [RecvInvariant, state]

/-- What a state call owes to the loop. -/
def Advances (sImport : AlinkRecvImport) (call : Nat × AlinkRecv × List Dispatch) : Prop :=
  1 ≤ call.1 ∧ call.1 ≤ sImport.uLength ∧ RecvInvariant call.2.1

theorem checkMagic_advances (state : psRecv.puState = .checkMagic) (more : sImport.uLength ≠ 0) :
    Advances sImport (alinkRecvStateCheckMagic mem psRecv sImport) := by
  cases found : ((mem.advance sImport.pbyData).read sImport.uLength).findIdx? alinkCheckMagic with
  | none =>
      rw [checkMagic_none mem found]
      exact ⟨Nat.one_le_iff_ne_zero.mpr more, Nat.le_refl _, invariant_magic state⟩
  | some uIndex =>
      have inside : uIndex < sImport.uLength := by
        have bound := (List.findIdx?_eq_some_iff_findIdx_eq.mp found).1
        rwa [Ptr.length_read] at bound
      rw [checkMagic_found mem found]
      exact ⟨Nat.le_add_left 1 uIndex, inside, Nat.le_refl 1, (by decide : 1 ≤ 8)⟩

theorem checkHead_advances (state : psRecv.puState = .checkHead) (holds : RecvInvariant psRecv)
    (more : sImport.uLength ≠ 0) :
    Advances sImport (alinkRecvStateCheckHead mem psRecv sImport) := by
  obtain ⟨started, part⟩ := (invariant_head state).mp holds
  have nine : alinkMsgHeadSize = 9 := rfl
  by_cases few : psRecv.wCount + sImport.uLength < alinkMsgHeadSize
  · rw [checkHead_short mem few]
    refine ⟨Nat.one_le_iff_ne_zero.mpr more, Nat.le_refl _, ?_⟩
    have same := invariant_head
        (show { psRecv with wCount := psRecv.wCount + sImport.uLength }.puState = _ from state)
    exact same.mpr ⟨Nat.le_add_right_of_le started, Nat.le_of_lt_succ few⟩
  · rw [checkHead_whole mem (by omega) (by omega)]
    refine ⟨?_, ?_, ?_⟩
    · show 1 ≤ alinkMsgHeadSize - psRecv.wCount
      omega
    · show alinkMsgHeadSize - psRecv.wCount ≤ sImport.uLength
      omega
    · have bounds := alinkGetPackageSize_bounds (mem.advance psRecv.pbyBuffer)
      cases good : alinkCheckHeaderChecksum (mem.advance psRecv.pbyBuffer) with
      | true => exact ⟨Nat.le_refl 9, Nat.lt_of_lt_of_le (by decide : 9 < 11) bounds.1, bounds.2⟩
      | false => exact invariant_magic rfl

/-- The callback may be missing here: nothing but its call depends on it. -/
theorem checkCrc_advances (state : psRecv.puState = .checkCrc) (holds : RecvInvariant psRecv)
    (more : sImport.uLength ≠ 0) (small : sImport.uLength ≤ alinkImportMax) :
    Advances sImport (alinkRecvStateCheckCrc mem psRecv sImport) := by
  obtain ⟨hasHead, part, bounded⟩ := (invariant_crc state).mp holds
  simp only [alinkImportMax] at small
  by_cases few : psRecv.wCount + sImport.uLength < psRecv.wPkgSize
  · rw [checkCrc_short mem few (by omega)]
    refine ⟨Nat.one_le_iff_ne_zero.mpr more, Nat.le_refl _, ?_⟩
    have same := invariant_crc
        (show { psRecv with wCount := psRecv.wCount + sImport.uLength }.puState = _ from state)
    exact same.mpr ⟨Nat.le_add_right_of_le hasHead, few, bounded⟩
  · have exact : wrap 32 (psRecv.wCount + sImport.uLength) = psRecv.wCount + sImport.uLength :=
      wrap_of_lt (by omega)
    have missing : wrapSub 32 psRecv.wPkgSize psRecv.wCount = psRecv.wPkgSize - psRecv.wCount :=
      wrapSub_of_le (by omega) (by omega)
    simp only [alinkRecvStateCheckCrc, exact, missing, gt_iff_lt, few, if_false]
    exact ⟨by omega, by omega, invariant_magic rfl⟩

theorem puStateCall_advances (mem : Ptr UInt8) (holds : RecvInvariant psRecv)
    (more : sImport.uLength ≠ 0)
    (small : sImport.uLength ≤ alinkImportMax) :
    Advances sImport (psRecv.puStateCall mem sImport) := by
  cases state : psRecv.puState with
  | checkMagic =>
      rw [puStateCall_magic mem state]
      exact checkMagic_advances state more
  | checkHead =>
      rw [puStateCall_head mem state]
      exact checkHead_advances state holds more
  | checkCrc =>
      rw [puStateCall_crc mem state]
      exact checkCrc_advances state holds more small

theorem StateCall.of_sound (holds : RecvInvariant psRecv) (more : sImport.uLength ≠ 0)
    (small : sImport.uLength ≤ alinkImportMax) : (StateCall.of mem psRecv sImport).Sound := by
  obtain ⟨progress, within, after⟩ := puStateCall_advances mem holds more small
  refine ⟨progress, within, holds, after, ?_, ?_⟩
  · intro state
    exact Nat.le_succ_of_le ((invariant_head state).mp holds).2
  · intro state
    exact Nat.le_of_lt ((invariant_crc state).mp holds).2.1

end Step

/-! ## Whole imports -/

theorem alinkRecvCalls_done {mems : Nat → Ptr UInt8} {psRecv : AlinkRecv}
    {sImport : AlinkRecvImport} (fuel : Nat)
    (empty : sImport.uLength = 0) :
    alinkRecvCalls mems fuel psRecv sImport = some (psRecv, []) := by
  cases fuel <;> simp [alinkRecvCalls, empty]

theorem alinkRecvCalls_call (mems : Nat → Ptr UInt8) (fuel : Nat) (psRecv : AlinkRecv)
    {sImport : AlinkRecvImport}
    (more : sImport.uLength ≠ 0) :
    alinkRecvCalls mems (fuel + 1) psRecv sImport =
      (alinkRecvCalls (fun i => mems (i + 1)) fuel (StateCall.of (mems 0) psRecv sImport).after
          (sImport.advance (StateCall.of (mems 0) psRecv sImport).consumed)).map
        fun rest => (rest.1, StateCall.of (mems 0) psRecv sImport :: rest.2) := by
  simp only [alinkRecvCalls, more, if_false]

/-- The fuel never runs out: each call takes at least one byte off the import,
    and the fuel starts with as many calls as there are bytes. -/
theorem alinkRecvCalls_sound {fuel : Nat} (mems : Nat → Ptr UInt8) {psRecv : AlinkRecv}
    {sImport : AlinkRecvImport}
    (holds : RecvInvariant psRecv) (small : sImport.uLength ≤ alinkImportMax)
    (enough : sImport.uLength ≤ fuel) :
    ∃ after calls, alinkRecvCalls mems fuel psRecv sImport = some (after, calls) ∧
      RecvInvariant after ∧
      (calls.map StateCall.consumed).sum = sImport.uLength ∧ ∀ call ∈ calls, call.Sound := by
  induction fuel generalizing mems psRecv sImport with
  | zero =>
      have empty : sImport.uLength = 0 := by omega
      exact ⟨psRecv, [], alinkRecvCalls_done 0 empty, holds, by simp [empty], by simp⟩
  | succ fuel ih =>
      by_cases empty : sImport.uLength = 0
      · exact ⟨psRecv, [], alinkRecvCalls_done _ empty, holds, by simp [empty], by simp⟩
      · have sound : (StateCall.of (mems 0) psRecv sImport).Sound :=
          StateCall.of_sound holds empty small
        have call := alinkRecvCalls_call mems fuel psRecv empty
        have within : (StateCall.of (mems 0) psRecv sImport).consumed ≤ sImport.uLength :=
          sound.within
        have progress := sound.progress
        have bits : alinkImportMax < 2 ^ 32 := by decide
        generalize StateCall.of (mems 0) psRecv sImport = first at sound call within progress
        have left : (sImport.advance first.consumed).uLength = sImport.uLength - first.consumed :=
          wrapSub_of_le within (by omega)
        have rest : (sImport.advance first.consumed).uLength ≤ fuel := by omega
        obtain ⟨after, calls, returned, kept, total, sounds⟩ :=
          ih (fun i => mems (i + 1)) sound.after (by omega) rest
        refine ⟨after, first :: calls, ?_, kept, ?_, ?_⟩
        · rw [call, returned]
          rfl
        · rw [List.map_cons, List.sum_cons, total, left, Nat.add_sub_cancel' within]
        · intro call member
          cases member with
          | head => exact sound
          | tail _ later => exact sounds call later

theorem Reachable.invariant {psRecv : AlinkRecv} (reachable : Reachable psRecv) :
    RecvInvariant psRecv := by
  induction reachable with
  | init => exact invariant_magic rfl
  | registerCbk => assumption
  | task mems psImport _ small returned ih =>
      obtain ⟨after, calls, same, kept, _⟩ := alinkRecvCalls_sound mems ih small (Nat.le_refl _)
      rw [alinkRecvTaskCalls, same] at returned
      cases returned
      exact kept

theorem alinkRecvCalls_still (mem : Ptr UInt8) (fuel : Nat) (psRecv : AlinkRecv)
    (sImport : AlinkRecvImport) :
    (alinkRecvCalls (fun _ => mem) fuel psRecv sImport).map
        (fun result => (result.1, (result.2.map StateCall.sent).flatten)) =
      alinkRecvLoop mem fuel psRecv sImport := by
  induction fuel generalizing psRecv sImport with
  | zero =>
      unfold alinkRecvCalls alinkRecvLoop
      split <;> rfl
  | succ fuel ih =>
      by_cases empty : sImport.uLength = 0
      · rw [alinkRecvCalls_done _ empty, alinkRecvLoop_done _ empty]
        rfl
      · rcases call : psRecv.puStateCall mem sImport with ⟨uIndex, next, sent⟩
        rw [alinkRecvCalls_call _ _ _ empty, alinkRecvLoop_call empty call, ← ih, Option.map_map,
          Option.map_map]
        simp only [StateCall.of, call]
        rfl

theorem alinkRecvTask_returns (mem : Ptr UInt8) {psRecv : AlinkRecv} {psImport : AlinkRecvImport}
    (holds : RecvInvariant psRecv) (small : psImport.uLength ≤ alinkImportMax) :
    ∃ after sent, alinkRecvTask mem psRecv psImport = some (after, sent) ∧ RecvInvariant after := by
  obtain ⟨after, calls, returned, kept, _⟩ :=
    alinkRecvCalls_sound (fun _ => mem) holds small (Nat.le_refl psImport.uLength)
  refine ⟨after, (calls.map StateCall.sent).flatten, ?_, kept⟩
  rw [alinkRecvTask, ← alinkRecvCalls_still, returned]
  rfl

/-- No import ever hangs the receiver, is consumed in part, or finds a counter
    beyond the size it is subtracted from. -/
theorem alinkRecvTask_progress (psRecv : AlinkRecv) (mems : Nat → Ptr UInt8)
    (psImport : AlinkRecvImport)
    (reachable : Reachable psRecv) (small : psImport.uLength ≤ alinkImportMax) :
    RecvInvariant psRecv ∧
      ∃ after calls, alinkRecvTaskCalls mems psRecv psImport = some (after, calls) ∧
      RecvInvariant after ∧
        (calls.map StateCall.consumed).sum = psImport.uLength ∧ ∀ call ∈ calls, call.Sound :=
  ⟨reachable.invariant, alinkRecvCalls_sound mems reachable.invariant small (Nat.le_refl _)⟩

/-- A receiver with four bytes of a header, whose buffer is overwritten before
    the rest comes. -/
def halfHeader : AlinkRecv :=
  { wPkgSize := 77, wCount := 4, sRecvCbk := none, pbyBuffer := 1, puState := .checkHead }

def importOf (uLength : Nat) : AlinkRecvImport :=
  { ePortId := 0, pbyData := 0, uLength, handle := 0, peSend := false }

theorem alinkRecvTask_progress_overwritten :
    RecvInvariant halfHeader ∧
      ∃ after calls, alinkRecvTaskCalls (fun i => Ptr.ofList (List.replicate i 0xFD)) halfHeader
      (importOf 9) =
          some (after, calls) ∧ RecvInvariant after ∧ (calls.map StateCall.consumed).sum = 9 ∧
        ∀ call ∈ calls, call.Sound :=
  alinkRecvTask_progress halfHeader (fun i => Ptr.ofList (List.replicate i 0xFD)) (importOf 9)
    (.task (fun _ => Ptr.ofList [0, 0xFD, 1, 0, 0]) (importOf 5)
      (.init { wPkgSize := 77, wCount := 0, sRecvCbk := none, pbyBuffer := 0, puState := .checkCrc }
        0)
      (by decide) rfl)
    (by decide)

end PtzAgx.Alink
