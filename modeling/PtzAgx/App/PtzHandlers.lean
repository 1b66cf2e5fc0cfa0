import PtzAgx.EthLink.PtzProtocol

/-! # The handlers of PTZ messages

The handlers in `ai_main.cpp` and `ptz_app.cpp` and their registration. A handler
is given the message as a block of its own with the length beside it; `NULL` has
no bytes to read. Most of what the handlers do is to log the fields of a record,
which reads them.
-/

namespace PtzAgx.App

open EthLink Object Words

/-! ## Records

The widths of the fields, packed. -/

def ptzMsgStatus : List Nat := [4, 8, 4, 4, 8, 4]
def ptzMsgTargetInfo : List Nat := [4, 4, 4, 4, 4, 4, 4, 1, 1, 2, 2, 2, 2, 2, 8, 8, 4]

/-- With the pointer `targets` at its end. -/
def ptzMsgTargetPac : List Nat := [4, 4, 4, 8]

def ptzMsgPitchAzimuth : List Nat := [4, 8, 8, 8, 8, 8, 8, 2, 1, 1]
def ptzMsgDevTargetInfo : List Nat := [4, 4, 4, 4, 4, 8, 8]
def ptzMsgDevStatusSearch : List Nat := [4, 4, 4]
def ptzMsgDevStatusTrack : List Nat := [4, 2, 2] ++ ptzMsgDevTargetInfo
def ptzMsgDevExtInfo : List Nat := [4, 8, 4, 4]
def ptzMsgLenseExtInfo : List Nat := [4, 8, 4, 4, 4, 4, 4, 4, 4, 4]
def ptzMsgSysExtInfo : List Nat := [4, 8, 4, 4, 4, 4, 4, 4, 4, 1, 31]

/-- The globals of `ai_main.cpp` that keep the last records, as bytes. -/
structure PtzRealtime where
  paT : List UInt8
  status : List UInt8
  devExt : List UInt8
  sserach : List UInt8
  target : List UInt8
  strack : List UInt8
  targets : List UInt8
  deriving Repr, DecidableEq

/-! ## Handlers -/

namespace PtzMsg

/-- `memcpy` from the message. -/
def copy (msg : PtzProtocolMsg) (i n : Nat) : Option (List UInt8) :=
  msg.msg.bind fun bytes => slice bytes i n

/-- A number of 32 bits. -/
def u32 (msg : PtzProtocolMsg) (i : Nat) : Option Nat := (copy msg i 4).map littleEndian

/-- Log the fields of a record. -/
def log (msg : PtzProtocolMsg) (i : Nat) (widths : List Nat) : Option (List (List UInt8)) :=
  msg.msg.bind fun bytes => fields bytes i widths

def logAll (msg : PtzProtocolMsg) (widths : List Nat) (n i : Nat) :
    Option (List (List (List UInt8))) :=
  if n = 0 then some [] else msg.msg.bind fun bytes => records bytes widths n i

end PtzMsg

open PtzMsg

def ptzPitchAzimuth (realtime : PtzRealtime) (msg : PtzProtocolMsg) : Option PtzRealtime := do
  let paT ← copy msg 0 ptzMsgPitchAzimuth.sum
  return { realtime with paT }

/-- `0x01`. -/
def ptzDevStatus (realtime : PtzRealtime) (msg : PtzProtocolMsg) : Option PtzRealtime := do
  let _printed ← logAll msg [1] msg.msglen.toNat 0
  -- `msglen` is converted to the type of `sizeof`.
  if ptzMsgStatus.sum ≥ unsigned 64 msg.msglen then
    let status ← copy msg 0 ptzMsgStatus.sum
    let _logged ← log msg 0 ptzMsgStatus
    return { realtime with status }
  else
    return realtime

/-- `work_status == 1`. -/
def ptzDevExtSearch (realtime : PtzRealtime) (msg : PtzProtocolMsg) : Option PtzRealtime := do
  let place := ptzMsgDevExtInfo.sum
  let sserach ← copy msg place ptzMsgDevStatusSearch.sum
  let _logged ← log msg place ptzMsgDevStatusSearch
  let dataLen ← u32 msg (place + 8)
  let realtime := { realtime with sserach }
  if dataLen ≥ ptzMsgDevTargetInfo.sum then
    let num := dataLen / ptzMsgDevTargetInfo.sum
    let place := place + ptzMsgDevStatusSearch.sum
    let _logged ← logAll msg ptzMsgDevTargetInfo num place
    let target ← copy msg place ptzMsgDevTargetInfo.sum
    return { realtime with target }
  else
    return realtime

/-- What follows the check for `NULL`. -/
def ptzDevExtWork (realtime : PtzRealtime) (msg : PtzProtocolMsg) : Option PtzRealtime := do
  let _logged ← log msg 0 ptzMsgDevExtInfo
  let workStatus ← u32 msg 12
  let dataLen ← u32 msg 16
  if workStatus = 0 then
    if dataLen ≥ 4 then
      let _time ← u32 msg ptzMsgDevExtInfo.sum
      return realtime
    else
      return realtime
  else if workStatus = 1 then
    ptzDevExtSearch realtime msg
  else if workStatus = 2 then
    let _logged ← log msg ptzMsgDevExtInfo.sum ptzMsgDevStatusTrack
    let strack ← copy msg ptzMsgDevExtInfo.sum ptzMsgDevStatusTrack.sum
    return { realtime with strack }
  else
    return realtime

/-- `0x08`. The copy comes before the check for `NULL`. -/
def ptzDevExtInfo0x08 (realtime : PtzRealtime) (msg : PtzProtocolMsg) : Option PtzRealtime := do
  let devExt ← copy msg 0 ptzMsgDevExtInfo.sum
  if msg.msg = none then
    return { realtime with devExt }
  else
    ptzDevExtWork { realtime with devExt } msg

/-- `0x0B`. The targets begin where the copied record has its pointer. -/
def ptzTargetInfo (realtime : PtzRealtime) (msg : PtzProtocolMsg) : Option PtzRealtime := do
  let targets ← copy msg 0 ptzMsgTargetPac.sum
  let _logged ← log msg 0 (ptzMsgTargetPac.take 3)
  let targetNum ← u32 msg 4
  let _logged ← logAll msg ptzMsgTargetInfo targetNum 12
  return { realtime with targets }

def ptzLenseExtInfo0x0c (realtime : PtzRealtime) (msg : PtzProtocolMsg) : Option PtzRealtime :=
  if msg.msg = none then some realtime
  else (log msg 0 ptzMsgLenseExtInfo).map fun _ => realtime

/-- `reserver` is not looked at. -/
def ptzSysExtInfo0x15 (realtime : PtzRealtime) (msg : PtzProtocolMsg) : Option PtzRealtime :=
  if msg.msg = none then some realtime
  else (log msg 0 (ptzMsgSysExtInfo.take 10)).map fun _ => realtime

/-! ## Registration -/

abbrev PtzComandHandle := PtzRealtime → PtzProtocolMsg → Option PtzRealtime

def ptzCommandDevStatus : UInt32 := 0x01
def ptzCommandAttMsg : UInt32 := 0x02
def ptzCommandDevExtInfo : UInt32 := 0x08
def ptzCommandTargetInfo : UInt32 := 0x0B
def ptzCommandLenseExtInfo : UInt32 := 0x0C
def ptzCommandSysExtInfo : UInt32 := 0x15

/-- With memory for every entry. -/
def ethPtzCommandRegister (msgid : UInt32) (cb : PtzComandHandle)
    (ptzListObj : List (MsgHandleInfo PtzComandHandle)) :
    List (MsgHandleInfo PtzComandHandle) :=
  ptzListObj ++ [⟨msgid, some cb⟩]

def registerControlPtzComands : List (MsgHandleInfo PtzComandHandle) :=
  ethPtzCommandRegister ptzCommandSysExtInfo ptzSysExtInfo0x15 <|
    ethPtzCommandRegister ptzCommandLenseExtInfo ptzLenseExtInfo0x0c <|
      ethPtzCommandRegister ptzCommandDevExtInfo ptzDevExtInfo0x08 <|
        ethPtzCommandRegister ptzCommandAttMsg ptzPitchAzimuth <|
          ethPtzCommandRegister ptzCommandTargetInfo ptzTargetInfo <|
            ethPtzCommandRegister ptzCommandDevStatus ptzDevStatus []

/-! ## Messages that are accepted -/

/-- `msg` is a block of `msglen` bytes, or `NULL` when that is not positive. -/
structure HoldsMessage (msg : PtzProtocolMsg) : Prop where
  block : ∀ bytes, msg.msg = some bytes → 0 < msg.msglen ∧ (bytes.length : Int) = msg.msglen
  null : msg.msg = none → msg.msglen ≤ 0
  bounds : -2 ^ 31 ≤ msg.msglen ∧ msg.msglen < 2 ^ 31

theorem ptzProtocolVerify_zero {pac : List UInt8} {lmsg msg : PtzProtocolMsg}
    (verified : ptzProtocolVerify pac lmsg = some (0, msg)) : msg = lmsg := by
  simp only [ptzProtocolVerify] at verified
  obtain ⟨calVerify, -, verified⟩ := Option.bind_eq_some_iff.mp verified
  obtain ⟨verify, -, verified⟩ := Option.bind_eq_some_iff.mp verified
  split at verified
  · cases verified
  · obtain ⟨stopbit, -, verified⟩ := Option.bind_eq_some_iff.mp verified
    cases verified
    rfl

theorem ptzProtocolNetworkDataAnalysis_zero {allocated : Bool} {pac : List UInt8} {len : Nat}
    {msg : PtzProtocolMsg}
    (accepted : ptzProtocolNetworkDataAnalysis allocated pac len ⟨0, 0, none⟩ = some (0, msg)) :
    HoldsMessage msg := by
  unfold ptzProtocolNetworkDataAnalysis at accepted
  obtain ⟨head, -, accepted⟩ := Option.bind_eq_some_iff.mp accepted
  split at accepted
  · cases accepted
    exact ⟨by simp, fun _ => Int.le_refl 0, by decide⟩
  · obtain ⟨lenField, -, accepted⟩ := Option.bind_eq_some_iff.mp accepted
    obtain ⟨command, -, accepted⟩ := Option.bind_eq_some_iff.mp accepted
    have bounds := ptzMsglen_bounds lenField
    simp only at accepted
    generalize ptzMsglen lenField = msglen at accepted bounds
    split at accepted
    · next positive =>
      split at accepted
      · obtain ⟨bytes, copied, accepted⟩ := Option.bind_eq_some_iff.mp accepted
        obtain rfl := ptzProtocolVerify_zero accepted
        refine ⟨?_, nofun, bounds⟩
        rintro _ ⟨rfl⟩
        have length := length_slice copied
        exact ⟨positive, by simp only [length]; omega⟩
      · cases accepted
    · next empty =>
      obtain rfl := ptzProtocolVerify_zero accepted
      exact ⟨nofun, fun _ => Int.not_lt.mp empty, bounds⟩

/-! ## What a handler needs -/

/-- A number of the message, for those that lie inside. -/
def PtzMsg.word (msg : PtzProtocolMsg) (i : Nat) : Nat := (u32 msg i).getD 0

/-- The message has the record of its `work_status`, behind 20 bytes. -/
def WorkSuffices (msg : PtzProtocolMsg) : Prop :=
  (word msg 12 = 0 → 4 ≤ word msg 16 → 24 ≤ msg.msglen) ∧
    (word msg 12 = 1 → 32 ≤ msg.msglen ∧ 32 + word msg 28 / 36 * 36 ≤ msg.msglen) ∧
    (word msg 12 = 2 → 64 ≤ msg.msglen)

/-- The message is as long as what the handler of its command reads. -/
def Suffices (msg : PtzProtocolMsg) : Prop :=
  if msg.command = ptzCommandDevStatus then msg.msglen < 0 ∨ ptzMsgStatus.sum ≤ msg.msglen
  else if msg.command = ptzCommandTargetInfo then
    ptzMsgTargetPac.sum ≤ msg.msglen ∧ 12 + word msg 4 * ptzMsgTargetInfo.sum ≤ msg.msglen
  else if msg.command = ptzCommandAttMsg then ptzMsgPitchAzimuth.sum ≤ msg.msglen
  else if msg.command = ptzCommandDevExtInfo then ptzMsgDevExtInfo.sum ≤ msg.msglen ∧
    WorkSuffices msg
  else if msg.command = ptzCommandLenseExtInfo then msg.msglen ≤ 0 ∨
    ptzMsgLenseExtInfo.sum ≤ msg.msglen
  else if msg.command = ptzCommandSysExtInfo then msg.msglen ≤ 0 ∨
    (ptzMsgSysExtInfo.take 10).sum ≤ msg.msglen
  else True

section Reads

variable {msg : PtzProtocolMsg} {realtime : PtzRealtime} {i n : Nat} {widths : List Nat}

theorem isSome_bind_iff {α β : Type} {x : Option α} {f : α → Option β} {Q : Prop}
    (rest : ∀ a, x = some a → ((f a).isSome ↔ Q)) : (x >>= f).isSome ↔ x.isSome ∧ Q := by
  cases x with
  | none => simp
  | some a => simpa using rest a rfl

theorem msg_isSome_iff {α : Type} {f : List UInt8 → Option α} {size : Nat}
    (holds : HoldsMessage msg)
    (some_bytes : 0 < size) (reads : ∀ bytes, (f bytes).isSome ↔ size ≤ bytes.length) :
    (msg.msg.bind f).isSome ↔ (size : Int) ≤ msg.msglen := by
  cases here : msg.msg with
  | none =>
      have null := holds.null here
      refine iff_of_false Bool.noConfusion ?_
      omega
  | some bytes =>
      obtain ⟨-, length⟩ := holds.block bytes here
      rw [Option.bind_some, reads, ← length, Int.ofNat_le]

theorem copy_isSome_iff (holds : HoldsMessage msg) (some_bytes : 0 < i + n) :
    (copy msg i n).isSome ↔ ((i + n : Nat) : Int) ≤ msg.msglen :=
  msg_isSome_iff holds some_bytes fun _ => slice_isSome_iff

theorem u32_isSome_iff (holds : HoldsMessage msg) :
    (u32 msg i).isSome ↔ ((i + 4 : Nat) : Int) ≤ msg.msglen := by
  rw [u32, Option.isSome_map, copy_isSome_iff holds (by omega)]

theorem log_isSome_iff (holds : HoldsMessage msg) (some_fields : widths ≠ [])
    (some_bytes : 0 < i + widths.sum) :
    (log msg i widths).isSome ↔ ((i + widths.sum : Nat) : Int) ≤ msg.msglen :=
  msg_isSome_iff holds some_bytes fun _ => fields_isSome_iff.trans (or_iff_right some_fields)

theorem logAll_isSome_iff (holds : HoldsMessage msg) (some_fields : widths ≠ [])
    (some_bytes : 0 < widths.sum) :
    (logAll msg widths n i).isSome ↔ n = 0 ∨ ((i + n * widths.sum : Nat) : Int) ≤ msg.msglen := by
  unfold logAll
  by_cases none_left : n = 0
  · rw [if_pos none_left]
    exact iff_of_true rfl (.inl none_left)
  · rw [if_neg none_left, or_iff_right none_left]
    have positive := Nat.mul_pos (Nat.pos_of_ne_zero none_left) some_bytes
    cases here : msg.msg with
    | none =>
        have null := holds.null here
        refine iff_of_false Bool.noConfusion ?_
        omega
    | some bytes =>
        obtain ⟨-, length⟩ := holds.block bytes here
        rw [Option.bind_some, records_isSome_iff some_fields, ← length, Int.ofNat_le,
          or_iff_right none_left]

theorem word_eq {value : Nat} (read : u32 msg i = some value) : word msg i = value := by
  rw [word, read]
  rfl

theorem ptzPitchAzimuth_isSome_iff (holds : HoldsMessage msg) :
    (ptzPitchAzimuth realtime msg).isSome ↔ ptzMsgPitchAzimuth.sum ≤ msg.msglen := by
  unfold ptzPitchAzimuth
  rw [isSome_bind_iff fun _ _ => iff_of_true rfl trivial, copy_isSome_iff holds (by decide),
    and_true, Nat.zero_add]

theorem ptzDevStatus_isSome_iff (holds : HoldsMessage msg) :
    (ptzDevStatus realtime msg).isSome ↔ msg.msglen < 0 ∨ ptzMsgStatus.sum ≤ msg.msglen := by
  have bounds := holds.bounds
  have size : ptzMsgStatus.sum = 32 := rfl
  have printed : (logAll msg [1] msg.msglen.toNat 0).isSome := by
    rw [logAll_isSome_iff holds (List.cons_ne_nil 1 []) Nat.one_pos]
    simp only [List.sum_singleton]
    omega
  have copied : (copy msg 0 ptzMsgStatus.sum).isSome ↔ (32 : Int) ≤ msg.msglen :=
    copy_isSome_iff holds (by decide)
  have logged : (log msg 0 ptzMsgStatus).isSome ↔ (32 : Int) ≤ msg.msglen :=
    log_isSome_iff holds (List.cons_ne_nil _ _) (by decide)
  have small : ptzMsgStatus.sum ≥ unsigned 64 msg.msglen ↔ 0 ≤ msg.msglen ∧ msg.msglen ≤ 32 := by
    simp only [size, unsigned]
    omega
  unfold ptzDevStatus
  rw [isSome_bind_iff (Q := msg.msglen < 0 ∨ ptzMsgStatus.sum ≤ msg.msglen), and_iff_right printed]
  intro _ _
  by_cases decodes : 0 ≤ msg.msglen ∧ msg.msglen ≤ 32
  · rw [if_pos (small.mpr decodes), isSome_bind_iff fun _ _ => isSome_bind_iff fun _ _ =>
      iff_of_true rfl trivial, copied, logged, size, and_true, and_self]
    omega
  · rw [if_neg fun decoded => decodes (small.mp decoded)]
    rw [size]
    refine iff_of_true rfl ?_
    omega

theorem ptzDevExtSearch_isSome_iff (holds : HoldsMessage msg) :
    (ptzDevExtSearch realtime msg).isSome ↔ 32 ≤ msg.msglen ∧
      32 + word msg 28 / 36 * 36 ≤ msg.msglen := by
  have size : ptzMsgDevTargetInfo.sum = 36 := rfl
  have copied : (copy msg ptzMsgDevExtInfo.sum ptzMsgDevStatusSearch.sum).isSome ↔
      (32 : Int) ≤ msg.msglen :=
    copy_isSome_iff holds (by decide)
  have logged : (log msg ptzMsgDevExtInfo.sum ptzMsgDevStatusSearch).isSome ↔
      (32 : Int) ≤ msg.msglen :=
    log_isSome_iff holds (List.cons_ne_nil _ _) (by decide)
  have counted : (u32 msg (ptzMsgDevExtInfo.sum + 8)).isSome ↔ (32 : Int) ≤ msg.msglen :=
    u32_isSome_iff holds
  have first : (copy msg (ptzMsgDevExtInfo.sum + ptzMsgDevStatusSearch.sum) 36).isSome ↔
      (68 : Int) ≤ msg.msglen :=
    copy_isSome_iff holds (by decide)
  have items (num : Nat) :
    (logAll msg ptzMsgDevTargetInfo num (ptzMsgDevExtInfo.sum + ptzMsgDevStatusSearch.sum)).isSome ↔
      num = 0 ∨ ((32 + num * 36 : Nat) : Int) ≤ msg.msglen :=
    logAll_isSome_iff holds (List.cons_ne_nil _ _) (by decide)
  unfold ptzDevExtSearch
  simp only [size]
  rw [isSome_bind_iff fun _ _ => isSome_bind_iff fun _ _ =>
    isSome_bind_iff (Q := 32 + word msg 28 / 36 * 36 ≤ msg.msglen) ?_, copied, logged, counted]
  · omega
  · intro dataLen read
    have value : word msg 28 = dataLen := word_eq read
    have long : (32 : Int) ≤ msg.msglen := counted.mp (by rw [read]; rfl)
    rw [value]
    by_cases many : dataLen ≥ 36
    · rw [if_pos many, isSome_bind_iff fun _ _ => isSome_bind_iff fun _ _ =>
        iff_of_true rfl trivial, items, first, and_true]
      omega
    · rw [if_neg many]
      refine iff_of_true rfl ?_
      omega

theorem ptzDevExtWork_isSome_iff (holds : HoldsMessage msg) (long : 20 ≤ msg.msglen) :
    (ptzDevExtWork realtime msg).isSome ↔ WorkSuffices msg := by
  have logged : (log msg 0 ptzMsgDevExtInfo).isSome ↔ (20 : Int) ≤ msg.msglen :=
    log_isSome_iff holds (List.cons_ne_nil _ _) (by decide)
  have status : (u32 msg 12).isSome ↔ (16 : Int) ≤ msg.msglen := u32_isSome_iff holds
  have length : (u32 msg 16).isSome ↔ (20 : Int) ≤ msg.msglen := u32_isSome_iff holds
  have time : (u32 msg ptzMsgDevExtInfo.sum).isSome ↔ (24 : Int) ≤ msg.msglen :=
    u32_isSome_iff holds
  have tracked : (log msg ptzMsgDevExtInfo.sum ptzMsgDevStatusTrack).isSome ↔
      (64 : Int) ≤ msg.msglen :=
    log_isSome_iff holds (List.cons_ne_nil _ _) (by decide)
  have kept : (copy msg ptzMsgDevExtInfo.sum ptzMsgDevStatusTrack.sum).isSome ↔
      (64 : Int) ≤ msg.msglen :=
    copy_isSome_iff holds (by decide)
  unfold ptzDevExtWork
  rw [isSome_bind_iff (Q := WorkSuffices msg) ?_, and_iff_right (logged.mpr long)]
  intro _ _
  rw [isSome_bind_iff (Q := WorkSuffices msg) ?_, and_iff_right (status.mpr (by omega))]
  intro workStatus readStatus
  rw [isSome_bind_iff (Q := WorkSuffices msg) ?_, and_iff_right (length.mpr long)]
  intro dataLen readLen
  rw [WorkSuffices, word_eq readStatus, word_eq readLen]
  by_cases idle : workStatus = 0
  · subst idle
    by_cases timed : dataLen ≥ 4
    · rw [if_pos rfl, if_pos timed, isSome_bind_iff fun _ _ => iff_of_true rfl trivial, time]
      simp [timed]
    · rw [if_pos rfl, if_neg timed]
      simp [timed]
  · rw [if_neg idle]
    by_cases searching : workStatus = 1
    · subst searching
      rw [if_pos rfl, ptzDevExtSearch_isSome_iff holds]
      simp
    · rw [if_neg searching]
      by_cases tracking : workStatus = 2
      · subst tracking
        rw [if_pos rfl, isSome_bind_iff fun _ _ => isSome_bind_iff fun _ _ =>
          iff_of_true rfl trivial, tracked, kept]
        simp
      · rw [if_neg tracking]
        simp [idle, searching, tracking]

theorem ptzDevExtInfo0x08_isSome_iff (holds : HoldsMessage msg) :
    (ptzDevExtInfo0x08 realtime msg).isSome ↔ ptzMsgDevExtInfo.sum ≤ msg.msglen ∧
      WorkSuffices msg := by
  have copied : (copy msg 0 ptzMsgDevExtInfo.sum).isSome ↔
      (ptzMsgDevExtInfo.sum : Int) ≤ msg.msglen :=
    copy_isSome_iff holds (by decide)
  unfold ptzDevExtInfo0x08
  rw [isSome_bind_iff (Q := WorkSuffices msg) ?_, copied]
  intro devExt read
  have long : (20 : Int) ≤ msg.msglen := copied.mp (by rw [read]; rfl)
  have present : msg.msg ≠ none := by
    intro null
    have short := holds.null null
    omega
  rw [if_neg present]
  exact ptzDevExtWork_isSome_iff holds long

theorem ptzTargetInfo_isSome_iff (holds : HoldsMessage msg) :
    (ptzTargetInfo realtime msg).isSome ↔
      ptzMsgTargetPac.sum ≤ msg.msglen ∧ 12 + word msg 4 * ptzMsgTargetInfo.sum ≤ msg.msglen := by
  have size : ptzMsgTargetPac.sum = 20 := rfl
  have copied : (copy msg 0 ptzMsgTargetPac.sum).isSome ↔ (20 : Int) ≤ msg.msglen :=
    copy_isSome_iff holds (by decide)
  have logged : (log msg 0 (ptzMsgTargetPac.take 3)).isSome ↔ (12 : Int) ≤ msg.msglen :=
    log_isSome_iff holds (List.cons_ne_nil _ _) (by decide)
  have counted : (u32 msg 4).isSome ↔ (8 : Int) ≤ msg.msglen := u32_isSome_iff holds
  have items (num : Nat) : (logAll msg ptzMsgTargetInfo num 12).isSome ↔
      num = 0 ∨ ((12 + num * 60 : Nat) : Int) ≤ msg.msglen :=
    logAll_isSome_iff holds (List.cons_ne_nil _ _) (by decide)
  unfold ptzTargetInfo
  rw [isSome_bind_iff fun _ _ => isSome_bind_iff fun _ _ =>
    isSome_bind_iff (Q := word msg 4 = 0 ∨ ((12 + word msg 4 * 60 : Nat) : Int) ≤ msg.msglen) ?_,
      copied, logged, counted]
  · have sizeInfo : ptzMsgTargetInfo.sum = 60 := rfl
    rw [size, sizeInfo]
    omega
  · intro targetNum read
    rw [word_eq read, isSome_bind_iff fun _ _ => iff_of_true rfl trivial, items, and_true]

/-- The two handlers that check for `NULL` and log one record. -/
theorem logOnly_isSome_iff (holds : HoldsMessage msg) (some_fields : widths ≠ [])
    (some_bytes : 0 < widths.sum) :
    (if msg.msg = none then some realtime else (log msg 0 widths).map fun _ => realtime).isSome ↔
      msg.msglen ≤ 0 ∨ widths.sum ≤ msg.msglen := by
  by_cases null : msg.msg = none
  · rw [if_pos null]
    exact iff_of_true rfl (.inl (holds.null null))
  · rw [if_neg null, Option.isSome_map, log_isSome_iff holds some_fields (by omega), Nat.zero_add]
    obtain ⟨bytes, here⟩ := Option.ne_none_iff_exists'.mp null
    have positive := (holds.block bytes here).1
    omega

/-- The handler that is called for a command. -/
def handlerOf (command : UInt32) : Option PtzComandHandle :=
  registerControlPtzComands.findSome? fun pos => if pos.msgId = command then pos.cbk else none

theorem handlerOf_eq (command : UInt32) : handlerOf command =
    if command = ptzCommandDevStatus then some ptzDevStatus
    else if command = ptzCommandTargetInfo then some ptzTargetInfo
    else if command = ptzCommandAttMsg then some ptzPitchAzimuth
    else if command = ptzCommandDevExtInfo then some ptzDevExtInfo0x08
    else if command = ptzCommandLenseExtInfo then some ptzLenseExtInfo0x0c
    else if command = ptzCommandSysExtInfo then some ptzSysExtInfo0x15
    else none := by
  have next (id : UInt32) (cb : PtzComandHandle) (rest : List (MsgHandleInfo PtzComandHandle)) :
      ((⟨id, some cb⟩ :: rest).findSome? fun pos => if pos.msgId = command then pos.cbk else none) =
        if command = id then some cb
        else rest.findSome? fun pos => if pos.msgId = command then pos.cbk else none := by
    by_cases same : command = id
    · simp [same]
    · simp [same, Ne.symm same]
  simp only [handlerOf, registerControlPtzComands, ethPtzCommandRegister, List.nil_append,
    List.cons_append, next, List.findSome?_nil]

theorem handlerOf_inside_iff (holds : HoldsMessage msg) (realtime : PtzRealtime) :
    (∀ cbk ∈ handlerOf msg.command, (cbk realtime msg).isSome) ↔ Suffices msg := by
  have called (cbk : PtzComandHandle) : (∀ c ∈ some cbk, (c realtime msg).isSome) ↔
      (cbk realtime msg).isSome := by simp
  rw [handlerOf_eq, Suffices]
  split
  · exact (called _).trans (ptzDevStatus_isSome_iff holds)
  · split
    · exact (called _).trans (ptzTargetInfo_isSome_iff holds)
    · split
      · exact (called _).trans (ptzPitchAzimuth_isSome_iff holds)
      · split
        · exact (called _).trans (ptzDevExtInfo0x08_isSome_iff holds)
        · split
          · exact (called _).trans (logOnly_isSome_iff holds (List.cons_ne_nil _ _) (by decide))
          · split
            · exact (called _).trans (logOnly_isSome_iff holds (List.cons_ne_nil _ _) (by decide))
            · simp

end Reads

/-- Of a package that is accepted, the handler reads only the message exactly when
    that is as long as the records its command and its counts ask for. -/
theorem ptzHandlers_inside_iff (allocated : Bool) (pac : List UInt8) (len : Nat)
    (msg : PtzProtocolMsg)
    (realtime : PtzRealtime)
    (accepted : ptzProtocolNetworkDataAnalysis allocated pac len ⟨0, 0, none⟩ = some (0, msg)) :
    ∃ calls, ethProtocolHandler registerControlPtzComands allocated pac len = some calls ∧
      ((∀ call ∈ calls, (call.1 realtime call.2).isSome) ↔ Suffices msg) := by
  have holds := ptzProtocolNetworkDataAnalysis_zero accepted
  refine ⟨((handlerOf msg.command).map fun cbk => (cbk, msg)).toList, ?_, ?_⟩
  · rw [ethProtocolHandler, accepted]
    rfl
  · rw [← handlerOf_inside_iff holds realtime]
    simp

/-- Before the first message. -/
def PtzRealtime.zero : PtzRealtime where
  paT := List.replicate ptzMsgPitchAzimuth.sum 0
  status := List.replicate ptzMsgStatus.sum 0
  devExt := List.replicate ptzMsgDevExtInfo.sum 0
  sserach := List.replicate ptzMsgDevStatusSearch.sum 0
  target := List.replicate ptzMsgDevTargetInfo.sum 0
  strack := List.replicate ptzMsgDevStatusTrack.sum 0
  targets := List.replicate ptzMsgTargetPac.sum 0

/-- A package with a status of four bytes. -/
def shortStatus : List UInt8 :=
  [0x88, 0x89, 0x80, 0x8A, 0x2A, 0x23, 0, 0, 24, 0, 0, 0, 1, 0, 0, 0] ++ List.replicate 16 0 ++
    [25, 0, 0, 0, 0x89, 0x80, 0x8A, 0x8B]

theorem shortStatus_accepted :
    ptzProtocolNetworkDataAnalysis true shortStatus 40 ⟨0, 0, none⟩ =
      some (0, ⟨1, 4, some [0, 0, 0, 0]⟩) := by
  decide +kernel

theorem ptzHandlers_inside_iff_shortStatus :
    ∃ calls, ethProtocolHandler registerControlPtzComands true shortStatus 40 = some calls ∧
      ((∀ call ∈ calls, (call.1 PtzRealtime.zero call.2).isSome) ↔
        Suffices ⟨1, 4, some [0, 0, 0, 0]⟩) :=
  ptzHandlers_inside_iff true shortStatus 40
    ⟨1, 4, some [0, 0, 0, 0]⟩ PtzRealtime.zero shortStatus_accepted

/-- Of these four bytes the handler copies 32. -/
theorem ptzHandlers_outside :
    ∃ call, ptzProtocolNetworkDataAnalysis true shortStatus 40 ⟨0, 0, none⟩ = some (0, call.2) ∧
      ethProtocolHandler registerControlPtzComands true shortStatus 40 = some [call] ∧
      call.1 PtzRealtime.zero call.2 = none := by
  refine ⟨(ptzDevStatus, ⟨1, 4, some [0, 0, 0, 0]⟩), shortStatus_accepted, ?_, by decide +kernel⟩
  rw [ethProtocolHandler, shortStatus_accepted]
  rfl

end PtzAgx.App
