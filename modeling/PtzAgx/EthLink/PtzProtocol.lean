import PtzAgx.Lib.Object
import PtzAgx.Lib.Words

/-! # Receiving a PTZ package

`ptz_protocol/ptz_control_protocol.c`, the decoding half, and the receiving half
of `eth_link_ptz.c`. The receive buffer is an object of 512 bytes: an access
outside of it has no result. Values of 32 bits are kept unsigned except for
`msglen`, whose sign matters. The diagnostics are left out, and with them all
that is done about a datagram that is too short or lacks its stop word.
-/

namespace PtzAgx.EthLink

open Object Words

def ptzPackageHead : UInt32 := 0x8A808988
def ptzPackageHeadLen : Nat := 4
def ptzPackageProtocolLen : Nat := 4
def ptzPackageLengthLen : Nat := 4
def ptzPackageCommandLen : Nat := 4
def ptzPackageTimesmapLen : Nat := 8
def ptzPackageSeqMsgLen : Nat := 4
def ptzPackageCrcLen : Nat := 4
def ptzPackageStopbitLen : Nat := 4

def ptzPackageMiniLen : Nat :=
  ptzPackageHeadLen + ptzPackageProtocolLen + ptzPackageLengthLen + ptzPackageCommandLen +
    ptzPackageTimesmapLen +
    ptzPackageSeqMsgLen + ptzPackageSeqMsgLen + ptzPackageStopbitLen

/-- What the length field counts besides the message. -/
def ptzPackageOverhead : Nat :=
  ptzPackageTimesmapLen + ptzPackageCommandLen + ptzPackageSeqMsgLen + ptzPackageCrcLen

/-- Where the message begins. -/
def ptzPackageMsgOffset : Nat :=
  ptzPackageHeadLen + ptzPackageProtocolLen + ptzPackageLengthLen + ptzPackageCommandLen +
    ptzPackageTimesmapLen

/-- `ptz_protocol_msg_t`. `msg` is `none` for `NULL`, else the block it points to. -/
structure PtzProtocolMsg where
  command : UInt32
  msglen : Int
  msg : Option (List UInt8)
  deriving Repr, DecidableEq

/-! ## `ptz_control_protocol.c` -/

/-- A 32-bit word of the package. -/
def ptzWord (pac : List UInt8) (i : Int) : Option UInt32 :=
  (slice pac i 4).map fun bytes => UInt32.ofNat (littleEndian bytes)

/-! `ptz_protocol_pac_t`, packed. -/

def PtzProtocolPac.head (pac : List UInt8) : Option UInt32 := ptzWord pac (0 : Nat)
def PtzProtocolPac.len (pac : List UInt8) : Option UInt32 := ptzWord pac (8 : Nat)
def PtzProtocolPac.command (pac : List UInt8) : Option UInt32 := ptzWord pac (12 : Nat)

def ptzProtocolCrcCal (pac : List UInt8) (len : Nat) : Option UInt32 :=
  let start := ptzPackageProtocolLen + ptzPackageHeadLen
  foldFrom (fun verify b => verify + b.toUInt32) pac (len - start) start 0

/-- The `exit` label. -/
def PtzProtocolMsg.freed (lmsg : PtzProtocolMsg) : PtzProtocolMsg := { lmsg with msg := none }

/-- From the checksum on. The length of the sum is unsigned, the place of the
    checksum is not. -/
def ptzProtocolVerify (pac : List UInt8) (lmsg : PtzProtocolMsg) :
    Option (Int × PtzProtocolMsg) := do
  let place : Int := ptzPackageMsgOffset + lmsg.msglen + ptzPackageSeqMsgLen
  let calVerify ← ptzProtocolCrcCal pac (unsigned 32 place)
  let verify ← ptzWord pac place
  if verify ≠ calVerify then
    return (-1, lmsg.freed)
  else
    let _stopbit ← ptzWord pac (place + 4)
    return (0, lmsg)

/-- `msglen` as the length field gives it. -/
def ptzMsglen (len : UInt32) : Int := signed 32 (wrapSub 32 len.toNat ptzPackageOverhead)

/-- `allocated` says whether there is memory for the message. -/
def ptzProtocolNetworkDataAnalysis (allocated : Bool) (pac : List UInt8) (_len : Nat)
    (lmsg : PtzProtocolMsg) :
    Option (Int × PtzProtocolMsg) := do
  let head ← PtzProtocolPac.head pac
  if ptzPackageHead ≠ head then
    -- `break` leads to the `return 0` behind the loop.
    return (0, lmsg)
  else
    let len ← PtzProtocolPac.len pac
    let command ← PtzProtocolPac.command pac
    let lmsg := { lmsg with command, msglen := ptzMsglen len }
    if 0 < lmsg.msglen then
      if allocated then
        let msg ← slice pac ptzPackageMsgOffset lmsg.msglen.toNat
        ptzProtocolVerify pac { lmsg with msg := some msg }
      else
        return (-1, lmsg.freed)
    else
      ptzProtocolVerify pac lmsg

/-! ## `eth_link_ptz.c` -/

/-- `msg_handle_info_t`. -/
structure MsgHandleInfo (κ : Type) where
  msgId : UInt32
  cbk : Option κ

variable {κ : Type}

/-- The calls of command handlers, each with its message. The list is as
    `eth_ptz_command_register` left it. -/
def ethProtocolHandler (ptzListObj : List (MsgHandleInfo κ)) (allocated : Bool) (msg : List UInt8)
    (len : Nat) :
    Option (List (κ × PtzProtocolMsg)) := do
  let (ret, lmsg) ← ptzProtocolNetworkDataAnalysis allocated msg len
      { command := 0, msglen := 0, msg := none }
  if 0 ≠ ret then
    return []
  else
    let cbk := ptzListObj.findSome? fun pos => if pos.msgId = lmsg.command then pos.cbk else none
    return (cbk.map fun cbk => (cbk, lmsg)).toList

/-- `abyBuffer` after the datagram has arrived. -/
def abyBuffer (datagram : List UInt8) : List UInt8 :=
  datagram ++ List.replicate (512 - datagram.length) 0

def ethLinkUdpCbkData (ptzListObj : List (MsgHandleInfo κ)) (allocated : Bool)
    (datagram : List UInt8) :
    Option (List (κ × PtzProtocolMsg)) :=
  ethProtocolHandler ptzListObj allocated (abyBuffer datagram) datagram.length


/-! ## Accesses that stay inside -/

def ptzWordAt (pac : List UInt8) (i : Nat) : UInt32 :=
  UInt32.ofNat (littleEndian ((pac.drop i).take 4))

/-- The sum of the bytes from the length field to place `n`. -/
def ptzByteSum (pac : List UInt8) (n : Nat) : UInt32 :=
  ((pac.drop 8).take (n - 8)).foldl (fun verify b => verify + b.toUInt32) 0

/-- Where the length field puts the checksum, as the unsigned length of the sum. -/
def ptzChecksumPlace (pac : List UInt8) : Nat := wrap 32 (8 + (ptzWordAt pac 8).toNat)

section Inside

variable {pac : List UInt8} {lmsg : PtzProtocolMsg}

theorem ptzWord_inside {i : Nat} (inside : i + 4 ≤ pac.length) :
    ptzWord pac i = some (ptzWordAt pac i) := by
  rw [ptzWord, slice_inside inside]
  rfl

theorem ptzWord_bind {α : Type} {i : Nat} (inside : i + 4 ≤ pac.length) (f : UInt32 → Option α) :
    (ptzWord pac i >>= f) = f (ptzWordAt pac i) := by
  rw [ptzWord_inside inside]
  rfl

theorem ptzWord_outside {i : Int} (outside : i < 0 ∨ (pac.length : Int) < i + 4) :
    ptzWord pac i = none := by
  rw [ptzWord, slice_outside outside]
  rfl

theorem ptzProtocolCrcCal_inside {n : Nat} (inside : n ≤ pac.length) :
    ptzProtocolCrcCal pac n = some (ptzByteSum pac n) := by
  have start : ptzPackageProtocolLen + ptzPackageHeadLen = 8 := rfl
  by_cases short : n ≤ 8
  · have nothing : n - 8 = 0 := by omega
    simp only [ptzProtocolCrcCal, ptzByteSum, start, nothing, foldFrom, List.take_zero,
      List.foldl_nil]
  · simp only [ptzProtocolCrcCal, start]
    exact foldFrom_inside _ _ (by omega)

end Inside

/-! ## The length field -/

section Length

variable (len : UInt32)

/-- Below 20 and from `2 ^ 31 + 20` on the message length is negative. -/
theorem ptzMsglen_cases :
    (len.toNat < 2 ^ 31 + 20 ∧ ptzMsglen len = (len.toNat : Int) - 20) ∨
      (2 ^ 31 + 20 ≤ len.toNat ∧ ptzMsglen len = (len.toNat : Int) - 20 - 2 ^ 32) := by
  have bound := len.toNat_lt
  have overhead :
      wrap 32 (wrapSub 32 len.toNat ptzPackageOverhead) = (len.toNat + (2 ^ 32 - 20)) % 2 ^ 32 :=
    Nat.mod_mod _ _
  unfold ptzMsglen signed
  rw [overhead]
  by_cases low : (len.toNat + (2 ^ 32 - 20)) % 2 ^ 32 < 2 ^ (32 - 1)
  · rw [if_pos low]
    omega
  · rw [if_neg low]
    omega

theorem ptzMsglen_pos_iff : 0 < ptzMsglen len ↔ 20 < len.toNat ∧ len.toNat < 2 ^ 31 + 20 := by
  have bound := len.toNat_lt
  rcases ptzMsglen_cases len with ⟨small, eq⟩ | ⟨large, eq⟩ <;> rw [eq] <;> omega

/-- The place of the checksum, read signed, is the same or lies before the package. -/
theorem ptzMsglen_place (pac : List UInt8) :
    unsigned 32 (ptzPackageMsgOffset + ptzMsglen (ptzWordAt pac 8) + ptzPackageSeqMsgLen) =
      ptzChecksumPlace pac ∧
      ((ptzPackageMsgOffset : Int) + ptzMsglen (ptzWordAt pac 8) + ptzPackageSeqMsgLen =
        ptzChecksumPlace pac ∨
        ((ptzPackageMsgOffset : Int) + ptzMsglen (ptzWordAt pac 8) + ptzPackageSeqMsgLen < 0 ∧
          2 ^ 31 ≤ ptzChecksumPlace pac)) := by
  have bound := (ptzWordAt pac 8).toNat_lt
  have offset : (ptzPackageMsgOffset : Int) = 24 := rfl
  have seq : (ptzPackageSeqMsgLen : Int) = 4 := rfl
  simp only [offset, seq, unsigned, ptzChecksumPlace, wrap]
  rcases ptzMsglen_cases (ptzWordAt pac 8) with ⟨small, eq⟩ | ⟨large, eq⟩ <;> rw [eq] <;> omega

end Length

/-! ## What is refused -/

/-- The analysis returns something other than zero. -/
def Refused (result : Option (Int × PtzProtocolMsg)) : Prop :=
  ∃ ret lmsg, result = some (ret, lmsg) ∧ ret ≠ 0

section Refused

variable {pac : List UInt8} {lmsg : PtzProtocolMsg}

theorem not_refused_none : ¬ Refused none := by
  rintro ⟨ret, lmsg, none, -⟩
  cases none

theorem not_refused_zero : ¬ Refused (some (0, lmsg)) := by
  rintro ⟨ret, lmsg, same, nonzero⟩
  cases same
  exact nonzero rfl

theorem refused_error : Refused (some (-1, lmsg)) := ⟨-1, lmsg, rfl, by decide⟩

theorem ptzProtocolVerify_refused_iff (command : UInt32) {msglen : Int} (msg : Option (List UInt8))
    {n : Nat}
    (short : pac.length < 2 ^ 31)
    (sum : unsigned 32 (ptzPackageMsgOffset + msglen + ptzPackageSeqMsgLen) = n)
    (place : (ptzPackageMsgOffset : Int) + msglen + ptzPackageSeqMsgLen = n ∨
      ((ptzPackageMsgOffset : Int) + msglen + ptzPackageSeqMsgLen < 0 ∧ 2 ^ 31 ≤ n)) :
    Refused (ptzProtocolVerify pac ⟨command, msglen, msg⟩) ↔
      n + 4 ≤ pac.length ∧ ptzWordAt pac n ≠ ptzByteSum pac n := by
  simp only [ptzProtocolVerify, sum]
  by_cases inside : n + 4 ≤ pac.length
  · have here : (ptzPackageMsgOffset : Int) + msglen + ptzPackageSeqMsgLen = n := by omega
    rw [here, ptzProtocolCrcCal_inside (by omega), ptzWord_inside inside]
    simp only [Option.bind_eq_bind, Option.bind_some, inside, true_and]
    by_cases same : ptzWordAt pac n = ptzByteSum pac n
    · rw [if_neg (not_not_intro same)]
      refine iff_of_false ?_ (not_not_intro same)
      cases ptzWord pac ((n : Int) + 4) with
      | none => exact not_refused_none
      | some stopbit => exact not_refused_zero
    · rw [if_pos same]
      exact iff_of_true refused_error same
  · have word : ptzWord pac (ptzPackageMsgOffset + msglen + ptzPackageSeqMsgLen) = none :=
      ptzWord_outside (by omega)
    rw [word]
    refine iff_of_false ?_ (fun both => inside both.1)
    cases ptzProtocolCrcCal pac n with
    | none => exact not_refused_none
    | some calVerify => exact not_refused_none

/-- What the analysis refuses: no memory for the message, or a wrong sum. -/
theorem ptzProtocolNetworkDataAnalysis_refused_iff (allocated : Bool) (len : Nat)
    (lmsg : PtzProtocolMsg)
    (long : 16 ≤ pac.length) (short : pac.length < 2 ^ 31) :
    Refused (ptzProtocolNetworkDataAnalysis allocated pac len lmsg) ↔
      ptzWordAt pac 0 = ptzPackageHead ∧
        ((0 < ptzMsglen (ptzWordAt pac 8) ∧ allocated = false) ∨
          (ptzChecksumPlace pac + 4 ≤ pac.length ∧
            ptzWordAt pac (ptzChecksumPlace pac) ≠ ptzByteSum pac (ptzChecksumPlace pac))) := by
  obtain ⟨sum, place⟩ := ptzMsglen_place pac
  have verified (msg : Option (List UInt8)) :=
    ptzProtocolVerify_refused_iff (ptzWordAt pac 12) msg short sum place
  unfold ptzProtocolNetworkDataAnalysis PtzProtocolPac.head PtzProtocolPac.len
    PtzProtocolPac.command
  rw [ptzWord_bind (by omega : 0 + 4 ≤ pac.length)]
  by_cases same : ptzPackageHead = ptzWordAt pac 0
  · rw [if_neg (not_not_intro same), ← same, ptzWord_bind (by omega : 8 + 4 ≤ pac.length),
      ptzWord_bind (by omega : 12 + 4 ≤ pac.length)]
    simp only [true_and]
    by_cases message : 0 < ptzMsglen (ptzWordAt pac 8)
    · rw [if_pos message]
      cases allocated with
      | false => exact iff_of_true refused_error (.inl ⟨message, rfl⟩)
      | true =>
          simp only [if_true, Bool.true_eq_false, and_false, false_or]
          by_cases inside : (ptzPackageMsgOffset : Int) + ptzMsglen (ptzWordAt pac 8) ≤ pac.length
          · rw [slice_bind
              (by omega : ptzPackageMsgOffset + (ptzMsglen (ptzWordAt pac 8)).toNat ≤ pac.length)]
            exact verified _
          · -- The copy already ends behind the buffer, and the checksum is farther still.
            rw [slice_outside (by omega)]
            refine iff_of_false not_refused_none fun ⟨fits, _⟩ => ?_
            omega
    · rw [if_neg message, verified]
      simp only [message, false_and, false_or]
  · rw [if_pos same]
    exact iff_of_false not_refused_zero fun both => same both.1.symm

end Refused

/-! ## Malformed datagrams -/

/-- Not a package: too short, or one of the words at fixed places is not what it
    has to be, or the checksum is not the sum of the bytes in front of it. -/
def Malformed (datagram : List UInt8) : Prop :=
  let pac := abyBuffer datagram
  datagram.length < ptzPackageMiniLen ∨ ptzWordAt pac 0 ≠ ptzPackageHead ∨
    (ptzWordAt pac 8).toNat < ptzPackageOverhead ∨ (ptzWordAt pac 8).toNat + 16 ≠ datagram.length ∨
    ptzWordAt pac (ptzChecksumPlace pac) ≠ ptzByteSum pac (ptzChecksumPlace pac)

/-- The analysis returns an error and no handler is called. -/
def Rejected (ptzListObj : List (MsgHandleInfo κ)) (allocated : Bool) (datagram : List UInt8) :
    Prop :=
  Refused (ptzProtocolNetworkDataAnalysis allocated (abyBuffer datagram) datagram.length
    ⟨0, 0, none⟩) ∧
    ethLinkUdpCbkData ptzListObj allocated datagram = some []

/-- The head word is right, and either there is no memory for a message that is
    asked for, or a wrong checksum is found inside the buffer. -/
def Caught (allocated : Bool) (datagram : List UInt8) : Prop :=
  let pac := abyBuffer datagram
  ptzWordAt pac 0 = ptzPackageHead ∧
    ((20 < (ptzWordAt pac 8).toNat ∧ (ptzWordAt pac 8).toNat < 2 ^ 31 + 20 ∧ allocated = false) ∨
      (ptzChecksumPlace pac + 4 ≤ 512 ∧ ptzWordAt pac (ptzChecksumPlace pac) ≠ ptzByteSum pac
        (ptzChecksumPlace pac)))

section Datagram

variable {ptzListObj : List (MsgHandleInfo κ)} {allocated : Bool} {datagram : List UInt8}

theorem length_abyBuffer (fits : datagram.length ≤ 512) : (abyBuffer datagram).length = 512 := by
  rw [abyBuffer, List.length_append, List.length_replicate]
  omega

theorem ethProtocolHandler_refused {msg : List UInt8} {len : Nat}
    (refused : Refused (ptzProtocolNetworkDataAnalysis allocated msg len ⟨0, 0, none⟩)) :
    ethProtocolHandler ptzListObj allocated msg len = some [] := by
  obtain ⟨ret, lmsg, result, nonzero⟩ := refused
  rw [ethProtocolHandler, result]
  exact if_pos nonzero.symm

theorem rejected_iff (fits : datagram.length ≤ 512) :
    Rejected ptzListObj allocated datagram ↔ Caught allocated datagram := by
  have length := length_abyBuffer fits
  have refused := ptzProtocolNetworkDataAnalysis_refused_iff allocated datagram.length ⟨0, 0, none⟩
    (by omega : 16 ≤ (abyBuffer datagram).length) (by omega)
  rw [ptzMsglen_pos_iff, length, and_assoc] at refused
  exact ⟨fun rejected => refused.mp rejected.1,
    fun caught => ⟨refused.mpr caught, ethProtocolHandler_refused (refused.mpr caught)⟩⟩

end Datagram

/-- Malformed datagrams are rejected when they are caught, and only then: a wrong
    head word and a length that agrees with nothing are not errors by themselves. -/
theorem malformed_rejected_iff (ptzListObj : List (MsgHandleInfo κ)) (allocated : Bool)
    (datagram : List UInt8)
    (fits : datagram.length ≤ 512) :
    (Malformed datagram → Rejected ptzListObj allocated datagram) ↔
      (Malformed datagram → Caught allocated datagram) := by
  rw [rejected_iff fits]

/-- Sixteen bytes with the head word, length zero and command one. -/
def zeroLengthDatagram : List UInt8 :=
  [0x88, 0x89, 0x80, 0x8A, 0x2A, 0x23, 0, 0, 0, 0, 0, 0, 1, 0, 0, 0]

theorem malformed_rejected_iff_zeroLength :
    (Malformed zeroLengthDatagram → Rejected [⟨1, some ()⟩] true zeroLengthDatagram) ↔
      (Malformed zeroLengthDatagram → Caught true zeroLengthDatagram) :=
  malformed_rejected_iff [⟨1, some ()⟩] true zeroLengthDatagram (by decide)

/-- The handler of command one is called for it, with no message. -/
theorem malformed_dispatched :
    ¬ ∀ (ptzListObj : List (MsgHandleInfo Unit)) (allocated : Bool) (datagram : List UInt8),
      datagram.length ≤ 512 → Malformed datagram → Rejected ptzListObj allocated datagram := by
  intro all
  have short : Malformed zeroLengthDatagram := .inl (by decide)
  obtain ⟨-, nothing⟩ := all [⟨1, some ()⟩] true zeroLengthDatagram (by decide) short
  have called : ethLinkUdpCbkData [⟨1, some ()⟩] true zeroLengthDatagram =
      some [((), ⟨1, -20, none⟩)] := by decide +kernel
  rw [called] at nothing
  cases nothing

/-! ## Reading no more than the datagram -/

/-- The analysis of just the datagram makes no access outside of it. -/
def ReadsInside (datagram : List UInt8) (lmsg : PtzProtocolMsg) : Prop :=
  (ptzProtocolNetworkDataAnalysis true datagram datagram.length lmsg).isSome

/-- The checksum word lies inside, and behind a checksum that is right the stop word
    does as well. -/
def ChecksumInside (pac : List UInt8) (msglen : Int) : Prop :=
  ∃ place : Nat, ptzPackageMsgOffset + msglen + ptzPackageSeqMsgLen = place ∧
    place + 4 ≤ pac.length ∧
    (ptzWordAt pac place = ptzByteSum pac place → place + 8 ≤ pac.length)

section Reads

variable {pac : List UInt8}

theorem ptzWord_isSome_iff {i : Nat} : (ptzWord pac i).isSome ↔ i + 4 ≤ pac.length := by
  by_cases inside : i + 4 ≤ pac.length
  · rw [ptzWord_inside inside]
    exact iff_of_true rfl inside
  · rw [ptzWord_outside (by omega)]
    exact iff_of_false Bool.noConfusion inside

theorem ptzProtocolVerify_isSome_iff (command : UInt32) {msglen : Int} (msg : Option (List UInt8))
    (small : msglen < 2 ^ 31) :
    (ptzProtocolVerify pac ⟨command, msglen, msg⟩).isSome ↔ ChecksumInside pac msglen := by
  have offset : ptzPackageMsgOffset = 24 := rfl
  have seq : ptzPackageSeqMsgLen = 4 := rfl
  by_cases inside : 0 ≤ ptzPackageMsgOffset + msglen + ptzPackageSeqMsgLen ∧
      ptzPackageMsgOffset + msglen + ptzPackageSeqMsgLen + 4 ≤ pac.length
  · obtain ⟨place, here⟩ := Int.eq_ofNat_of_zero_le inside.1
    have fits : place + 4 ≤ pac.length := by omega
    have sum : unsigned 32 (place : Int) = place := by
      simp only [unsigned]
      omega
    have after : (place : Int) + 4 = ((place + 4 : Nat) : Int) := rfl
    have found : ChecksumInside pac msglen ↔
        (ptzWordAt pac place = ptzByteSum pac place → place + 8 ≤ pac.length) := by
      constructor
      · rintro ⟨place', same, -, right⟩
        obtain rfl : place' = place := by omega
        exact right
      · exact fun right => ⟨place, here, fits, right⟩
    rw [found, ptzProtocolVerify]
    simp only [here, sum]
    rw [ptzProtocolCrcCal_inside (by omega), ptzWord_inside fits, after]
    simp only [Option.bind_eq_bind, Option.bind_some]
    by_cases same : ptzWordAt pac place = ptzByteSum pac place
    · rw [if_neg (not_not_intro same)]
      rw [forall_prop_of_true same]
      refine Iff.trans ?_ (ptzWord_isSome_iff : (ptzWord pac ((place + 4 : Nat) : Int)).isSome ↔ _)
      cases ptzWord pac ((place + 4 : Nat) : Int) with
      | none => exact Iff.rfl
      | some stopbit => exact iff_of_true rfl rfl
    · rw [if_pos same]
      exact iff_of_true rfl fun equal => absurd equal same
  · have word : ptzWord pac (ptzPackageMsgOffset + msglen + ptzPackageSeqMsgLen) = none :=
      ptzWord_outside (by omega)
    have away : ¬ ChecksumInside pac msglen := by
      rintro ⟨place, here, fits, -⟩
      exact inside (by omega)
    refine iff_of_false ?_ away
    simp only [ptzProtocolVerify, word]
    cases ptzProtocolCrcCal pac (unsigned 32 (ptzPackageMsgOffset + msglen + ptzPackageSeqMsgLen))
      with
    | none => exact Bool.noConfusion
    | some calVerify => exact Bool.noConfusion

theorem ptzMsglen_bounds (len : UInt32) : -2 ^ 31 ≤ ptzMsglen len ∧ ptzMsglen len < 2 ^ 31 := by
  have bound := len.toNat_lt
  rcases ptzMsglen_cases len with ⟨small, eq⟩ | ⟨large, eq⟩
  · omega
  · omega

end Reads

/-- The parser reads only the datagram exactly when the head word is wrong, or the
    length field leads to a checksum inside of it, with the stop word behind one
    that is right. -/
theorem readsInside_iff (datagram : List UInt8) (lmsg : PtzProtocolMsg)
    (long : ptzPackageMiniLen ≤ datagram.length) :
    ReadsInside datagram lmsg ↔
      ptzWordAt datagram 0 ≠ ptzPackageHead ∨
      ChecksumInside datagram (ptzMsglen (ptzWordAt datagram 8)) := by
  have mini : ptzPackageMiniLen = 36 := rfl
  have offset : ptzPackageMsgOffset = 24 := rfl
  have seq : ptzPackageSeqMsgLen = 4 := rfl
  have small := (ptzMsglen_bounds (ptzWordAt datagram 8)).2
  have verified (command : UInt32) (msg : Option (List UInt8)) :
      (ptzProtocolVerify datagram ⟨command, ptzMsglen (ptzWordAt datagram 8), msg⟩).isSome ↔
        ChecksumInside datagram (ptzMsglen (ptzWordAt datagram 8)) :=
    ptzProtocolVerify_isSome_iff command msg small
  unfold ReadsInside ptzProtocolNetworkDataAnalysis PtzProtocolPac.head PtzProtocolPac.len
    PtzProtocolPac.command
  rw [ptzWord_bind (by omega : 0 + 4 ≤ datagram.length)]
  by_cases same : ptzPackageHead = ptzWordAt datagram 0
  · rw [if_neg (not_not_intro same), ← same, ptzWord_bind (by omega : 8 + 4 ≤ datagram.length),
      ptzWord_bind (by omega : 12 + 4 ≤ datagram.length), or_iff_right (not_not_intro rfl)]
    simp only [if_true]
    generalize ptzMsglen (ptzWordAt datagram 8) = msglen at small verified ⊢
    by_cases message : 0 < msglen
    · rw [if_pos message]
      by_cases inside : (ptzPackageMsgOffset : Int) + msglen ≤ datagram.length
      · rw [slice_bind (by omega : ptzPackageMsgOffset + msglen.toNat ≤ datagram.length)]
        exact verified _ _
      · -- Where the copy ends outside, so does the checksum.
        rw [slice_outside (by omega)]
        refine iff_of_false Bool.noConfusion ?_
        rintro ⟨place, here, fits, -⟩
        omega
    · rw [if_neg message]
      exact verified _ _
  · rw [if_pos same]
    exact iff_of_true rfl (.inl fun head => same head.symm)

/-- A package with the length field `len`, all zero behind it. -/
def lengthDatagram (len : UInt8) : List UInt8 :=
  [0x88, 0x89, 0x80, 0x8A, 0x2A, 0x23, 0, 0, len, 0, 0, 0] ++ List.replicate 24 0

theorem readsInside_iff_empty :
    ReadsInside (lengthDatagram 20) ⟨0, 0, none⟩ ↔
      ptzWordAt (lengthDatagram 20) 0 ≠ ptzPackageHead ∨
        ChecksumInside (lengthDatagram 20) (ptzMsglen (ptzWordAt (lengthDatagram 20) 8)) :=
  readsInside_iff (lengthDatagram 20) ⟨0, 0, none⟩ (by decide)

/-- A length field of 100 leads behind the 36 bytes that have come. -/
theorem readsInside_short :
    ¬ ∀ (datagram : List UInt8) (lmsg : PtzProtocolMsg), ptzPackageMiniLen ≤ datagram.length →
      ReadsInside datagram lmsg := by
  intro all
  have outside : ¬ (ptzProtocolNetworkDataAnalysis true (lengthDatagram 100) 36
      ⟨0, 0, none⟩).isSome := by decide
  exact outside (all (lengthDatagram 100) ⟨0, 0, none⟩ (by decide))

end PtzAgx.EthLink
