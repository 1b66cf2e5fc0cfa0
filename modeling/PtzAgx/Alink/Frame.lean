import PtzAgx.Alink.RecvStream

/-! # What a frame says

A packet is what a sender wants to say; its frame is the byte string that says
it. The fields are bounded so that every packet has a frame that the checks
accept, and the frame determines the packet. The senders of the program fill
their buffers field by field; that the result is the frame of a packet is shown
where they are modelled.
-/

namespace PtzAgx.Alink

open Bytes Words Framing

/-- The fields of a message. A frame is counted by an `uint16_t`. -/
structure AlinkPacket where
  seq : UInt8
  destid : UInt8
  sourceid : UInt8
  msgid : UInt8
  ans : UInt8
  payload : List UInt8
  fits : payload.length + alinkNoPayloadSize ≤ 65535

namespace AlinkPacket

variable (p : AlinkPacket)

/-- The header in front of its checksum. -/
def fields : List UInt8 :=
  [alinkMsgMagicValue, UInt8.ofNat p.payload.length, UInt8.ofNat (p.payload.length / 256),
    p.seq, p.destid, p.sourceid, p.msgid, p.ans]

def head : List UInt8 := p.fields ++ [p.fields.foldl (· + ·) 0]

/-- The CRC covers everything between the magic byte and itself. -/
def crc : UInt16 := crcOver x25InitCrc (p.head ++ p.payload).tail

def frame : List UInt8 := p.head ++ p.payload ++ [p.crc.toUInt8, (p.crc >>> 8).toUInt8]

theorem length_frame : p.frame.length = p.payload.length + 11 := by
  simp only [frame, head, fields, List.length_append, List.length_cons, List.length_nil]
  omega

theorem payloadSize_frame :
    (alinkGetPayloadSize (Ptr.ofList p.frame)).toNat = p.payload.length := by
  have fits := p.fits
  have read : alinkGetPayloadSize (Ptr.ofList p.frame) =
      word16 (UInt8.ofNat (p.payload.length / 256)) (UInt8.ofNat p.payload.length) := rfl
  rw [read, word16_split, wrap_of_lt (by simp only [alinkNoPayloadSize] at fits; omega)]

theorem packageSize_frame : alinkGetPackageSize (Ptr.ofList p.frame) = p.frame.length := by
  rw [alinkGetPackageSize_eq, payloadSize_frame, length_frame]

theorem read_frame : (Ptr.ofList p.frame).read p.frame.length = p.frame := Ptr.read_ofList p.frame

theorem length_body : (p.head ++ p.payload).length = p.payload.length + 9 := by
  simp only [head, fields, List.length_append, List.length_cons, List.length_nil]
  omega

theorem covered_frame :
    ((Ptr.ofList p.frame).advance 1).read (p.payload.length + 8) = (p.head ++ p.payload).tail :=
  (Ptr.ofList_trailer p.length_body _ _).1

theorem crc_frame :
    Ptr.ofList p.frame (p.payload.length + 9) = p.crc.toUInt8 ∧
      Ptr.ofList p.frame (p.payload.length + 9 + 1) = (p.crc >>> 8).toUInt8 :=
  (Ptr.ofList_trailer p.length_body _ _).2

theorem crc_checked : alinkCheckCrc (Ptr.ofList p.frame) p.frame.length = true := by
  have fits := p.fits
  simp only [alinkNoPayloadSize] at fits
  have three : wrapSub 32 p.frame.length 3 = p.payload.length + 8 := by
    rw [wrapSub_of_le] <;> rw [p.length_frame] <;> omega
  have two : wrapSub 32 p.frame.length 2 = p.payload.length + 9 := by
    rw [wrapSub_of_le] <;> rw [p.length_frame] <;> omega
  have covered : wrap 16 (p.payload.length + 8) = p.payload.length + 8 := wrap_of_lt (by omega)
  simp only [alinkCheckCrc, p.packageSize_frame, if_true, three, two, crcCalculate, covered,
    p.covered_frame, Ptr.advance_apply, Nat.add_zero, p.crc_frame, word16_bytes, beq_iff_eq, crc]

theorem header_checked : alinkCheckHeaderChecksum (Ptr.ofList p.frame) = true := by
  have summed : (Ptr.ofList p.frame).read alinkHeaderChecksumLen = p.fields := rfl
  have stored : MsgHead.checksum (Ptr.ofList p.frame) = p.fields.foldl (· + ·) 0 := by
    unfold frame head
    rw [List.append_assoc, List.append_assoc]
    exact Ptr.ofList_append_cons p.fields _ _
  rw [alinkCheckHeaderChecksum, alinkGetHeaderChecksum, summed, stored, beq_self_eq_true]

theorem frame_accepted : Accepted p.frame := by
  have fits := p.fits
  simp only [alinkNoPayloadSize] at fits
  have counted := p.length_frame
  have whole : wrap 16 p.frame.length = p.frame.length := wrap_of_lt (by omega)
  have enough : ¬ alinkNoPayloadSize > p.frame.length := by
    simp only [alinkNoPayloadSize]
    omega
  have magic : alinkCheckMagic (Ptr.ofList p.frame 0) = true := rfl
  have long : 11 ≤ p.frame.length := by
    rw [counted]
    exact Nat.le_add_left 11 p.payload.length
  have short : p.frame.length ≤ 65535 := by
    rw [counted]
    exact fits
  refine ⟨long, short, ?_⟩
  simp only [alinkCheckPackage, whole, magic, enough, p.header_checked, p.crc_checked,
    if_true, if_false]

end AlinkPacket

/-- A message as `alink_order_task` takes it apart: the header fields, and as
    many bytes behind the header as the header announces. -/
structure Carries (msg : List UInt8) (p : AlinkPacket) : Prop where
  seq : MsgHead.seq (Ptr.ofList msg) = p.seq
  destid : MsgHead.destid (Ptr.ofList msg) = p.destid
  sourceid : MsgHead.sourceid (Ptr.ofList msg) = p.sourceid
  msgid : MsgHead.msgid (Ptr.ofList msg) = p.msgid
  ans : MsgHead.ans (Ptr.ofList msg) = p.ans
  payload : ((Ptr.ofList msg).advance alinkMsgHeadSize).read
    (alinkGetPayloadSize (Ptr.ofList msg)).toNat = p.payload

theorem AlinkPacket.carries (p : AlinkPacket) : Carries p.frame p where
  seq := rfl
  destid := rfl
  sourceid := rfl
  msgid := rfl
  ans := rfl
  payload := by
    have nine : p.head.length = alinkMsgHeadSize := rfl
    have body := (Ptr.read_of_append (Ptr.read_of_append p.read_frame).1).2
    rwa [nine, ← p.payloadSize_frame] at body

/-- The receiver, given these bytes in one import, makes exactly one callback,
    for this packet, and looks for the next magic byte. -/
def DeliveredAs (bytes : List UInt8) (p : AlinkPacket) : Prop :=
  ∀ mem psHandle psRecv sImport, Ready mem psHandle psRecv sImport bytes →
    ∃ psRecv' d, alinkRecvTask mem psRecv sImport = some (psRecv', [d]) ∧ d.psHandle = psHandle ∧
      Carries d.msg p ∧ psRecv'.puState = .checkMagic

theorem AlinkPacket.delivered (p : AlinkPacket) : DeliveredAs p.frame p := by
  intro mem psHandle psRecv sImport ready
  obtain ⟨psRecv', ran, state⟩ := alinkRecvTask_frame ready p.frame_accepted.isFrame
  refine ⟨psRecv', _, ran, rfl, ?_, state⟩
  have bytes : (dispatchOf mem psHandle sImport sImport.pbyData p.frame.length).msg = p.frame :=
    ready.stored
  rw [bytes]
  exact p.carries

end PtzAgx.Alink
