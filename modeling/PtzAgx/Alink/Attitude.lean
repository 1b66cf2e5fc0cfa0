import PtzAgx.Alink.Commands

/-! # Which radar an attitude comes from

All radar connections dispatch to one table, and `track_pkg_tracked` and
`track_pkg_attitude` of `command/track/alink_track.c` share one package. A run
is any sequence of messages, each with the connection it arrived on. A tracked
message is forwarded with the attitude the package holds, which is whatever any
connection wrote last.
-/

namespace PtzAgx.Alink

open Bytes

variable {κ : Type}

structure RadarMsg (κ : Type) where
  conn : κ
  psImport : AlinkOrderImport
  pbyMsg : Ptr UInt8

namespace RadarMsg

def payload (m : RadarMsg κ) : AlinkPayload := alinkPayloadOf m.psImport m.pbyMsg

/-- The message reaches the handler of this command. -/
def Calls (c : RecordCmd) (m : RadarMsg κ) : Prop :=
  MsgHead.msgid m.pbyMsg = c.byCmd ∧ c.wPayloadLen ≤ m.payload.wLength

instance (c : RecordCmd) (m : RadarMsg κ) : Decidable (m.Calls c) :=
  inferInstanceAs (Decidable (_ ∧ _))

/-- What a message writes to byte `i` of the attitude. A tracked message gets
    there only if it is longer than its record. -/
def attitudeWrite (m : RadarMsg κ) (i : Nat) : Option UInt8 :=
  if m.Calls .attitude then
    if i < m.payload.wLength then some (m.payload.pbyData i) else none
  else if m.Calls .tracked then
    if alinkTrackTrackedSize + i < m.payload.wLength
      then some (m.payload.pbyData (alinkTrackTrackedSize + i)) else none
  else none

end RadarMsg

/-- Byte `i` of the attitude as these messages leave it, zero to begin with. -/
def attitudeByte (messages : List (RadarMsg κ)) (i : Nat) : UInt8 :=
  messages.foldl (fun byte m => (m.attitudeWrite i).getD byte) 0

/-- The attitude messages of one connection. -/
def attitudesOf [DecidableEq κ] (conn : κ) (messages : List (RadarMsg κ)) : List (RadarMsg κ) :=
  messages.filter fun m => m.conn = conn ∧ m.Calls .attitude

def radarRun (psOrder : AlinkOrder TrackWorld) (world : TrackWorld) (messages : List (RadarMsg κ)) :
    TrackWorld :=
  messages.foldl (fun world m => (alinkOrderTask psOrder m.psImport m.pbyMsg world).2) world

/-- A package made of the tracked report of `m` and of what its connection had
    sent of the attitude before. -/
structure PairedWith [DecidableEq κ] (m : RadarMsg κ) (before : List (RadarMsg κ))
    (msg : List UInt8) : Prop where
  tracked : ∀ j, j < m.payload.wLength → j < alinkTrackTrackedSize →
    msg[sizeofInt + j]? = some (m.payload.pbyData j)
  attitude : msg.drop (sizeofInt + alinkTrackTrackedSize) =
    Ptr.read (attitudeByte (attitudesOf m.conn before)) alinkTrackAttitudeSize

/-- Every tracked message that reaches its handler is forwarded in such a
    package. -/
def AllPaired [DecidableEq κ] (psOrder : AlinkOrder TrackWorld) (world : TrackWorld)
    (messages : List (RadarMsg κ)) : Prop :=
  ∀ before m after, messages = before ++ m :: after → m.Calls .tracked →
    ∃ msg, (radarRun psOrder world (before ++ [m])).algMsgs =
    (radarRun psOrder world before).algMsgs ++ [msg] ∧
      PairedWith m before msg

/-- At every tracked message, each byte of the attitude that was last written by
    any connection has the value the message's own connection sent for it last. -/
def OwnAttitudesLast [DecidableEq κ] (messages : List (RadarMsg κ)) : Prop :=
  ∀ before m after, messages = before ++ m :: after → m.Calls .tracked →
    ∀ i < alinkTrackAttitudeSize, attitudeByte (before ++ [m]) i = attitudeByte
    (attitudesOf m.conn before) i

section Steps

variable {psOrder : AlinkOrder TrackWorld} {m : RadarMsg κ} {before messages : List (RadarMsg κ)}
  {i : Nat}

/-- Where the attitude begins in the package. -/
def attitudeOffset : Nat := sizeofInt + alinkTrackTrackedSize

theorem alinkOrderTask_tracked (table : psOrder.psCmdList = alinkTrackInit) (world : TrackWorld)
    (tracked : m.Calls .tracked) : (alinkOrderTask psOrder m.psImport m.pbyMsg world).2 =
      { world with
        pack := trackedWrites m.payload world.pack
        algMsgs := world.algMsgs ++
          [(trackedWrites m.payload world.pack).read radarTrackInfoPackagesSize] } := by
  have handled : psOrder.psCmdList = RecordCmd.tracked.table := table
  rw [alinkOrderTask_handled world handled tracked.1 tracked.2]
  rfl

theorem alinkOrderTask_attitude (table : psOrder.psCmdList = alinkTrackInit) (world : TrackWorld)
    (attitude : m.Calls .attitude) : (alinkOrderTask psOrder m.psImport m.pbyMsg world).2 =
      { world with pack := attitudeWrites m.payload world.pack } := by
  have handled : psOrder.psCmdList = RecordCmd.attitude.table := table
  rw [alinkOrderTask_handled world handled attitude.1 attitude.2]
  rfl

theorem alinkOrderTask_other (table : psOrder.psCmdList = alinkTrackInit) (world : TrackWorld)
    (tracked : ¬ m.Calls .tracked) (attitude : ¬ m.Calls .attitude) :
    (alinkOrderTask psOrder m.psImport m.pbyMsg world).2.pack = world.pack := by
  rcases alinkOrderTask_cases psOrder m.psImport m.pbyMsg world with
    alone | ⟨c, member, addressed, enough, pvCmdTask, registered, called⟩
  · rw [alone]
  · rw [called]
    simp only [table, alinkTrackInit, List.mem_cons, List.not_mem_nil, or_false] at member
    rcases member with rfl | rfl | rfl | rfl
    · exact absurd ⟨addressed, enough⟩ tracked
    · exact absurd ⟨addressed, enough⟩ attitude
    · rw [← Option.some.inj registered]
      rfl
    · rw [← Option.some.inj registered]
      rfl

/-- One message writes the attitude as `attitudeWrite` says. -/
theorem alinkOrderTask_attitudeWrite (table : psOrder.psCmdList = alinkTrackInit) (m : RadarMsg κ)
    (world : TrackWorld)
    (i : Nat) : (alinkOrderTask psOrder m.psImport m.pbyMsg world).2.pack (attitudeOffset + i) =
      (m.attitudeWrite i).getD (world.pack (attitudeOffset + i)) := by
  unfold RadarMsg.attitudeWrite
  by_cases attitude : m.Calls .attitude
  · rw [alinkOrderTask_attitude table world attitude, if_pos attitude]
    by_cases inside : i < m.payload.wLength
    · rw [if_pos inside]
      exact copyPayload_inside attitudeOffset inside
    · rw [if_neg inside]
      exact copyPayload_outside (.inr (Nat.add_le_add_left (Nat.not_lt.mp inside) attitudeOffset))
  · rw [if_neg attitude]
    by_cases tracked : m.Calls .tracked
    · have behind : sizeofInt ≤ attitudeOffset + i :=
        Nat.le_trans (Nat.le_add_right _ _) (Nat.le_add_right _ i)
      rw [alinkOrderTask_tracked table world tracked, if_pos tracked]
      refine (setTrackPackType_behind .radar behind).trans ?_
      by_cases inside : alinkTrackTrackedSize + i < m.payload.wLength
      · rw [if_pos inside, attitudeOffset, Nat.add_assoc]
        exact copyPayload_inside sizeofInt inside
      · rw [if_neg inside, attitudeOffset, Nat.add_assoc]
        exact copyPayload_outside (.inr (Nat.add_le_add_left (Nat.not_lt.mp inside) sizeofInt))
    · rw [alinkOrderTask_other table world tracked attitude, if_neg tracked]
      rfl

theorem radarRun_attitudeByte (table : psOrder.psCmdList = alinkTrackInit) {world : TrackWorld}
    (zero : world.pack (attitudeOffset + i) = 0) (messages : List (RadarMsg κ)) :
    (radarRun psOrder world messages).pack (attitudeOffset + i) = attitudeByte messages i := by
  rw [attitudeByte, ← zero]
  clear zero
  induction messages generalizing world with
  | nil => rfl
  | cons m messages ih =>
      rw [List.foldl_cons, ← alinkOrderTask_attitudeWrite table m world i]
      exact ih

theorem radarRun_concat (world : TrackWorld) : radarRun psOrder world (before ++ [m]) =
    (alinkOrderTask psOrder m.psImport m.pbyMsg (radarRun psOrder world before)).2 := by
  rw [radarRun, List.foldl_append]
  rfl

/-- The package a tracked message is forwarded in is the one it leaves behind. -/
theorem radarRun_forwards (table : psOrder.psCmdList = alinkTrackInit) (world : TrackWorld)
    (tracked : m.Calls .tracked) :
    (radarRun psOrder world (before ++ [m])).algMsgs = (radarRun psOrder world before).algMsgs ++
      [(radarRun psOrder world (before ++ [m])).pack.read radarTrackInfoPackagesSize] := by
  rw [radarRun_concat, alinkOrderTask_tracked table _ tracked]

theorem radarRun_report (table : psOrder.psCmdList = alinkTrackInit) (world : TrackWorld)
    (tracked : m.Calls .tracked)
    {j : Nat} (inside : j < m.payload.wLength) :
    (radarRun psOrder world (before ++ [m])).pack (sizeofInt + j) = m.payload.pbyData j := by
  rw [radarRun_concat, alinkOrderTask_tracked table _ tracked]
  refine (setTrackPackType_behind .radar (Nat.le_add_right _ _)).trans ?_
  exact copyPayload_inside sizeofInt inside

theorem radarRun_paired_iff [DecidableEq κ] (table : psOrder.psCmdList = alinkTrackInit)
    {world : TrackWorld} (zero : ∀ i, world.pack i = 0)
    (tracked : m.Calls .tracked) :
    PairedWith m before
      ((radarRun psOrder world (before ++ [m])).pack.read radarTrackInfoPackagesSize) ↔
      ∀ i < alinkTrackAttitudeSize, attitudeByte (before ++ [m]) i =
      attitudeByte (attitudesOf m.conn before) i := by
  have record : attitudeOffset + alinkTrackAttitudeSize = radarTrackInfoPackagesSize := rfl
  have attitude := Ptr.drop_read (radarRun psOrder world (before ++ [m])).pack
    (record ▸ Nat.le_add_right _ _ : attitudeOffset ≤ radarTrackInfoPackagesSize)
  rw [← record, Nat.add_sub_cancel_left] at attitude
  constructor
  · rintro ⟨-, paired⟩ i inside
    rw [← record] at paired
    rw [← radarRun_attitudeByte table (zero _)]
    exact Ptr.apply_of_read (attitude.symm.trans paired) inside
  · intro same
    refine ⟨fun j inside short => ?_, ?_⟩
    · have place : sizeofInt + j < radarTrackInfoPackagesSize := by
        rw [← record, attitudeOffset]
        omega
      rw [Ptr.getElem?_read _ place, radarRun_report table world tracked inside]
    · rw [← record]
      refine attitude.trans (Ptr.read_congr fun i inside => ?_)
      rw [Ptr.advance_apply, radarRun_attitudeByte table (zero _), same i inside]

theorem radarRun_step_iff [DecidableEq κ] (table : psOrder.psCmdList = alinkTrackInit)
    {world : TrackWorld}
    (zero : ∀ i, world.pack i = 0) (tracked : m.Calls .tracked) :
    (∃ msg, (radarRun psOrder world (before ++ [m])).algMsgs =
      (radarRun psOrder world before).algMsgs ++ [msg] ∧
      PairedWith m before msg) ↔
    ∀ i < alinkTrackAttitudeSize, attitudeByte (before ++ [m]) i =
      attitudeByte (attitudesOf m.conn before) i := by
  rw [← radarRun_paired_iff table zero tracked, radarRun_forwards table world tracked]
  constructor
  · rintro ⟨msg, forwarded, paired⟩
    rwa [List.singleton_injective (List.append_cancel_left forwarded)]
  · intro paired
    exact ⟨_, rfl, paired⟩

end Steps

/-- Reports are never mixed in exactly the runs in which the attitude received
    last is always the one of the reporting radar. -/
theorem radars_unmixed_iff [DecidableEq κ] (wBufferSize : Nat) (pbyBuffer localPack : Ptr UInt8)
    (messages : List (RadarMsg κ)) :
    AllPaired ⟨wBufferSize, pbyBuffer, alinkTrackInit⟩ ⟨fun _ => 0, localPack, []⟩ messages ↔
      OwnAttitudesLast messages :=
  forall_congr' fun _ => forall_congr' fun _ => forall_congr' fun _ => forall_congr' fun _ =>
    forall_congr' fun tracked => radarRun_step_iff rfl (fun _ => rfl) tracked

/-- An attitude with all its bytes the same. -/
def attitudePacket (byte : UInt8) : AlinkPacket where
  seq := 0
  destid := 0
  sourceid := 0
  msgid := 0x13
  ans := 0
  payload := List.replicate alinkTrackAttitudeSize byte
  fits := by
    rw [List.length_replicate]
    decide

/-- The attitude of the first radar, that of the second, a report of the first. -/
def mixedFrames : List (Nat × List UInt8) :=
  [(1, (attitudePacket 1).frame), (2, (attitudePacket 2).frame),
    (1, { attitudePacket 0 with msgid := 0x12 }.frame)]

/-- The report is forwarded with the attitude of the second radar. -/
theorem radars_mixed :
    ¬ ∀ (psImport : AlinkOrderImport) (wBufferSize : Nat) (pbyBuffer localPack : Ptr UInt8)
      (frames : List (Nat × List UInt8)),
      (∀ f ∈ frames, Accepted f.2 ∧ (MsgHead.msgid (Ptr.ofList f.2) = 0x12 ∨
        MsgHead.msgid (Ptr.ofList f.2) = 0x13)) →
        AllPaired ⟨wBufferSize, pbyBuffer, alinkTrackInit⟩ ⟨fun _ => 0, localPack, []⟩
          (frames.map fun f => ⟨f.1, psImport, Ptr.ofList f.2⟩) := by
  intro unmixed
  let psImport : AlinkOrderImport := { ePortId := 0, pbyMsg := 0, handle := 0, peSend := true }
  have accepted : ∀ f ∈ mixedFrames,
      Accepted f.2 ∧ (MsgHead.msgid (Ptr.ofList f.2) = 0x12 ∨
        MsgHead.msgid (Ptr.ofList f.2) = 0x13) := by
    intro f member
    simp only [mixedFrames, List.mem_cons, List.not_mem_nil, or_false] at member
    rcases member with rfl | rfl | rfl
    · exact ⟨AlinkPacket.frame_accepted _, .inr rfl⟩
    · exact ⟨AlinkPacket.frame_accepted _, .inr rfl⟩
    · exact ⟨AlinkPacket.frame_accepted _, .inl rfl⟩
  let messages : List (RadarMsg Nat) := mixedFrames.map fun f => ⟨f.1, psImport, Ptr.ofList f.2⟩
  have tracked : RadarMsg.Calls .tracked (messages.get ⟨2, by decide⟩) := ⟨rfl, by decide⟩
  have paired := unmixed psImport 8192 (fun _ => 0) (fun _ => 0) mixedFrames accepted
    (messages.take 2) _ [] rfl tracked
  have same := (radarRun_step_iff rfl (fun _ => rfl) tracked).mp paired 0 (by decide)
  exact absurd same (by decide)

end PtzAgx.Alink
