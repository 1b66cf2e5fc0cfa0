import PtzAgx.Algs.AlgRun
import PtzAgx.Algs.Guide
import PtzAgx.App.TargetStore
import PtzAgx.Lib.Counted
import PtzAgx.Lib.CString

/-! # The items the guides read

`radar_read`, `tracerR_read` and `tracerD_read` of `guide.cpp` on a package in
memory, and the way a message of `alink_track.c` takes to get there: copied by
`msg_send_to_alg`, handed on by `algs_handle_multiple_targets`, copied once more
by `insert_target_to_head` and read by the guide `ai_alg_run7` calls. Reading
where memory ends has no result. A `char` is unsigned, arithmetic is exact in a
field `K` as in the radar half. A message that is lost on the way for want of
memory is read by nobody. The diagnostics are left out.
-/

namespace PtzAgx.Algs

open Alink App Bytes Counted Words

/-! ## Records in memory -/

def uintAt (size : Nat) (p : Ptr UInt8) (i : Nat) : Nat := littleEndian ((p.advance i).read size)

def intAt (size : Nat) (p : Ptr UInt8) (i : Nat) : Int := signed (8 * size) (uintAt size p i)

/-- `alink_track_tracked_t`, with `trackObjNum` and `trackPoint`. -/
def alinkTrackTracked : Layout := ⟨1, 5, alinkTrackTrackedItemSize, alinkTargetMax⟩

/-- `alink_drone_id_track_t` and `alink_remote_id_track_t`, with `uDroneNum` and `items`. -/
def alinkDroneIdTrack : Layout := ⟨25, 26, alinkDroneIdItemsSize, alinkTargetMax⟩

def alinkTrackTrackedItemAt (trackPoint : Ptr UInt8) : AlinkTrackTrackedItem where
  id := uintAt 1 trackPoint 0
  stateType := uintAt 1 trackPoint 6
  azimuth := intAt 2 trackPoint 8
  range := uintAt 4 trackPoint 10
  elevation := intAt 2 trackPoint 14
  alive := uintAt 2 trackPoint 26
  x := intAt 4 trackPoint 28
  y := intAt 4 trackPoint 32
  z := intAt 4 trackPoint 36
  threatLevel := uintAt 2 trackPoint 82

/-- Up to `threatLevel`, the last member that is read. -/
def alinkTrackTrackedItemIn (trackPoint : List UInt8) : Option AlinkTrackTrackedItem :=
  (Object.slice trackPoint 0 84).map fun item => alinkTrackTrackedItemAt (Ptr.ofList item)

/-- The members of `alink_drone_id_items_t` and `alink_remote_id_items_t` that are read. -/
structure AlinkDroneIdItem where
  droneName : List UInt8
  droneLongitude : Int
  droneLatitude : Int
  droneHeight : Int
  droneSpeed : Int
  droneVerticalSpeed : Int
  uDistance : Int
  uDangerLevels : Int
  deriving Repr, DecidableEq

def alinkDroneIdItemAt (droneName : List UInt8) (items : Ptr UInt8) : AlinkDroneIdItem where
  droneName
  droneLongitude := intAt 4 items 58
  droneLatitude := intAt 4 items 62
  droneHeight := intAt 2 items 66
  droneSpeed := intAt 2 items 70
  droneVerticalSpeed := intAt 2 items 73
  uDistance := intAt 2 items 87
  uDangerLevels := intAt 2 items 89

/-- A `std::string` is made of `droneName`, which goes on to the next
    zero wherever that is, behind the array or behind the item. -/
def alinkDroneIdItemIn (items : List UInt8) : Option AlinkDroneIdItem :=
  (Object.slice items 0 alinkDroneIdItemsSize).bind fun item =>
    (CString.strlen (items.drop 1)).map fun len =>
      alinkDroneIdItemAt ((items.drop 1).take len) (Ptr.ofList item)

/-- The members of `TracerObj` that are set. -/
structure TracerObj (K : Type) where
  uDroneNum : Int
  droneName : List UInt8
  droneLongitude : K
  droneLatitude : K
  droneHeight : K
  droneSpeed : K
  droneVerticalSpeed : K
  uDistance : K
  uDangerLevels : Int
  deriving Repr, DecidableEq

variable {K : Type} [Field K]

/-- One round of the loop of `tracerR_read` and `tracerD_read`. -/
def tracerObjOf (angle : Int → K) (uDroneNum : Nat) (items : AlinkDroneIdItem) : TracerObj K where
  uDroneNum := uDroneNum
  droneName := items.droneName
  droneLongitude := angle items.droneLongitude
  droneLatitude := angle items.droneLatitude
  droneHeight := items.droneHeight / 10
  droneSpeed := items.droneSpeed / 100
  droneVerticalSpeed := items.droneVerticalSpeed / 100
  uDistance := items.uDistance
  uDangerLevels := items.uDangerLevels

/-- The items `radar_read` goes through, in the memory behind the type. `radarRead` makes
    objects of them. -/
def trackPoints (trackTracked : List UInt8) : Option (List AlinkTrackTrackedItem) :=
  alinkTrackTracked.readItems alinkTrackTrackedItemIn trackTracked

/-- The items both other readers go through. -/
def droneItems (record : List UInt8) : Option (List AlinkDroneIdItem) :=
  alinkDroneIdTrack.readItems alinkDroneIdItemIn record

/-- Both readers, which differ in the unit of their angles. -/
def tracerRead (angle : Int → K) (record : List UInt8) (objList : List (TracerObj K)) :
    Option (Int × List (TracerObj K)) :=
  (record[alinkDroneIdTrack.count]?).bind fun uDroneNum =>
    (droneItems record).map fun items =>
      (0, objList ++ items.map (tracerObjOf angle uDroneNum.toNat))

def tracerRRead : List UInt8 → List (TracerObj K) → Option (Int × List (TracerObj K)) :=
  tracerRead fun z => z / 10 ^ 7

def tracerDRead (mPi : K) : List UInt8 → List (TracerObj K) → Option (Int × List (TracerObj K)) :=
  tracerRead fun z => z / (10 ^ 7 * mPi) * 180

/-- The guide's reader stays in the block. -/
def AlgAct.readable : AlgAct → Bool
  | .radarGuide radarT => (trackPoints radarT.trackInfo).isSome
  | .tracerGuideR remoteid => (droneItems remoteid.trackInfo).isSome
  | .tracerGuideD droneid => (droneItems droneid.trackInfo).isSome
  | .stoppingTracking | .searchAndTracking => true

/-- Whatever guide is called with this package finds all that it reads in it. -/
def TrackInfoPackages.Readable (targets : TrackInfoPackages) : Prop :=
  ∀ act ∈ guideTo targets, act.readable = true

section Within

variable {p q : Ptr UInt8} {n size i : Nat}

theorem read_within (same : p.read n = q.read n) (inside : i + size ≤ n) :
    (p.advance i).read size = (q.advance i).read size := by
  apply Ptr.read_congr
  intro j small
  exact Ptr.apply_of_read same (by omega)

theorem uintAt_congr (same : p.read n = q.read n) (inside : i + size ≤ n) :
    uintAt size p i = uintAt size q i :=
  congrArg littleEndian (read_within same inside)

theorem intAt_congr (same : p.read n = q.read n) (inside : i + size ≤ n) :
    intAt size p i = intAt size q i :=
  congrArg (signed (8 * size)) (uintAt_congr same inside)

theorem alinkTrackTrackedItemAt_congr (same : p.read 84 = q.read 84) :
    alinkTrackTrackedItemAt p = alinkTrackTrackedItemAt q := by
  unfold alinkTrackTrackedItemAt
  simp (disch := decide) only [uintAt_congr same, intAt_congr same]

theorem alinkDroneIdItemAt_congr (droneName : List UInt8)
    (same : p.read alinkDroneIdItemsSize = q.read alinkDroneIdItemsSize) :
    alinkDroneIdItemAt droneName p = alinkDroneIdItemAt droneName q := by
  unfold alinkDroneIdItemAt
  simp (disch := decide) only [intAt_congr same]

end Within

section Memory

variable {memory : List UInt8} {p : Ptr UInt8}

theorem ofList_slice {n size : Nat} {cells : List UInt8} (small : n ≤ size)
    (read : Object.slice memory 0 n = some cells)
    (same : p.read size = (Ptr.ofList memory).read size) :
    (Ptr.ofList cells).read n = p.read n := by
  have inside := (Object.slice_isSome_iff (i := 0)).mp (Option.isSome_of_mem read)
  have taken := read.symm.trans (Object.slice_inside (i := 0) inside)
  obtain rfl := Option.some.inj taken
  apply Ptr.read_congr
  intro i within
  rw [List.drop_zero, Ptr.ofList_take memory within]
  exact (Ptr.apply_of_read same (by omega)).symm

theorem alinkTrackTrackedItemIn_eq {item : AlinkTrackTrackedItem}
    (read : alinkTrackTrackedItemIn memory = some item)
    (same : p.read alinkTrackTrackedItemSize = (Ptr.ofList memory).read alinkTrackTrackedItemSize) :
    item = alinkTrackTrackedItemAt p := by
  obtain ⟨cells, sliced, rfl⟩ := Option.map_eq_some_iff.mp read
  exact alinkTrackTrackedItemAt_congr (ofList_slice (by decide) sliced same)

theorem alinkDroneIdItemIn_eq {item : AlinkDroneIdItem}
    (read : alinkDroneIdItemIn memory = some item)
    (same : p.read alinkDroneIdItemsSize = (Ptr.ofList memory).read alinkDroneIdItemsSize) :
    { item with droneName := [] } = alinkDroneIdItemAt [] p := by
  obtain ⟨cells, sliced, named⟩ := Option.bind_eq_some_iff.mp read
  obtain ⟨len, -, rfl⟩ := Option.map_eq_some_iff.mp named
  exact alinkDroneIdItemAt_congr [] (ofList_slice (Nat.le_refl _) sliced same)

theorem alinkDroneIdItemIn_isSome (long : alinkDroneIdItemsSize ≤ memory.length)
    (ends : 0 ∈ memory.drop 1) :
    (alinkDroneIdItemIn memory).isSome := by
  have inside : (Object.slice memory 0 alinkDroneIdItemsSize).isSome :=
    (Object.slice_isSome_iff (i := 0)).mpr (by omega)
  obtain ⟨cells, sliced⟩ := Option.isSome_iff_exists.mp inside
  obtain ⟨len, measured⟩ := CString.exists_strlen ends
  rw [alinkDroneIdItemIn, sliced, Option.bind_some, measured]
  rfl

end Memory

/-! ## From the handlers to the guides -/

/-- `target` as `algs_handle_multiple_targets` fills it. -/
def targetOf (pack : Ptr UInt8) (packSize : Int) : TargetPackInfo where
  dataDevType := intAt sizeofInt pack 0
  targetPack := pack
  packLen := packSize

def algsHandleMultipleTargets (fuel : Nat) (nodeAt packAt : Option Nat) (pack : Ptr UInt8)
    (packSize : Int)
    (algT : AlgAppRes) : Option (Int × AlgAppRes) :=
  if packSize ≤ 0 then some (-1, algT) else insertTargetToHead fuel nodeAt packAt
    (some (targetOf pack packSize)) algT

/-- A block of the store as `ai_alg_run7` takes it. -/
def TrackInfoPackages.ofBlock (bytes : List UInt8) : TrackInfoPackages where
  trackPackType := intAt sizeofInt (Ptr.ofList bytes) 0
  trackInfo := bytes.drop sizeofInt

/-- The array a guide's reader goes through, in the record behind the type. -/
def AlgAct.reads : AlgAct → Option Layout
  | .radarGuide _ => some alinkTrackTracked
  | .tracerGuideR _ | .tracerGuideD _ => some alinkDroneIdTrack
  | .stoppingTracking | .searchAndTracking => none

/-- What the guide's reader takes out of the memory behind the type, it takes out of the
    payload's items. Only a name may end elsewhere. -/
def AlgAct.ReadsPayload (psPayload : AlinkPayload) (memory : List UInt8) : AlgAct → Prop
  | .radarGuide _ => ∀ items, trackPoints memory = some items →
      items = (List.range items.length).map fun i =>
        alinkTrackTrackedItemAt (alinkTrackTracked.item psPayload.pbyData i)
  | .tracerGuideR _ | .tracerGuideD _ => ∀ items, droneItems memory = some items →
      (items.map fun item => { item with droneName := [] }) = (List.range items.length).map fun i =>
        alinkDroneIdItemAt [] (alinkDroneIdTrack.item psPayload.pbyData i)
  | .stoppingTracking | .searchAndTracking => True

/-- Whatever guide is called with the copy of this message, and whatever lies
    behind the copy, all that its reader takes for items is the payload's, and so is
    what it makes of them. -/
def ItemsBacked (msg : List UInt8) (psPayload : AlinkPayload) : Prop :=
  let block := (targetOf (Ptr.ofList msg) msg.length).content.bytes
  ∀ act ∈ guideTo (TrackInfoPackages.ofBlock block),
    (∀ l, act.reads = some l → ∀ pack : Ptr UInt8, pack.read block.length = block →
      l.Backed (pack.advance sizeofInt) psPayload.pbyData psPayload.wLength) ∧
    ∀ behind, act.ReadsPayload psPayload ((block ++ behind).drop sizeofInt)

/-- Messages for the commands of `alink_track_init`, dispatched one after the
    other. Whatever they make a handler forward is backed. -/
def RunBacked (psOrder : AlinkOrder TrackWorld) :
    TrackWorld → List (AlinkOrderImport × Ptr UInt8) → Prop
  | _, [] => True
  | world, (psImport, pbyMsg) :: messages =>
      let world' := (alinkOrderTask psOrder psImport pbyMsg world).2
      (∀ msg, world'.algMsgs = world.algMsgs ++ [msg] →
        ItemsBacked msg (alinkPayloadOf psImport pbyMsg)) ∧
        RunBacked psOrder world' messages

/-! ## When the items are backed -/

/-- The commands whose messages have items. -/
inductive ItemCmd where
  | tracked
  | droneId
  | remoteId
  deriving Repr, DecidableEq

namespace ItemCmd

def record : ItemCmd → RecordCmd
  | .tracked => .tracked
  | .droneId => .droneId
  | .remoteId => .remoteId

def type : ItemCmd → TrackInfoPackageType
  | .tracked => .radar
  | .droneId => .tracerPDroneId
  | .remoteId => .tracerPRemoteId

def layout : ItemCmd → Layout
  | .tracked => alinkTrackTracked
  | .droneId | .remoteId => alinkDroneIdTrack

/-- The size given to `msg_send_to_alg`. -/
def packLen (psPayload : AlinkPayload) : ItemCmd → Nat
  | .tracked => radarTrackInfoPackagesSize
  | .droneId => droneidTrackInfoPackagesSize
  | .remoteId => sizeofInt + psPayload.wLength

/-- The count that is read fits the payload. Where the payload does not reach up
    to it, a radar count is the static package's, a drone id count is zero, and
    there is no telling what a remote id count is. -/
def Fits (psPayload : AlinkPayload) (world : TrackWorld) : ItemCmd → Prop
  | .tracked =>
      let trackObjNum :=
        if 1 < psPayload.wLength then psPayload.pbyData 1 else world.pack (sizeofInt + 1)
      alinkTrackTracked.Fits trackObjNum.toNat psPayload.wLength
  | .droneId =>
      25 < psPayload.wLength → alinkDroneIdTrack.Fits (psPayload.pbyData 25).toNat psPayload.wLength
  | .remoteId =>
      25 < psPayload.wLength ∧ alinkDroneIdTrack.Fits (psPayload.pbyData 25).toNat psPayload.wLength

/-- The package a handler sends. -/
def written (psPayload : AlinkPayload) (world : TrackWorld) (c : ItemCmd) : Ptr UInt8 :=
  c.record.writes psPayload (c.record.object world)

def msg (psPayload : AlinkPayload) (world : TrackWorld) (c : ItemCmd) : List UInt8 :=
  (c.written psPayload world).read (c.packLen psPayload)

end ItemCmd

section Forwarding

variable {c : ItemCmd} {psPayload : AlinkPayload} {world : TrackWorld}
  {psOrder : AlinkOrder TrackWorld}
  {psImport : AlinkOrderImport} {pbyMsg : Ptr UInt8} {j : Nat}

theorem written_type (inside : j < sizeofInt) :
    c.written psPayload world j = ([c.type.value, 0, 0, 0] : List UInt8)[j] := by
  have type (type : TrackInfoPackageType) (pack : Ptr UInt8) :
      setTrackPackType type pack j = ([type.value, 0, 0, 0] : List UInt8)[j] := by
    have here : setTrackPackType type pack (0 + j) = ([type.value, 0, 0, 0] : List UInt8)[j] :=
      Ptr.store_inside pack 0 inside
    rwa [Nat.zero_add] at here
  cases c with
  | tracked => exact type .radar _
  | droneId => exact (copyPayload_outside (.inl inside)).trans (type .tracerPDroneId _)
  | remoteId => exact (copyPayload_outside (.inl inside)).trans (type .tracerPRemoteId _)

theorem ItemCmd.offset_record (c : ItemCmd) : c.record.offset = sizeofInt := by
  cases c <;> rfl

theorem written_payload (inside : j < psPayload.wLength) :
    c.written psPayload world (sizeofInt + j) = psPayload.pbyData j := by
  rw [ItemCmd.written, writes_behind (Nat.le_add_right _ _), c.offset_record,
    copyPayload_inside _ inside]

/-- Behind the payload the package is what it was. -/
theorem written_kept (behind : psPayload.wLength ≤ j) :
    c.written psPayload world (sizeofInt + j) = c.record.object world (sizeofInt + j) := by
  rw [ItemCmd.written, writes_behind (Nat.le_add_right _ _), c.offset_record,
    copyPayload_outside (.inr (Nat.add_le_add_left behind _))]

/-- A remote id message ends with its payload, the others have room for all their places. -/
theorem packLen_covers (inside : j < psPayload.wLength) (place : j < c.layout.extent) :
    sizeofInt + j < c.packLen psPayload := by
  cases c with
  | tracked =>
      have room : sizeofInt + alinkTrackTracked.extent ≤ radarTrackInfoPackagesSize := by decide
      exact Nat.lt_of_lt_of_le (Nat.add_lt_add_left place sizeofInt) room
  | droneId =>
      have room : sizeofInt + alinkDroneIdTrack.extent ≤ droneidTrackInfoPackagesSize := by decide
      exact Nat.lt_of_lt_of_le (Nat.add_lt_add_left place sizeofInt) room
  | remoteId => exact Nat.add_lt_add_left inside sizeofInt

theorem packLen_type (c : ItemCmd) (psPayload : AlinkPayload) :
    sizeofInt ≤ c.packLen psPayload := by
  cases c with
  | tracked => exact (by decide : sizeofInt ≤ radarTrackInfoPackagesSize)
  | droneId => exact (by decide : sizeofInt ≤ droneidTrackInfoPackagesSize)
  | remoteId => exact Nat.le_add_right _ _

theorem guideTo_msg (c : ItemCmd) (psPayload : AlinkPayload) (world : TrackWorld) :
    ∃ act, guideTo (TrackInfoPackages.ofBlock (c.msg psPayload world)) = [act] ∧
    act.reads = some c.layout := by
  have bytes : (Ptr.ofList (c.msg psPayload world)).read sizeofInt = [c.type.value, 0, 0, 0] := by
    apply List.ext_getElem (Ptr.length_read _ sizeofInt)
    intro j small inside
    rw [Ptr.length_read] at small
    rw [Ptr.getElem_read, ItemCmd.msg,
      Ptr.ofList_read _ (Nat.lt_of_lt_of_le small (packLen_type c psPayload))]
    exact written_type small
  have type : (TrackInfoPackages.ofBlock (c.msg psPayload world)).trackPackType =
      c.type.value.toNat := by
    simp only [TrackInfoPackages.ofBlock, intAt, uintAt, Ptr.advance_zero, bytes]
    cases c <;> rfl
  unfold guideTo
  rw [type]
  cases c with
  | tracked => exact ⟨.radarGuide _, rfl, rfl⟩
  | droneId => exact ⟨.tracerGuideD _, rfl, rfl⟩
  | remoteId => exact ⟨.tracerGuideR _, rfl, rfl⟩

/-- Where the items are the payload's, so is what the reader makes of them. -/
theorem readsPayload_of_backed {act : AlgAct} {l : Layout} {memory : List UInt8}
    (reads : act.reads = some l)
    (backed : l.Backed (Ptr.ofList memory) psPayload.pbyData psPayload.wLength) :
    act.ReadsPayload psPayload memory := by
  cases act with
  | radarGuide _ =>
      cases reads
      intro items read
      simpa using Layout.readItems_backed (h := id) read backed fun _ _ _ =>
        alinkTrackTrackedItemIn_eq
  | tracerGuideR _ | tracerGuideD _ =>
      cases reads
      intro items read
      exact Layout.readItems_backed read backed fun _ _ _ => alinkDroneIdItemIn_eq
  | stoppingTracking | searchAndTracking => trivial

theorem itemsBacked_iff : ItemsBacked (c.msg psPayload world) psPayload ↔
    ∀ pack : Ptr UInt8, pack.read (c.packLen psPayload) = c.msg psPayload world →
      c.layout.Backed (pack.advance sizeofInt) psPayload.pbyData psPayload.wLength := by
  have block :
    (targetOf (Ptr.ofList (c.msg psPayload world)) (c.msg psPayload world).length).content.bytes =
      c.msg psPayload world := Ptr.read_ofList _
  have length : (c.msg psPayload world).length = c.packLen psPayload := Ptr.length_read _ _
  obtain ⟨act, guide, reads⟩ := guideTo_msg c psPayload world
  unfold ItemsBacked
  simp only [block]
  simp only [guide, List.mem_singleton, forall_eq, reads, Option.some.injEq, forall_eq', length]
  refine and_iff_left_of_imp fun backed behind => readsPayload_of_backed reads ?_
  rw [Layout.ofList_drop]
  exact backed _ (length ▸ Ptr.read_ofList_append _ behind)

/-- Of what is behind a message the reader uses nothing but the count. -/
theorem backed_iff_count {pack : Ptr UInt8}
    (stored : pack.read (c.packLen psPayload) = c.msg psPayload world) :
    c.layout.Backed (pack.advance sizeofInt) psPayload.pbyData psPayload.wLength ↔
      c.layout.Fits (pack (sizeofInt + c.layout.count)).toNat psPayload.wLength := by
  apply Layout.backed_iff
  intro j inside place
  rw [Ptr.advance_apply, Ptr.apply_of_read stored (packLen_covers inside place),
    written_payload inside]

theorem written_count : c.written psPayload world (sizeofInt + j) =
    if j < psPayload.wLength then psPayload.pbyData j
      else c.record.object world (sizeofInt + j) := by
  split
  next inside => exact written_payload inside
  next behind => exact written_kept (Nat.le_of_not_lt behind)

theorem declared_apply {size : Nat} (localPack : Ptr UInt8) (inside : j < size) :
    declared size localPack j = 0 := by
  have zeros : j < (List.replicate size (0 : UInt8)).length := by rwa [List.length_replicate]
  have here : declared size localPack (0 + j) = (List.replicate size (0 : UInt8))[j] :=
    Ptr.store_inside localPack 0 zeros
  rwa [Nat.zero_add, List.getElem_replicate] at here

theorem itemsBacked_counted (inside : sizeofInt + c.layout.count < c.packLen psPayload) :
    ItemsBacked (c.msg psPayload world) psPayload ↔
      c.layout.Fits (c.written psPayload world (sizeofInt + c.layout.count)).toNat
      psPayload.wLength := by
  rw [itemsBacked_iff]
  constructor
  · intro backed
    exact (backed_iff_count rfl).mp (backed (c.written psPayload world) rfl)
  · intro fits pack stored
    rw [backed_iff_count stored, Ptr.apply_of_read stored inside]
    exact fits

theorem not_itemsBacked (short : psPayload.wLength ≤ alinkDroneIdTrack.count) :
    ¬ ItemsBacked (ItemCmd.remoteId.msg psPayload world) psPayload := by
  intro backed
  rw [itemsBacked_iff] at backed
  let msg := ItemCmd.remoteId.msg psPayload world
  let pack : Ptr UInt8 := Ptr.store (fun _ => 1) 0 msg
  have length : msg.length = sizeofInt + psPayload.wLength := Ptr.length_read _ _
  have stored : pack.read msg.length = msg := by
    have read := Ptr.read_store (fun _ => 1) 0 msg
    rwa [Ptr.advance_zero] at read
  rw [length] at stored
  have one : pack (sizeofInt + alinkDroneIdTrack.count) = 1 :=
    Ptr.store_after _ _ (by rw [length]; omega)
  have fits := (backed_iff_count stored).mp (backed pack stored)
  have single : alinkDroneIdTrack.Fits 1 psPayload.wLength := by
    rwa [show pack (sizeofInt + ItemCmd.remoteId.layout.count) = 1 from one] at fits
  rcases single with none | ⟨-, long⟩
  · exact absurd none (by decide)
  · have begins : alinkDroneIdTrack.count < alinkDroneIdTrack.first := by decide
    omega

theorem msg_backed_iff :
    ItemsBacked (c.msg psPayload world) psPayload ↔ c.Fits psPayload world := by
  cases c with
  | tracked =>
      have inside : sizeofInt + alinkTrackTracked.count < radarTrackInfoPackagesSize := by decide
      rw [itemsBacked_counted (c := .tracked) inside, written_count]
      exact Iff.rfl
  | droneId =>
      have inside : sizeofInt + alinkDroneIdTrack.count < droneidTrackInfoPackagesSize := by decide
      rw [itemsBacked_counted (c := .droneId) inside]
      by_cases long : 25 < psPayload.wLength
      · have count : ItemCmd.droneId.written psPayload world
          (sizeofInt + ItemCmd.droneId.layout.count) =
          psPayload.pbyData 25 := written_payload long
        rw [count]
        exact ⟨fun fits _ => fits, fun fits => fits long⟩
      · have count : ItemCmd.droneId.written psPayload world
            (sizeofInt + ItemCmd.droneId.layout.count) = 0 :=
          (written_kept (Nat.le_of_not_lt long)).trans (declared_apply world.localPack inside)
        rw [count]
        exact iff_of_true (.inl rfl) fun reaches => absurd reaches long
  | remoteId =>
      by_cases long : 25 < psPayload.wLength
      · have inside : sizeofInt + alinkDroneIdTrack.count < sizeofInt + psPayload.wLength :=
          Nat.add_lt_add_left long _
        have count : ItemCmd.remoteId.written psPayload world
          (sizeofInt + ItemCmd.remoteId.layout.count) =
          psPayload.pbyData 25 := written_payload long
        rw [itemsBacked_counted (c := .remoteId) inside, count]
        exact ⟨fun fits => ⟨long, fits⟩, fun fits => fits.2⟩
      · exact iff_of_false (not_itemsBacked (Nat.le_of_not_lt long)) fun fits => long fits.1

theorem alinkOrderTask_forwards (world : TrackWorld) (table : psOrder.psCmdList = alinkTrackInit)
    (addressed : MsgHead.msgid pbyMsg = c.record.byCmd)
    (enough : alinkTrackGetConfigInfoSize ≤ (alinkPayloadOf psImport pbyMsg).wLength) :
    (alinkOrderTask psOrder psImport pbyMsg world).2.algMsgs =
      world.algMsgs ++ [c.msg (alinkPayloadOf psImport pbyMsg) world] := by
  have handled : psOrder.psCmdList = c.record.table := by
    rw [table]
    cases c <;> rfl
  have enough' : c.record.wPayloadLen ≤ (alinkPayloadOf psImport pbyMsg).wLength := by
    cases c <;> exact enough
  rw [alinkOrderTask_handled world handled addressed enough']
  cases c <;> rfl

theorem alinkOrderTask_silent (world : TrackWorld) (table : psOrder.psCmdList = alinkTrackInit)
    (other : ∀ c : ItemCmd, MsgHead.msgid pbyMsg = c.record.byCmd →
      ¬ alinkTrackGetConfigInfoSize ≤ (alinkPayloadOf psImport pbyMsg).wLength) :
    (alinkOrderTask psOrder psImport pbyMsg world).2.algMsgs = world.algMsgs := by
  unfold alinkOrderTask
  rw [table]
  cases found : alinkTrackInit.find? fun psCmdList => psCmdList.byCmd == MsgHead.msgid pbyMsg with
  | none => rfl
  | some psCmdList =>
      have same := List.find?_some
        (p := fun psCmdList : AlinkCmdList TrackWorld =>
          psCmdList.byCmd == MsgHead.msgid pbyMsg) found
      have addressed := (beq_iff_eq.mp same).symm
      have member := List.mem_of_find?_eq_some found
      simp only [alinkTrackInit, List.mem_cons, List.not_mem_nil, or_false] at member
      rcases member with rfl | rfl | rfl | rfl
      · simp only [other .tracked addressed, if_false]
      · dsimp only
        split <;> rfl
      · simp only [other .droneId addressed, if_false]
      · simp only [other .remoteId addressed, if_false]

theorem alinkOrderTask_backed_iff (world : TrackWorld)
    (table : psOrder.psCmdList = alinkTrackInit) :
    (∀ msg, (alinkOrderTask psOrder psImport pbyMsg world).2.algMsgs = world.algMsgs ++ [msg] →
        ItemsBacked msg (alinkPayloadOf psImport pbyMsg)) ↔
      ∀ c : ItemCmd, MsgHead.msgid pbyMsg = c.record.byCmd →
        alinkTrackGetConfigInfoSize ≤ (alinkPayloadOf psImport pbyMsg).wLength →
          c.Fits (alinkPayloadOf psImport pbyMsg) world := by
  constructor
  · intro backed c addressed enough
    exact msg_backed_iff.mp (backed _ (alinkOrderTask_forwards world table addressed enough))
  · intro fits msg forwarded
    by_cases silent : ∀ c : ItemCmd, MsgHead.msgid pbyMsg = c.record.byCmd →
        ¬ alinkTrackGetConfigInfoSize ≤ (alinkPayloadOf psImport pbyMsg).wLength
    · rw [alinkOrderTask_silent world table silent] at forwarded
      exact absurd (List.self_eq_append_right.mp forwarded) (List.cons_ne_nil _ _)
    · push Not at silent
      obtain ⟨c, addressed, enough⟩ := silent
      rw [alinkOrderTask_forwards world table addressed enough, List.append_cancel_left_eq]
        at forwarded
      obtain rfl := List.singleton_injective forwarded
      exact msg_backed_iff.mpr (fits c addressed enough)

end Forwarding

/-- Every message that is forwarded has a count that fits. -/
def RunFits (psOrder : AlinkOrder TrackWorld) :
    TrackWorld → List (AlinkOrderImport × Ptr UInt8) → Prop
  | _, [] => True
  | world, (psImport, pbyMsg) :: messages =>
      (∀ c : ItemCmd, MsgHead.msgid pbyMsg = c.record.byCmd →
        alinkTrackGetConfigInfoSize ≤ (alinkPayloadOf psImport pbyMsg).wLength →
          c.Fits (alinkPayloadOf psImport pbyMsg) world) ∧
        RunFits psOrder (alinkOrderTask psOrder psImport pbyMsg world).2 messages

/-- Over any run, what the guides read is backed by what was received exactly as
    long as every count fits its message. -/
theorem runBacked_iff (wBufferSize : Nat) (pbyBuffer : Ptr UInt8) (world : TrackWorld)
    (messages : List (AlinkOrderImport × Ptr UInt8)) :
    RunBacked ⟨wBufferSize, pbyBuffer, alinkTrackInit⟩ world messages ↔
      RunFits ⟨wBufferSize, pbyBuffer, alinkTrackInit⟩ world messages := by
  induction messages generalizing world with
  | nil => exact Iff.rfl
  | cons message messages ih => exact and_congr (alinkOrderTask_backed_iff world rfl) (ih _)

/-- A radar message of two payload bytes, which announces one target. -/
def countPacket : AlinkPacket where
  seq := 0
  destid := 0
  sourceid := 0
  msgid := 0x12
  ans := 0
  payload := [0, 1]
  fits := by decide

/-- The target is read from a package no message has written to. -/
theorem items_unbacked :
    ¬ ∀ (psImport : AlinkOrderImport) (wBufferSize : Nat) (pbyBuffer localPack : Ptr UInt8)
      (frames : List (List UInt8)),
      (∀ f ∈ frames, Accepted f) →
        RunBacked ⟨wBufferSize, pbyBuffer, alinkTrackInit⟩ ⟨fun _ => 0, localPack, []⟩
          (frames.map fun f => (psImport, Ptr.ofList f)) := by
  intro backed
  let psImport : AlinkOrderImport := { ePortId := 0, pbyMsg := 0, handle := 0, peSend := true }
  have accepted : ∀ f ∈ [countPacket.frame], Accepted f := by
    intro f member
    rw [List.mem_singleton.mp member]
    exact countPacket.frame_accepted
  obtain ⟨run, -⟩ := backed psImport 8192 (fun _ => 0) (fun _ => 0) [countPacket.frame] accepted
  have length : (alinkPayloadOf psImport (Ptr.ofList countPacket.frame)).wLength = 2 := by
    rw [alinkPayloadOf_length, AlinkPacket.payloadSize_frame]
    rfl
  have fits := (alinkOrderTask_backed_iff _ rfl).mp run .tracked rfl (by rw [length]; decide)
  unfold ItemCmd.Fits at fits
  rw [length] at fits
  exact absurd fits (by decide)

end PtzAgx.Algs
