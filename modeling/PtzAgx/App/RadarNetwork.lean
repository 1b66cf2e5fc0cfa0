import PtzAgx.App.C2Network

/-! # Reading from a radar

The receiving half of `radars_network/radar_network.c`. The callback reads up to
eight bytes, takes the package size out of them, allocates that much and reads
until the package is complete; only then does the receiver see it. The size is
computed from the first read alone, over an array that was zeroed before it.

What a `recv` returns is left to the connection, which is any state `ω` with a
step for one `recv`. `Wire` is the connection that carries a given stream.
-/

namespace PtzAgx.App

open Bytes Words Framing Alink

/-- `radar_network_t`, with `psUser` as in `C2Network`. -/
structure RadarNetwork where
  sAlinkSocket : AlinkSocket
  psSocket : Nat
  piSend : Bool
  deriving Repr, DecidableEq

/-- The receiving side of `radar_network_create`. -/
def radarNetworkCreate (psSocket : Nat) (piSend : Bool) : RadarNetwork where
  sAlinkSocket := alinkSocketInit zeroSocket .sOrderServer
  psSocket := psSocket
  piSend := piSend

/-- What one callback finds: where its local array lies, what memory holds
    before the array is zeroed, and what `malloc` would return. -/
structure RadarCall where
  abyBuffer : Nat
  mem : Ptr UInt8
  malloc : Nat → Option Nat

/-- One `pi_recv` of `uSize` bytes. No bytes is a failure, which
    `tcp_server_recv` reports as 0. -/
abbrev PiRecv (ω : Type) := ω → Nat → List UInt8 × ω

/-- The local variables of the callback's loop, with the memory it works on.
    Pointers are addresses, and the `int32_t` values are never negative. -/
structure RadarLoop (ω : Type) where
  pabybuf : Nat
  rLenght : Nat
  integrityPkgLen : Nat
  offset : Nat
  mem : Ptr UInt8
  wire : ω

/-- How one pass through the loop body ends: at its condition, or at `cbk_exit`
    with `pabybuf` as it is there, `none` for `NULL`. -/
inductive RadarPass (ω : Type) where
  | condition (s : RadarLoop ω)
  | cbkExit (pabybuf : Option Nat) (wire : ω)

variable {ω : Type}

def radarLoopBody (piRecv : PiRecv ω) (call : RadarCall) (s : RadarLoop ω) : RadarPass ω :=
  let got := piRecv s.wire s.rLenght
  let data := got.1
  let wire := got.2
  let iLength := data.length
  if iLength = 0 then .cbkExit (if s.integrityPkgLen = 0 then none else some s.pabybuf) wire
  else
    let mem := s.mem.store (s.pabybuf + s.offset) data
    if s.integrityPkgLen = 0 then
      let integrityPkgLen := alinkPackageValidLength (mem.advance call.abyBuffer) iLength
      if integrityPkgLen > 0 then
        match call.malloc integrityPkgLen with
        | none => .cbkExit none wire
        | some pabybuf =>
            let offset := alinkGetPackageHeadIndex (mem.advance call.abyBuffer) iLength
            let head := (mem.advance (call.abyBuffer + offset)).read (iLength - offset)
            let mem := mem.store pabybuf head
            let offset := iLength - offset
            .condition
              { pabybuf, rLenght := wrapSub 32 integrityPkgLen offset, integrityPkgLen, offset,
                mem, wire }
      else .cbkExit none wire
    else
      let offset := s.offset + iLength
      .condition { s with rLenght := wrapSub 32 s.integrityPkgLen offset, offset, mem, wire }

/-- `do { ... } while( integrity_pkg_len > offset )`, given up after `fuel`
    passes. -/
def radarLoop (piRecv : PiRecv ω) (call : RadarCall) : Nat → RadarLoop ω → Option (RadarPass ω)
  | 0, _ => none
  | fuel + 1, s =>
      match radarLoopBody piRecv call s with
      | .condition s =>
          if s.integrityPkgLen > s.offset then radarLoop piRecv call fuel s else some (.condition s)
      | .cbkExit pabybuf wire => some (.cbkExit pabybuf wire)

/-- What a callback leaves behind: the connection, the messages handed to
    `alink_order_task` on the way and the address given to `free`. -/
structure RadarDone (ω : Type) where
  psNetwork : RadarNetwork
  wire : ω
  sent : List Dispatch
  freed : Option Nat

/-- The locals before the first pass. -/
def radarLoopStart (call : RadarCall) (wire : ω) : RadarLoop ω where
  pabybuf := call.abyBuffer
  rLenght := alinkHeaderChecksumLen
  integrityPkgLen := 0
  offset := 0
  mem := call.mem.store call.abyBuffer (List.replicate alinkHeaderChecksumLen 0)
  wire := wire

/-- No pass reads less than one byte and no package is longer than 65546. -/
def radarLoopFuel : Nat := 65546

def radarNetworkCbkData (piRecv : PiRecv ω) (call : RadarCall) (psNetwork : RadarNetwork)
    (wire : ω) :
    Option (RadarDone ω) :=
  (radarLoop piRecv call radarLoopFuel (radarLoopStart call wire)).bind fun
    | .cbkExit pabybuf wire => some { psNetwork, wire, sent := [], freed := pabybuf }
    | .condition s =>
        let sImport : AlinkRecvImport :=
          { ePortId := 1, pbyData := s.pabybuf, uLength := s.integrityPkgLen,
            handle := psNetwork.psSocket,
            peSend := psNetwork.piSend }
        (alinkSocketTask s.mem psNetwork.sAlinkSocket sImport).map fun after =>
          { psNetwork := { psNetwork with sAlinkSocket := after.1 },
            wire := s.wire, sent := after.2,
            freed := some s.pabybuf }

/-! ## A connection that carries a stream -/

/-- The bytes still to come, and how many each coming `recv` would return if it
    were asked for enough. -/
structure Wire where
  stream : List UInt8
  counts : Nat → Nat

/-- At least one byte and at most `uSize`, as long as there are any. -/
def Wire.recv : PiRecv Wire := fun wire uSize =>
  let k := min uSize (max 1 (wire.counts 0))
  (wire.stream.take k, { stream := wire.stream.drop k, counts := fun i => wire.counts (i + 1) })

/-- The callback again and again until the stream is consumed, each time under
    its own circumstances. `none` is a run that has not ended after `fuel`
    callbacks. -/
def radarNetworkRun (calls : Nat → RadarCall) :
    Nat → RadarNetwork → Wire → Option (RadarNetwork × List Dispatch)
  | 0, psNetwork, wire => if wire.stream = [] then some (psNetwork, []) else none
  | fuel + 1, psNetwork, wire =>
      if wire.stream = [] then some (psNetwork, [])
      else
        (radarNetworkCbkData Wire.recv (calls 0) psNetwork wire).bind fun done =>
          (radarNetworkRun (fun i => calls (i + 1)) fuel done.psNetwork done.wire).map
            fun later => (later.1, done.sent ++ later.2)

/-! ## Single passes -/

section Passes

variable {piRecv : PiRecv ω} {call : RadarCall} {s : RadarLoop ω} {data : List UInt8} {wire : ω}

theorem radarLoopBody_first {n a : Nat} (got : piRecv s.wire s.rLenght = (data, wire))
    (some : 0 < data.length)
    (first : s.integrityPkgLen = 0) (pos : 0 < n)
    (sized : alinkPackageValidLength
      ((s.mem.store (s.pabybuf + s.offset) data).advance call.abyBuffer) data.length = n)
    (front : alinkGetPackageHeadIndex
      ((s.mem.store (s.pabybuf + s.offset) data).advance call.abyBuffer) data.length = 0)
    (placed : call.malloc n = .some a) :
    radarLoopBody piRecv call s =
      .condition
        { pabybuf := a
          rLenght := wrapSub 32 n data.length
          integrityPkgLen := n
          offset := data.length
          mem := (s.mem.store (s.pabybuf + s.offset) data).store a
            (((s.mem.store (s.pabybuf + s.offset) data).advance call.abyBuffer).read data.length)
          wire } := by
  have nonempty : data.length ≠ 0 := by omega
  simp only [radarLoopBody, got, nonempty, first, sized, pos, placed, front, if_false, if_true,
    Nat.add_zero, Nat.sub_zero]

theorem radarLoopBody_later (call : RadarCall) (got : piRecv s.wire s.rLenght = (data, wire))
    (some : 0 < data.length)
    (later : 0 < s.integrityPkgLen) :
    radarLoopBody piRecv call s =
      .condition
        { s with
          rLenght := wrapSub 32 s.integrityPkgLen (s.offset + data.length)
          offset := s.offset + data.length
          mem := s.mem.store (s.pabybuf + s.offset) data
          wire } := by
  have nonempty : data.length ≠ 0 := by omega
  have sized : s.integrityPkgLen ≠ 0 := by omega
  simp only [radarLoopBody, got, nonempty, sized, if_false]

theorem radarLoop_again {fuel : Nat} {next : RadarLoop ω}
    (pass : radarLoopBody piRecv call s = .condition next)
    (more : next.offset < next.integrityPkgLen) :
    radarLoop piRecv call (fuel + 1) s = radarLoop piRecv call fuel next := by
  simp only [radarLoop, pass, more, if_true]

theorem radarLoop_done (fuel : Nat) {next : RadarLoop ω}
    (pass : radarLoopBody piRecv call s = .condition next)
    (whole : next.integrityPkgLen ≤ next.offset) :
    radarLoop piRecv call (fuel + 1) s = some (.condition next) := by
  simp only [radarLoop, pass, Nat.not_lt.mpr whole, if_false]

end Passes

/-! ## One callback -/

section Callback

variable {call : RadarCall} {s : RadarLoop Wire} {u : List UInt8} {n j : Nat}

theorem Wire.recv_some {wire : Wire} {uSize : Nat} (asked : 0 < uSize)
    (enough : uSize ≤ wire.stream.length) :
    ∃ data next, Wire.recv wire uSize = (data, next) ∧ 0 < data.length ∧ data.length ≤ uSize ∧
      data = wire.stream.take data.length ∧ next.stream = wire.stream.drop data.length := by
  obtain ⟨k, count, pos, le⟩ : ∃ k, min uSize (max 1 (wire.counts 0)) = k ∧ 0 < k ∧ k ≤ uSize :=
    ⟨_, rfl, by omega, by omega⟩
  have counted : (wire.stream.take k).length = k := List.length_take_of_le (by omega)
  refine ⟨wire.stream.take k,
    { stream := wire.stream.drop k, counts := fun i => wire.counts (i + 1) }, ?_, ?_⟩
  · simp only [Wire.recv, count]
  · rw [counted]
    exact ⟨pos, le, rfl, rfl⟩

/-- `j` of the `n` bytes of a package are in the buffer, the rest is to come. -/
structure Filling (u : List UInt8) (n j : Nat) (s : RadarLoop Wire) : Prop where
  size : s.integrityPkgLen = n
  offset : s.offset = j
  asked : s.rLenght = n - j
  stored : (s.mem.advance s.pabybuf).read j = u.take j
  left : s.wire.stream = u.drop j

theorem Filling.step (filling : Filling u n j s) (part : j < n) (long : n ≤ u.length)
    (small : n < 2 ^ 32) :
    ∃ next k, radarLoopBody Wire.recv call s = .condition next ∧ 0 < k ∧ j + k ≤ n ∧
      next.pabybuf = s.pabybuf ∧
      Filling u n (j + k) next := by
  obtain ⟨rfl, rfl, asked, stored, left⟩ := filling
  have rest : s.wire.stream.length = u.length - s.offset := by rw [left, List.length_drop]
  obtain ⟨data, wire, got, some, le, taken, dropped⟩ :=
    Wire.recv_some (by omega : 0 < s.rLenght) (by omega : s.rLenght ≤ s.wire.stream.length)
  refine ⟨_, data.length, radarLoopBody_later call got some (by omega), some, by omega, rfl, rfl,
    rfl, ?_, ?_, ?_⟩
  · exact wrapSub_of_le (by omega) small
  · rw [left] at taken
    rw [Ptr.read_store_append, stored, List.take_add, ← taken]
  · rw [dropped, left, List.drop_drop]

theorem Filling.fill (call : RadarCall) (fuel : Nat) (filling : Filling u n j s) (part : j < n)
    (long : n ≤ u.length)
    (small : n < 2 ^ 32) (enough : n - j ≤ fuel) :
    ∃ last, radarLoop Wire.recv call fuel s = some (.condition last) ∧ last.pabybuf = s.pabybuf ∧
      Filling u n n last := by
  induction fuel generalizing s j with
  | zero => omega
  | succ fuel ih =>
      obtain ⟨next, k, pass, pos, le, same, later⟩ := filling.step part long small
      by_cases whole : j + k = n
      · rw [whole] at later
        refine ⟨next, radarLoop_done _ pass ?_, same, later⟩
        rw [later.size, later.offset]
      · obtain ⟨last, ran, place, full⟩ := ih later (by omega) (by omega)
        refine ⟨last, ?_, place.trans same, full⟩
        rw [radarLoop_again pass (by rw [later.size, later.offset]; omega), ran]

/-- The bytes of the first read of a callback. -/
def Wire.firstRead (wire : Wire) : List UInt8 := (Wire.recv wire alinkHeaderChecksumLen).1

/-- The package size computed from the first read, over zeros. -/
def Wire.firstSize (wire : Wire) : Nat := alinkGetPackageSize (Ptr.ofList wire.firstRead)

variable {wire : Wire} {psNetwork : RadarNetwork} {psHandle : AlinkOrderRef} {a : Nat}

theorem read_padded (mem : Ptr UInt8) (abyBuffer : Nat) (data : List UInt8) :
    (((mem.store abyBuffer (List.replicate 8 0)).store abyBuffer data).advance abyBuffer).read 8 =
      (Ptr.ofList data).read 8 := by
  apply Ptr.read_congr
  intro i small
  rw [Ptr.advance_apply]
  by_cases inside : i < data.length
  · rw [Ptr.store_inside _ _ inside, Ptr.ofList_apply inside]
  · have padding : Ptr.ofList data i = 0 := by
      rw [Ptr.ofList_outside (Nat.not_lt.mp inside)]
      rfl
    rw [Ptr.store_after _ _ (by omega), Ptr.store_inside _ _ (by simpa using small),
      List.getElem_replicate, padding]

/-- The loop reads as many bytes as the first read announced. -/
theorem radarLoop_package (starts : alinkFormat.Starts wire.stream)
    (placed : call.malloc wire.firstSize = some a)
    (long : wire.firstSize ≤ wire.stream.length) :
    ∃ last, radarLoop Wire.recv call radarLoopFuel (radarLoopStart call wire) =
      some (.condition last) ∧
      last.pabybuf = a ∧ Filling wire.stream wire.firstSize wire.firstSize last := by
  have bounds := alinkGetPackageSize_bounds (Ptr.ofList wire.firstRead)
  have least : 11 ≤ wire.firstSize := bounds.1
  have most : wire.firstSize ≤ 65546 := bounds.2
  have asked : alinkHeaderChecksumLen ≤ wire.stream.length := by
    simp only [alinkHeaderChecksumLen]
    omega
  obtain ⟨data, next, got, some, le, taken, dropped⟩ := Wire.recv_some (by decide) asked
  have first : wire.firstRead = data := congrArg Prod.fst got
  have eight : data.length ≤ 8 := le
  let mem := (radarLoopStart call wire).mem.store (call.abyBuffer + 0) data
  have shown : (mem.advance call.abyBuffer).read 8 = (Ptr.ofList data).read 8 :=
    read_padded call.mem _ data
  have magic : alinkCheckMagic ((mem.advance call.abyBuffer) 0) = true := by
    obtain ⟨b, rest, split, start⟩ := starts
    rw [Ptr.apply_of_read shown (by decide), Ptr.ofList_apply some]
    cases data with
    | nil => simp at some
    | cons c t =>
        rw [split, List.length_cons, List.take_succ_cons] at taken
        obtain rfl : c = b := (List.cons.inj taken).1
        exact start
  obtain ⟨sized, front⟩ := alinkPackageValidLength_start magic some
  have size : alinkPackageValidLength (mem.advance call.abyBuffer) data.length =
      wire.firstSize := by
    rw [sized, Wire.firstSize, first, alinkGetPackageSize_congr shown (by decide)]
  have pass := radarLoopBody_first got some rfl (by omega) size front placed
  have head : (mem.advance call.abyBuffer).read data.length = data := by
    rw [← Ptr.take_read _ eight, shown, Ptr.take_read _ eight, Ptr.read_ofList]
  have filling : Filling wire.stream wire.firstSize data.length
      { pabybuf := a
        rLenght := wrapSub 32 wire.firstSize data.length
        integrityPkgLen := wire.firstSize
        offset := data.length
        mem := mem.store a ((mem.advance call.abyBuffer).read data.length)
        wire := next } := by
    refine ⟨rfl, rfl, wrapSub_of_le (by omega) (by omega), ?_, dropped⟩
    rw [head, ← taken]
    exact Ptr.read_store mem a data
  obtain ⟨last, ran, place, full⟩ := filling.fill call 65545 (by omega) long (by omega) (by omega)
  have more : data.length < wire.firstSize := by omega
  exact ⟨last, (radarLoop_again pass more).trans ran, place, full⟩

/-- A callback hands over what is a frame among the bytes it collected. -/
theorem radarNetworkCbkData_scan (idle : psNetwork.sAlinkSocket.Idle psHandle)
    (starts : alinkFormat.Starts wire.stream)
    (placed : call.malloc wire.firstSize = some a) (long : wire.firstSize ≤ wire.stream.length) :
    ∃ done, radarNetworkCbkData Wire.recv call psNetwork wire = some done ∧
      done.sent.map Dispatch.msg = (alinkFormat.scan (wire.stream.take wire.firstSize)).1 ∧
      (alinkFormat.Settled (wire.stream.take wire.firstSize) →
        done.psNetwork.sAlinkSocket.Idle psHandle) ∧
      done.wire.stream = wire.stream.drop wire.firstSize := by
  have most : wire.firstSize ≤ 65546 := (alinkGetPackageSize_bounds _).2
  obtain ⟨last, ran, rfl, full⟩ := radarLoop_package starts placed long
  obtain ⟨size, -, -, stored, left⟩ := full
  let sImport : AlinkRecvImport :=
    ⟨1, last.pabybuf, last.integrityPkgLen, psNetwork.psSocket, psNetwork.piSend⟩
  have counted : (wire.stream.take wire.firstSize).length = wire.firstSize :=
    List.length_take_of_le long
  have task : ∃ psSocket' sent,
    alinkSocketTask last.mem psNetwork.sAlinkSocket sImport = some (psSocket', sent) ∧
      sent.map Dispatch.msg = (alinkFormat.scan (wire.stream.take wire.firstSize)).1 ∧
      (∀ d ∈ sent, d.From psHandle sImport last.pabybuf (wire.stream.take wire.firstSize)) ∧
      (alinkFormat.Settled (wire.stream.take wire.firstSize) → psSocket'.Idle psHandle) :=
    alinkSocketTask_scan idle (size.trans counted.symm) (by rw [counted]; exact stored) (by omega)
  obtain ⟨psSocket', sent, handed, msgs, -, settled⟩ := task
  refine ⟨{ psNetwork := { psNetwork with sAlinkSocket := psSocket' },
            wire := last.wire, sent, freed := some last.pabybuf },
    ?_, msgs, settled, left⟩
  rw [radarNetworkCbkData, ran]
  exact congrArg (Option.map _) handed

end Callback

/-! ## A whole stream -/

/-- The first read shows the package size: the two length bytes have arrived, or
    those that have not are zero. -/
def Wire.Announced (wire : Wire) : Prop :=
  wire.firstSize = alinkGetPackageSize (Ptr.ofList wire.stream)

/-- Every callback of the run finds its package announced, and gets the memory
    it asks for. -/
def AllAnnounced (calls : Nat → RadarCall) : Nat → RadarNetwork → Wire → Prop
  | 0, _, _ => True
  | fuel + 1, psNetwork, wire =>
      wire.stream = [] ∨
        (wire.Announced ∧ (∃ a, (calls 0).malloc wire.firstSize = some a) ∧
          ∀ done, radarNetworkCbkData Wire.recv (calls 0) psNetwork wire = some done →
            AllAnnounced (fun i => calls (i + 1)) fuel done.psNetwork done.wire)

/-- The run ends and has handed over exactly these frames. A callback consumes at
    least one byte, so a run has no more callbacks than bytes. -/
def Reassembled (calls : Nat → RadarCall) (psNetwork : RadarNetwork) (frames : List (List UInt8))
    (counts : Nat → Nat) : Prop :=
  ∃ psNetwork' sent,
    radarNetworkRun calls frames.flatten.length psNetwork { stream := frames.flatten, counts } =
      some (psNetwork', sent) ∧ sent.map Dispatch.msg = frames

section Stream

variable {psNetwork : RadarNetwork} {psHandle : AlinkOrderRef} {wire : Wire} {f rest : List UInt8}

theorem radarNetworkCbkData_frame {call : RadarCall} {a : Nat}
    (idle : psNetwork.sAlinkSocket.Idle psHandle)
    (accepted : Accepted f) (stream : wire.stream = f ++ rest) (announced : wire.Announced)
    (placed : call.malloc wire.firstSize = some a) :
    ∃ done, radarNetworkCbkData Wire.recv call psNetwork wire = some done ∧
      done.sent.map Dispatch.msg = [f] ∧
      done.psNetwork.sAlinkSocket.Idle psHandle ∧ done.wire.stream = rest := by
  have size : wire.firstSize = f.length := by
    rw [announced, stream, accepted.size_append]
  obtain ⟨done, ran, msgs, settled, left⟩ := radarNetworkCbkData_scan idle
    (by rw [stream]; exact accepted.starts_append rest) placed
    (by rw [size, stream, List.length_append]; omega)
  rw [size, stream, List.take_left] at msgs settled
  rw [size, stream, List.drop_left] at left
  rw [alinkFormat.scan_frame accepted.isFrame] at msgs
  refine ⟨done, ran, msgs, settled ?_, left⟩
  rw [Format.Settled, alinkFormat.scan_frame accepted.isFrame]

theorem Wire.firstRead_eq (wire : Wire) :
    wire.firstRead = wire.stream.take (min alinkHeaderChecksumLen (max 1 (wire.counts 0))) := rfl

theorem Wire.announced_of_three (three : 3 ≤ wire.firstRead.length) : wire.Announced := by
  rw [Wire.firstRead_eq, List.length_take] at three
  have same : (Ptr.ofList wire.firstRead).read 3 = (Ptr.ofList wire.stream).read 3 :=
    Ptr.read_congr fun i small => Ptr.ofList_take wire.stream (by omega)
  exact alinkGetPackageSize_congr same (Nat.le_refl _)

/-- Bytes that have not arrived count as zero, so the size is never too large. -/
theorem Wire.firstSize_le (wire : Wire) :
    wire.firstSize ≤ alinkGetPackageSize (Ptr.ofList wire.stream) := by
  have byte (i : Nat) : (Ptr.ofList wire.firstRead i).toNat ≤ (Ptr.ofList wire.stream i).toNat := by
    rw [Wire.firstRead_eq]
    by_cases inside : i < min alinkHeaderChecksumLen (max 1 (wire.counts 0))
    · rw [Ptr.ofList_take wire.stream inside]
    · rw [Ptr.ofList_outside (by rw [List.length_take]; omega)]
      exact Nat.zero_le _
  have high := byte 2
  have low := byte 1
  simp only [Wire.firstSize, alinkGetPackageSize_eq, alinkGetPayloadSize, MsgHead.lenHi,
    MsgHead.lenLo, word16_toNat]
  omega

theorem scan_part {n : Nat} (accepted : Accepted f) (hasHead : alinkMsgHeadSize ≤ n)
    (part : n < f.length) :
    alinkFormat.scan (f.take n) = ([], f.take n) := by
  have frame := accepted.isFrame
  have counted : (f.take n).length = n := List.length_take_of_le (Nat.le_of_lt part)
  have heads : alinkFormat.head (f.take n) = alinkFormat.head f := alinkFormat.head_take hasHead
  have starts : alinkFormat.Starts (f.take n) :=
    alinkFormat.starts_take frame.starts (by simp [alinkMsgHeadSize] at hasHead; omega)
  have long : ¬ (f.take n).length < alinkFormat.headLen := by
    rw [counted]
    exact Nat.not_lt.mpr hasHead
  have short : (f.take n).length < f.length := by omega
  apply alinkFormat.scan_wait
  rw [alinkFormat.verdict_starts starts, heads, if_neg long, if_pos frame.headOk, frame.sized,
    if_pos short]

/-- A callback that meets a frame hands it over exactly when it is announced;
    otherwise the receiver gets a part of the frame and hands over nothing. -/
theorem radarNetworkCbkData_frame_iff {call : RadarCall} {a : Nat}
    (idle : psNetwork.sAlinkSocket.Idle psHandle)
    (accepted : Accepted f) (stream : wire.stream = f ++ rest)
    (placed : call.malloc wire.firstSize = some a) :
    (∃ done, radarNetworkCbkData Wire.recv call psNetwork wire = some done ∧
      done.sent.map Dispatch.msg = [f]) ↔
      wire.Announced := by
  have size : alinkGetPackageSize (Ptr.ofList wire.stream) = f.length := by
    rw [stream, accepted.size_append]
  have le := wire.firstSize_le
  have least : 11 ≤ wire.firstSize := (alinkGetPackageSize_bounds _).1
  constructor
  · rintro ⟨done, ran, msgs⟩
    by_contra unannounced
    have part : wire.firstSize < f.length :=
      Nat.lt_of_le_of_ne (by omega) fun same => unannounced (same.trans size.symm)
    obtain ⟨done', ran', msgs', -⟩ := radarNetworkCbkData_scan idle
      (by rw [stream]; exact accepted.starts_append rest) placed
      (by rw [stream, List.length_append]; omega)
    obtain rfl := Option.some.inj (ran.symm.trans ran')
    rw [stream, List.take_append_of_le_length (Nat.le_of_lt part),
      scan_part accepted (by simp only [alinkMsgHeadSize]; omega) part, msgs] at msgs'
    exact absurd msgs' (List.cons_ne_nil f [])
  · intro announced
    obtain ⟨done, ran, msgs, -⟩ := radarNetworkCbkData_frame idle accepted stream announced placed
    exact ⟨done, ran, msgs⟩

theorem radarNetworkRun_frames {calls : Nat → RadarCall} {frames : List (List UInt8)} {fuel : Nat}
    (idle : psNetwork.sAlinkSocket.Idle psHandle) (accepted : ∀ f ∈ frames, Accepted f)
    (stream : wire.stream = frames.flatten) (enough : frames.flatten.length ≤ fuel)
    (announced : AllAnnounced calls fuel psNetwork wire) :
    ∃ psNetwork' sent, radarNetworkRun calls fuel psNetwork wire = some (psNetwork', sent) ∧
      sent.map Dispatch.msg = frames := by
  induction frames generalizing calls fuel psNetwork wire with
  | nil =>
      refine ⟨psNetwork, [], ?_, rfl⟩
      cases fuel <;> simp [radarNetworkRun, stream]
  | cons f frames ih =>
      have first := accepted f List.mem_cons_self
      have long := first.long
      rw [List.flatten_cons] at stream
      rw [List.flatten_cons, List.length_append] at enough
      obtain ⟨fuel, rfl⟩ := Nat.exists_eq_succ_of_ne_zero (by omega : fuel ≠ 0)
      have more : wire.stream ≠ [] := by
        rw [stream]
        exact List.append_ne_nil_of_left_ne_nil (List.ne_nil_of_length_pos (by omega)) _
      obtain ⟨shown, ⟨a, placed⟩, later⟩ := announced.resolve_left more
      obtain ⟨done, ran, msgs, idle', left⟩ :=
        radarNetworkCbkData_frame idle first stream shown placed
      obtain ⟨psNetwork', sent, run, msgs'⟩ :=
        ih idle' (fun g member => accepted g (List.mem_cons_of_mem f member)) left (by omega)
          (later done ran)
      refine ⟨psNetwork', done.sent ++ sent, ?_, ?_⟩
      · simp only [radarNetworkRun, more, ran, run, if_false, Option.bind_some, Option.map_some]
      · rw [List.map_append, msgs, msgs']
        rfl

end Stream

/-- Memory full of zeros, and an allocator that always succeeds. -/
def quietCall : RadarCall where
  abyBuffer := 0
  mem := fun _ => 0
  malloc := fun _ => some 100

/-- Frames sent back to back reach the order table, one by one, when every one
    of them is announced by the first read that meets it. -/
theorem radarNetwork_reassembly (psSocket : Nat) (piSend : Bool) (calls : Nat → RadarCall)
    (frames : List (List UInt8)) (counts : Nat → Nat) (accepted : ∀ f ∈ frames, Accepted f)
    (announced : AllAnnounced calls frames.flatten.length (radarNetworkCreate psSocket piSend)
      { stream := frames.flatten, counts }) :
    Reassembled calls (radarNetworkCreate psSocket piSend) frames counts :=
  radarNetworkRun_frames (alinkSocketInit_idle zeroSocket .sOrderServer) accepted rfl
    (Nat.le_refl _) announced

theorem radarNetwork_reassembly_one :
    Reassembled (fun _ => quietCall) (radarNetworkCreate 7 true) [magicFrame] fun _ => 8 := by
  refine radarNetwork_reassembly 7 true (fun _ => quietCall) [magicFrame] (fun _ => 8)
    (by simp [magicFrame_accepted])
    (.inr ⟨Wire.announced_of_three (by decide), ⟨100, rfl⟩, ?_⟩)
  intro done ran
  have consumed : (radarNetworkCbkData Wire.recv quietCall (radarNetworkCreate 7 true)
      { stream := [magicFrame].flatten, counts := fun _ => 8 }).map (fun done => done.wire.stream) =
      some [] := by decide
  rw [ran] at consumed
  exact .inl (Option.some.inj consumed)

/-- A frame with a payload whose first byte comes alone is lost. -/
theorem radarNetwork_frame_lost :
    ¬ ∀ psSocket piSend (calls : Nat → RadarCall) (frames : List (List UInt8)) counts,
      (∀ i n, ∃ a, (calls i).malloc n = some a) → (∀ f ∈ frames, Accepted f) →
        Reassembled calls (radarNetworkCreate psSocket piSend) frames counts := by
  intro reassembles
  obtain ⟨psNetwork', sent, ran, msgs⟩ :=
    reassembles 7 true (fun _ => quietCall) [magicFrame] (fun _ => 1)
    (fun _ _ => ⟨100, rfl⟩) (by simp [magicFrame_accepted])
  have lost :
      (radarNetworkRun (fun _ => quietCall) [magicFrame].flatten.length (radarNetworkCreate 7 true)
        { stream := [magicFrame].flatten, counts := fun _ => 1 }).map (fun after => after.2) =
        some [] := by decide
  rw [ran] at lost
  obtain rfl : sent = [] := Option.some.inj lost
  exact absurd msgs (by decide)

end PtzAgx.App
