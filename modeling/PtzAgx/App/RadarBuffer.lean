import PtzAgx.App.RadarNetwork
import PtzAgx.Alink.Progress

/-! # The life of a radar buffer

`radar_network_cbk_data` frees the buffer it filled before it returns, while the
receiver keeps the address of an undecided candidate for the next call. The two
agree only if the receiver is never undecided at that point. How many bytes a
callback collects is settled by the first read, before any checksum is looked
at; whether the receiver can judge all of them is settled by their content.

The connection is any state with a `recv` here, so that a `recv` may fail at any
time and the stream may go on behind the failure.
-/

namespace PtzAgx.App

open Bytes Words Framing Alink

/-- A connection whose `recv` never returns more than it was asked for. -/
structure Connection (ω : Type) where
  recv : PiRecv ω
  le : ∀ wire uSize, (recv wire uSize).1.length ≤ uSize

variable {ω : Type}

theorem Connection.recv_le (conn : Connection ω) {wire next : ω} {uSize : Nat} {data : List UInt8}
    (got : conn.recv wire uSize = (data, next)) : data.length ≤ uSize := by
  have bound := conn.le wire uSize
  rwa [got] at bound

/-- Read exactly `n` bytes, asking again for what is missing until nothing is or
    a `recv` fails. -/
def Connection.readAll (conn : Connection ω) : Nat → ω → Nat → Option (List UInt8) × ω
  | 0, wire, n => (if n = 0 then some [] else none, wire)
  | fuel + 1, wire, n =>
      if n = 0 then (some [], wire)
      else
        let got := conn.recv wire n
        if got.1.length = 0 then (none, got.2)
        else
          let rest := conn.readAll fuel got.2 (n - got.1.length)
          (rest.1.map (got.1 ++ ·), rest.2)

/-- The package size at index `uIndex` of the local array that the first read
    has filled. From index 6 on it takes in bytes behind the array. -/
def radarPackageSize (call : RadarCall) (first : List UInt8) (uIndex : Nat) : Nat :=
  alinkGetPackageSize
    (((call.mem.store call.abyBuffer (List.replicate alinkHeaderChecksumLen 0)).store call.abyBuffer
      first).advance
      (call.abyBuffer + uIndex))

/-- The bytes one callback collects from its connection, if it comes to that,
    and the connection behind them. -/
def radarCollect (conn : Connection ω) (call : RadarCall) (wire : ω) : Option (List UInt8) × ω :=
  let first := conn.recv wire alinkHeaderChecksumLen
  match first.1.findIdx? alinkCheckMagic with
  | none => (none, first.2)
  | some uIndex =>
      let size := radarPackageSize call first.1 uIndex
      match call.malloc size with
      | none => (none, first.2)
      | some _ =>
          let rest := conn.readAll size first.2 (size - (first.1.length - uIndex))
          (rest.1.map (first.1.drop uIndex ++ ·), rest.2)

/-- What the callback is called for, again and again. -/
def radarCallbacks (piRecv : PiRecv ω) :
    List RadarCall → RadarNetwork → ω → Option (List (RadarDone ω))
  | [], _, _ => some []
  | call :: calls, psNetwork, wire =>
      (radarNetworkCbkData piRecv call psNetwork wire).bind fun done =>
        (radarCallbacks piRecv calls done.psNetwork done.wire).map (done :: ·)

/-- Every package the callbacks collect is made of whole pieces: bytes other than
    `0xFD`, refused headers, and packages as long as their headers say. -/
def PackagesWhole (conn : Connection ω) : List RadarCall → ω → Prop
  | [], _ => True
  | call :: calls, wire =>
      (∀ package, (radarCollect conn call wire).1 = some package → alinkFormat.Whole package) ∧
        PackagesWhole conn calls (radarCollect conn call wire).2

/-! ## Filling the buffer -/

section Fill

variable {conn : Connection ω} {call : RadarCall} {s : RadarLoop ω} {part : List UInt8} {n : Nat}

theorem Connection.readAll_zero (fuel : Nat) (wire : ω) :
    conn.readAll fuel wire 0 = (some [], wire) := by
  cases fuel <;> rfl

theorem Connection.readAll_failed {wire : ω} (fuel : Nat) (more : n ≠ 0)
    (failed : (conn.recv wire n).1.length = 0) :
    conn.readAll (fuel + 1) wire n = (none, (conn.recv wire n).2) := by
  simp only [readAll, more, failed, if_false, if_true]

theorem Connection.readAll_some {wire next : ω} {data : List UInt8} (fuel : Nat)
    (got : conn.recv wire n = (data, next))
    (more : n ≠ 0) (some : data.length ≠ 0) :
    conn.readAll (fuel + 1) wire n =
      ((conn.readAll fuel next (n - data.length)).1.map (data ++ ·),
        (conn.readAll fuel next (n - data.length)).2) := by
  simp only [readAll, more, got, some, if_false]

theorem radarLoopBody_failed (piRecv : PiRecv ω) (call : RadarCall)
    (failed : (piRecv s.wire s.rLenght).1.length = 0)
    (later : s.integrityPkgLen ≠ 0) :
    radarLoopBody piRecv call s = .cbkExit (some s.pabybuf) (piRecv s.wire s.rLenght).2 := by
  simp only [radarLoopBody, failed, later, if_true, if_false]

/-- `part` of a package of `n` bytes is in the buffer. -/
structure Held (n : Nat) (part : List UInt8) (s : RadarLoop ω) : Prop where
  size : s.integrityPkgLen = n
  offset : s.offset = part.length
  asked : s.rLenght = n - part.length
  stored : (s.mem.advance s.pabybuf).read part.length = part

/-- How the loop ends, given what the connection has for it. -/
def FillEnds (n pabybuf : Nat) (part : List UInt8) :
    Option (List UInt8) × ω → Option (RadarPass ω) → Prop
  | (none, wire), pass => pass = some (.cbkExit (some pabybuf) wire)
  | (some rest, wire), pass =>
      ∃ last, pass = some (.condition last) ∧ last.pabybuf = pabybuf ∧ last.wire = wire ∧
        Held n (part ++ rest) last ∧
        (part ++ rest).length = n

theorem FillEnds.behind {pabybuf : Nat} {data : List UInt8} {rest : Option (List UInt8) × ω}
    {pass : Option (RadarPass ω)} (ends : FillEnds n pabybuf (part ++ data) rest pass) :
    FillEnds n pabybuf part (rest.1.map (data ++ ·), rest.2) pass := by
  obtain ⟨_ | bytes, wire⟩ := rest
  · exact ends
  · simpa only [FillEnds, Option.map_some, List.append_assoc] using ends

theorem Held.append {data : List UInt8} (wire : ω) (held : Held n part s)
    (le : part.length + data.length ≤ n)
    (small : n < 2 ^ 32) :
    Held n (part ++ data)
      { s with
        rLenght := wrapSub 32 s.integrityPkgLen (s.offset + data.length)
        offset := s.offset + data.length
        mem := s.mem.store (s.pabybuf + s.offset) data
        wire } := by
  obtain ⟨rfl, offset, asked, stored⟩ := held
  refine ⟨rfl, ?_, ?_, ?_⟩
  · rw [List.length_append, offset]
  · rw [List.length_append, offset]
    exact wrapSub_of_le le small
  · rw [List.length_append, offset, Ptr.read_store_append, stored]

/-- Each pass but a failing one brings at least one byte, so the passes suffice. -/
theorem Held.fill (conn : Connection ω) (call : RadarCall) (fuel fuel' : Nat) (held : Held n part s)
    (missing : part.length < n) (small : n < 2 ^ 32)
    (enough : n - part.length ≤ fuel) (enough' : n - part.length ≤ fuel') :
    FillEnds n s.pabybuf part (conn.readAll fuel' s.wire (n - part.length))
      (radarLoop conn.recv call fuel s) := by
  induction fuel generalizing fuel' s part with
  | zero => omega
  | succ fuel ih =>
      obtain ⟨fuel', rfl⟩ := Nat.exists_eq_succ_of_ne_zero (by omega : fuel' ≠ 0)
      have some : s.integrityPkgLen ≠ 0 := by
        rw [held.size]
        omega
      rcases got : conn.recv s.wire (n - part.length) with ⟨data, wire⟩
      have fits : data.length ≤ n - part.length := conn.recv_le got
      by_cases failed : data.length = 0
      · have none : (conn.recv s.wire (n - part.length)).1.length = 0 := by rw [got, failed]
        have body := radarLoopBody_failed conn.recv call (held.asked ▸ none) some
        rw [conn.readAll_failed fuel' (by omega) none, radarLoop, body, held.asked]
        rfl
      · have fits' : part.length + data.length ≤ n := by omega
        have pass := radarLoopBody_later call (held.asked ▸ got) (Nat.pos_of_ne_zero failed)
          (Nat.pos_of_ne_zero some)
        have longer := held.append wire fits' small
        have counted : (part ++ data).length = part.length + data.length := List.length_append
        have left : n - part.length - data.length = n - (part ++ data).length := by omega
        rw [conn.readAll_some fuel' got (by omega) failed, left]
        apply FillEnds.behind
        by_cases whole : (part ++ data).length = n
        · have ended :=
            radarLoop_done fuel pass (longer.size.trans_le (whole.symm.trans_le longer.offset.ge))
          rw [ended, whole, Nat.sub_self, conn.readAll_zero]
          exact ⟨_, rfl, rfl, rfl, by simpa using longer, by simpa using whole⟩
        · have short : (part ++ data).length < n := by omega
          rw [radarLoop_again pass (longer.offset.trans_lt (short.trans_eq longer.size.symm))]
          exact ih fuel' longer (by omega) (by omega) (by omega)

end Fill

/-! ## One callback -/

section Callback

variable {conn : Connection ω} {call : RadarCall} {psNetwork : RadarNetwork} {wire : ω}

/-- The local array behind the first read. -/
def radarArray (call : RadarCall) (first : List UInt8) : Ptr UInt8 :=
  (call.mem.store call.abyBuffer (List.replicate alinkHeaderChecksumLen 0)).store
    call.abyBuffer first

theorem radarArray_read (call : RadarCall) (first : List UInt8) :
    ((radarArray call first).advance call.abyBuffer).read first.length = first :=
  Ptr.read_store _ _ _

/-- The locals behind the first pass, when `malloc` returned `a`. -/
def radarLoopFilled (call : RadarCall) (first : List UInt8) (next : ω) (uIndex a : Nat) :
    RadarLoop ω where
  pabybuf := a
  rLenght := wrapSub 32 (radarPackageSize call first uIndex) (first.length - uIndex)
  integrityPkgLen := radarPackageSize call first uIndex
  offset := first.length - uIndex
  mem := (radarArray call first).store a (first.drop uIndex)
  wire := next

theorem radarLoopFilled_held (call : RadarCall) (first : List UInt8) (next : ω) (uIndex a : Nat)
    (most : first.length ≤ 8) :
    Held (radarPackageSize call first uIndex) (first.drop uIndex)
      (radarLoopFilled call first next uIndex a) := by
  have least : 11 ≤ radarPackageSize call first uIndex := (alinkGetPackageSize_bounds _).1
  have largest : radarPackageSize call first uIndex ≤ 65546 := (alinkGetPackageSize_bounds _).2
  refine ⟨rfl, List.length_drop.symm, ?_, Ptr.read_store _ _ _⟩
  rw [List.length_drop]
  exact wrapSub_of_le (by omega) (by omega)

theorem radarLoopBody_start (call : RadarCall) {first : List UInt8} {next : ω}
    (got : conn.recv wire alinkHeaderChecksumLen = (first, next)) :
    radarLoopBody conn.recv call (radarLoopStart call wire) =
      match first.findIdx? alinkCheckMagic with
      | none => .cbkExit none next
      | some uIndex =>
          match call.malloc (radarPackageSize call first uIndex) with
          | none => .cbkExit none next
          | some a =>
              .condition (radarLoopFilled call first next uIndex a) := by
  have array := radarArray_read call first
  have same : (radarLoopStart call wire).mem.store (call.abyBuffer + 0) first =
      radarArray call first := rfl
  have start : conn.recv (radarLoopStart call wire).wire (radarLoopStart call wire).rLenght =
      (first, next) := got
  have zero : (radarLoopStart call wire).integrityPkgLen = 0 := rfl
  have place : (radarLoopStart call wire).pabybuf + (radarLoopStart call wire).offset =
      call.abyBuffer + 0 := rfl
  cases found : first.findIdx? alinkCheckMagic with
  | none =>
      by_cases empty : first.length = 0
      · simp only [radarLoopBody, start, zero, empty, if_true]
      · simp only [radarLoopBody, start, zero, place, same, empty, alinkPackageValidLength, array,
          found, if_true, if_false, gt_iff_lt, Nat.lt_irrefl]
  | some uIndex =>
      have inside : uIndex < first.length := (List.findIdx?_eq_some_iff_findIdx_eq.mp found).1
      have nonempty : first.length ≠ 0 := by omega
      have size :
        alinkGetPackageSize (((radarArray call first).advance call.abyBuffer).advance uIndex) =
          radarPackageSize call first uIndex := by rw [Ptr.advance_advance]; rfl
      have pos : radarPackageSize call first uIndex > 0 :=
        Nat.lt_of_lt_of_le (by decide : 0 < 11) (alinkGetPackageSize_bounds _).1
      have tail : ((radarArray call first).advance (call.abyBuffer + uIndex)).read
        (first.length - uIndex) =
          first.drop uIndex := by
        rw [← Ptr.advance_advance, ← Ptr.drop_read _ (Nat.le_of_lt inside), array]
      simp only [radarLoopBody, start, zero, place, same, nonempty, alinkPackageValidLength,
        alinkGetPackageHeadIndex, array, found, size, pos, tail, if_true, if_false]
      rfl

/-- The import a callback makes of the package at `pabybuf`. -/
def RadarNetwork.importAt (psNetwork : RadarNetwork) (pabybuf uLength : Nat) : AlinkRecvImport :=
  { ePortId := 1, pbyData := pabybuf, uLength, handle := psNetwork.psSocket,
    peSend := psNetwork.piSend }

/-- A callback that collects nothing leaves the network as it was. -/
def LeftAlone (psNetwork : RadarNetwork) (wire : ω) (result : Option (RadarDone ω)) : Prop :=
  ∃ freed, result = some { psNetwork, wire, sent := [], freed }

/-- A callback that collects a package gives it to the receiver and frees it. -/
def HandedOver (psNetwork : RadarNetwork) (wire : ω) (package : List UInt8)
    (result : Option (RadarDone ω)) : Prop :=
  ∃ mem a, (mem.advance a).read package.length = package ∧ package.length ≤ 65546 ∧
    result = (alinkSocketTask mem psNetwork.sAlinkSocket (psNetwork.importAt a package.length)).map
    fun after =>
      { psNetwork := { psNetwork with sAlinkSocket := after.1 }, wire,
        sent := after.2, freed := some a }

/-- What the callback does is decided by what it collects. -/
theorem radarNetworkCbkData_collect (conn : Connection ω) (call : RadarCall)
    (psNetwork : RadarNetwork) (wire : ω) :
    match radarCollect conn call wire with
    | (none, after) => LeftAlone psNetwork after (radarNetworkCbkData conn.recv call psNetwork wire)
    | (some package, after) =>
      HandedOver psNetwork after package (radarNetworkCbkData conn.recv call psNetwork wire) := by
  rcases got : conn.recv wire alinkHeaderChecksumLen with ⟨first, next⟩
  have body := radarLoopBody_start call got
  have most : first.length ≤ 8 := conn.recv_le got
  unfold radarCollect radarNetworkCbkData radarLoopFuel
  simp only [got]
  cases found : first.findIdx? alinkCheckMagic with
  | none =>
      simp only [found] at body
      rw [radarLoop, body]
      exact ⟨none, rfl⟩
  | some uIndex =>
      have inside : uIndex < first.length := (List.findIdx?_eq_some_iff_findIdx_eq.mp found).1
      obtain ⟨least, largest⟩ :
        11 ≤ radarPackageSize call first uIndex ∧ radarPackageSize call first uIndex ≤ 65546 :=
        alinkGetPackageSize_bounds _
      simp only [found] at body ⊢
      cases placed : call.malloc (radarPackageSize call first uIndex) with
      | none =>
          simp only [placed] at body
          rw [radarLoop, body]
          exact ⟨none, rfl⟩
      | some a =>
          simp only [placed] at body ⊢
          have missing : (first.drop uIndex).length < radarPackageSize call first uIndex := by
            rw [List.length_drop]
            omega
          have held := radarLoopFilled_held call first next uIndex a most
          have ends := held.fill conn call 65545 (radarPackageSize call first uIndex) missing
            (by omega) (by rw [List.length_drop]; omega) (Nat.sub_le _ _)
          have left : (radarLoopFilled call first next uIndex a).wire = next := rfl
          rw [List.length_drop, left] at ends
          rw [radarLoop_again body (by rwa [held.offset])]
          generalize conn.readAll (radarPackageSize call first uIndex) next
            (radarPackageSize call first uIndex - (first.length - uIndex)) = rest at ends ⊢
          obtain ⟨_ | rest, after⟩ := rest
          · have stopped :
              radarLoop conn.recv call 65545 (radarLoopFilled call first next uIndex a) =
                some (.cbkExit (some a) after) := ends
            rw [stopped]
            exact ⟨some a, rfl⟩
          · obtain ⟨last, ran, rfl, rfl, full, whole⟩ := ends
            refine ⟨last.mem, last.pabybuf, full.stored, whole.trans_le largest, ?_⟩
            rw [ran, whole, ← full.size]
            rfl

theorem radarNetworkCbkData_returns (conn : Connection ω) (call : RadarCall) (wire : ω)
    (holds : RecvInvariant psNetwork.sAlinkSocket.sRecv) :
    ∃ done, radarNetworkCbkData conn.recv call psNetwork wire = some done ∧
      RecvInvariant done.psNetwork.sAlinkSocket.sRecv ∧
      done.wire = (radarCollect conn call wire).2 := by
  have collect := radarNetworkCbkData_collect conn call psNetwork wire
  generalize radarCollect conn call wire = collected at collect ⊢
  obtain ⟨_ | package, after⟩ := collected
  · obtain ⟨freed, ran⟩ := collect
    exact ⟨_, ran, holds, rfl⟩
  · obtain ⟨mem, a, -, most, ran⟩ := collect
    have small : (psNetwork.importAt a package.length).uLength ≤ alinkImportMax :=
      Nat.le_trans most (by decide)
    obtain ⟨psRecv, sent, returned, kept⟩ := alinkRecvTask_returns mem holds small
    rw [alinkSocketTask, returned] at ran
    exact ⟨_, ran, kept, rfl⟩

/-- A receiver that looks for a magic byte does so again after the callback
    exactly when the package collected, if any, is made of whole pieces. -/
theorem radarNetworkCbkData_magic_iff {psHandle : AlinkOrderRef} (conn : Connection ω)
    (call : RadarCall) (wire : ω)
    (idle : psNetwork.sAlinkSocket.Idle psHandle) :
    ∃ done, radarNetworkCbkData conn.recv call psNetwork wire = some done ∧
      done.wire = (radarCollect conn call wire).2 ∧
      done.psNetwork.sAlinkSocket.sRecv.sRecvCbk = some psHandle ∧
      (done.psNetwork.sAlinkSocket.sRecv.puState = .checkMagic ↔
        ∀ package, (radarCollect conn call wire).1 = some package → alinkFormat.Whole package) := by
  have collect := radarNetworkCbkData_collect conn call psNetwork wire
  generalize radarCollect conn call wire = collected at collect ⊢
  obtain ⟨_ | package, after⟩ := collected
  · obtain ⟨freed, ran⟩ := collect
    refine ⟨_, ran, rfl, idle.registered, ?_⟩
    simp [idle.magic]
  · obtain ⟨mem, a, stored, most, ran⟩ := collect
    have ready : Ready mem psHandle psNetwork.sAlinkSocket.sRecv
        (psNetwork.importAt a package.length) package :=
      ⟨idle.magic, idle.registered, rfl, stored, Nat.le_trans most (by decide)⟩
    obtain ⟨psRecv, sent, returned, scanned⟩ := alinkRecvTask_scan ready
    rw [alinkSocketTask, returned] at ran
    refine ⟨_, ran, rfl, scanned.registered, ?_⟩
    rw [show _ ↔ _ from scanned.awaits.magic_iff]
    constructor
    · rintro settled other same
      cases same
      exact alinkFormat.whole_iff_settled.mpr settled
    · intro whole
      exact alinkFormat.whole_iff_settled.mp (whole package rfl)

end Callback

/-! ## All callbacks of a connection -/

theorem radarCallbacks_cons {piRecv : PiRecv ω} {call : RadarCall} {calls : List RadarCall}
    {psNetwork : RadarNetwork}
    {wire : ω} {done : RadarDone ω} {dones : List (RadarDone ω)}
    (ran : radarNetworkCbkData piRecv call psNetwork wire = some done)
    (rest : radarCallbacks piRecv calls done.psNetwork done.wire = some dones) :
    radarCallbacks piRecv (call :: calls) psNetwork wire = some (done :: dones) := by
  rw [radarCallbacks, ran, Option.bind_some, rest]
  rfl

theorem radarCallbacks_returns (conn : Connection ω) (calls : List RadarCall)
    {psNetwork : RadarNetwork} (wire : ω)
    (holds : RecvInvariant psNetwork.sAlinkSocket.sRecv) :
    ∃ dones, radarCallbacks conn.recv calls psNetwork wire = some dones := by
  induction calls generalizing psNetwork wire with
  | nil => exact ⟨[], rfl⟩
  | cons call calls ih =>
      obtain ⟨done, ran, kept, -⟩ := radarNetworkCbkData_returns conn call wire holds
      obtain ⟨dones, rest⟩ := ih done.wire kept
      exact ⟨done :: dones, radarCallbacks_cons ran rest⟩

/-- Up to the first callback that leaves the receiver undecided every one starts
    with a receiver that looks for a magic byte. -/
theorem radarCallbacks_magic_iff {psHandle : AlinkOrderRef} (conn : Connection ω)
    (calls : List RadarCall)
    {psNetwork : RadarNetwork} (wire : ω) (idle : psNetwork.sAlinkSocket.Idle psHandle) :
    ∃ dones, radarCallbacks conn.recv calls psNetwork wire = some dones ∧
      ((∀ done ∈ dones, done.psNetwork.sAlinkSocket.sRecv.puState = .checkMagic) ↔
        PackagesWhole conn calls wire) := by
  induction calls generalizing psNetwork wire with
  | nil => exact ⟨[], rfl, by simp [PackagesWhole]⟩
  | cons call calls ih =>
      obtain ⟨done, ran, left, registered, magic⟩ :=
        radarNetworkCbkData_magic_iff conn call wire idle
      by_cases looks : done.psNetwork.sAlinkSocket.sRecv.puState = .checkMagic
      · obtain ⟨dones, rest, later⟩ := ih done.wire ⟨looks, registered⟩
        refine ⟨done :: dones, radarCallbacks_cons ran rest, ?_⟩
        rw [List.forall_mem_cons, later, magic, PackagesWhole, left]
      · obtain ⟨same, ran', kept, -⟩ :=
          radarNetworkCbkData_returns conn call wire (invariant_magic idle.magic)
        obtain rfl : same = done := Option.some.inj (ran'.symm.trans ran)
        obtain ⟨dones, rest⟩ := radarCallbacks_returns conn calls same.wire kept
        refine ⟨same :: dones, radarCallbacks_cons ran' rest, ?_⟩
        constructor
        · intro every
          exact (looks (every same List.mem_cons_self)).elim
        · intro whole
          exact (looks (magic.mpr whole.1)).elim

/-- The receiver of a radar is back at looking for a magic byte whenever a buffer
    has been freed, exactly when all packages collected are made of whole pieces. -/
theorem radarNetwork_no_dangling_iff (conn : Connection ω) (psSocket : Nat) (piSend : Bool)
    (calls : List RadarCall)
    (wire : ω) :
    ∃ dones, radarCallbacks conn.recv calls (radarNetworkCreate psSocket piSend) wire = some dones ∧
      ((∀ done ∈ dones, done.psNetwork.sAlinkSocket.sRecv.puState = .checkMagic) ↔
        PackagesWhole conn calls wire) :=
  radarCallbacks_magic_iff conn calls wire (alinkSocketInit_idle zeroSocket .sOrderServer)

theorem Wire.recv_length_le (wire : Wire) (uSize : Nat) : (wire.recv uSize).1.length ≤ uSize := by
  simp only [Wire.recv, List.length_take]
  omega

/-- `Wire` as a connection. -/
def Wire.connection : Connection Wire where
  recv := Wire.recv
  le := Wire.recv_length_le

/-- A header with a wrong checksum, and a magic byte among the two bytes behind
    it: the receiver is left with an address in the buffer just freed. -/
theorem radarNetwork_dangling :
    (radarCallbacks Wire.connection.recv [quietCall] (radarNetworkCreate 7 true)
        { stream := [0xFD, 0, 0, 1, 0, 0, 0, 0, 0xAA, 0xFD, 5], counts := fun _ => 8 }).map
      (fun dones => dones.map fun done =>
        (done.freed, done.psNetwork.sAlinkSocket.sRecv.puState,
          done.psNetwork.sAlinkSocket.sRecv.pbyBuffer)) =
      some [(some 100, .checkHead, 109)] := by
  decide

end PtzAgx.App
