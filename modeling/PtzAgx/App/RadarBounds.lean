import PtzAgx.App.RadarBuffer
import PtzAgx.Lib.Object

/-! # The bounds of a radar buffer

`radar_network_cbk_data` once more, with the array and the block it allocates as
objects: what is written outside of them, or freed without having been
allocated, has no result. What it asks of the world around it is recorded.
-/

namespace PtzAgx.App.RadarBounds

open Bytes Object Words Alink

/-- What `pabybuf` points to. -/
inductive Pabybuf where
  | null
  | abyBuffer
  | block
  deriving DecidableEq, Repr

/-- A call the callback makes. `room` is what is left of the object behind the
    place it wants bytes at. -/
inductive Action where
  | recv (room uSize : Nat) (data : List UInt8)
  | malloc (size : Nat)
  | alinkSocketTask (package : List UInt8)
  | free
  deriving DecidableEq, Repr

variable {ω : Type}

/-- The local variables, with the objects they are about. -/
structure RadarLocals (ω : Type) where
  abyBuffer : List UInt8
  block : List UInt8
  pabybuf : Pabybuf
  rLenght : Nat
  integrityPkgLen : Nat
  offset : Nat
  wire : ω

def RadarLocals.object (s : RadarLocals ω) : List UInt8 :=
  match s.pabybuf with
  | .null => []
  | .abyBuffer => s.abyBuffer
  | .block => s.block

/-- The locals after these bytes have been written to `pabybuf + offset`. -/
def RadarLocals.store (s : RadarLocals ω) (data : List UInt8) : Option (RadarLocals ω) :=
  match s.pabybuf with
  | .null => none
  | .abyBuffer => (write s.abyBuffer s.offset data).map fun abyBuffer => { s with abyBuffer }
  | .block => (write s.block s.offset data).map fun block => { s with block }

/-- The array, and behind it what memory holds there. -/
def arrayPointer (call : RadarCall) (abyBuffer : List UInt8) : Ptr UInt8 :=
  (call.mem.advance call.abyBuffer).store 0 abyBuffer

/-- How a pass ends, as in `RadarPass`. -/
inductive RadarEnd (ω : Type) where
  | condition (s : RadarLocals ω)
  | cbkExit (pabybuf : Pabybuf) (wire : ω)

/-- The rest of a pass, behind a read of `iLength` bytes. -/
def radarLoopRest (call : RadarCall) (iLength : Nat) (s : RadarLocals ω) :
    Option (List Action × RadarEnd ω) :=
  if s.integrityPkgLen = 0 then
    let pr := arrayPointer call s.abyBuffer
    let integrityPkgLen := alinkPackageValidLength pr iLength
    if integrityPkgLen > 0 then
      match call.malloc integrityPkgLen with
      | none => some ([.malloc integrityPkgLen], .cbkExit .null s.wire)
      | some pabybuf => do
          let offset := alinkGetPackageHeadIndex pr iLength
          let head ← slice s.abyBuffer offset (iLength - offset)
          let block ← write ((call.mem.advance pabybuf).read integrityPkgLen) 0 head
          let offset := iLength - offset
          let rLenght := wrapSub 32 integrityPkgLen offset
          some ([.malloc integrityPkgLen],
            .condition { s with block, pabybuf := .block, rLenght, integrityPkgLen, offset })
    else some ([], .cbkExit .null s.wire)
  else
    let offset := s.offset + iLength
    some ([], .condition { s with rLenght := wrapSub 32 s.integrityPkgLen offset, offset })

def radarLoopBody (piRecv : PiRecv ω) (call : RadarCall) (s : RadarLocals ω) :
    Option (List Action × RadarEnd ω) :=
  match piRecv s.wire s.rLenght with
  | (data, wire) =>
      let asked := Action.recv (s.object.length - s.offset) s.rLenght data
      if data.length = 0
        then some ([asked], .cbkExit (if s.integrityPkgLen = 0 then .null else s.pabybuf) wire)
      else
        ((RadarLocals.store { s with wire } data).bind (radarLoopRest call data.length)).map
          fun (later, ended) =>
          (asked :: later, ended)

def radarLoop (piRecv : PiRecv ω) (call : RadarCall) :
    Nat → RadarLocals ω → Option (List Action × RadarEnd ω)
  | 0, _ => none
  | fuel + 1, s =>
      match radarLoopBody piRecv call s with
      | none => none
      | some (actions, .condition s) =>
          if s.integrityPkgLen > s.offset then
            (radarLoop piRecv call fuel s).map fun later => (actions ++ later.1, later.2)
          else some (actions, .condition s)
      | some (actions, .cbkExit pabybuf wire) => some (actions, .cbkExit pabybuf wire)

/-- `if(pabybuf) free(pabybuf)`. The array is not a block. -/
def cbkExit : Pabybuf → Option (List Action)
  | .null => some []
  | .abyBuffer => none
  | .block => some [.free]

def radarLoopStart (wire : ω) : RadarLocals ω where
  abyBuffer := List.replicate alinkHeaderChecksumLen 0
  block := []
  pabybuf := .abyBuffer
  rLenght := alinkHeaderChecksumLen
  integrityPkgLen := 0
  offset := 0
  wire := wire

/-- What a callback does, and its connection behind it. -/
def radarNetworkCbkData (piRecv : PiRecv ω) (call : RadarCall) (wire : ω) :
    Option (List Action × ω) :=
  match radarLoop piRecv call radarLoopFuel (radarLoopStart wire) with
  | none => none
  | some (actions, .cbkExit pabybuf wire) =>
    (cbkExit pabybuf).map fun last => (actions ++ last, wire)
  | some (actions, .condition s) => do
      let package ← slice s.object (0 : Nat) s.integrityPkgLen
      let last ← cbkExit s.pabybuf
      return (actions ++ .alinkSocketTask package :: last, s.wire)

/-- All bytes received. -/
def received (actions : List Action) : List UInt8 :=
  actions.flatMap fun
    | .recv _ _ data => data
    | _ => []

/-- What `alink_package_integrity_check` returns behind the first read. -/
def integrityPkgLen (call : RadarCall) (first : List UInt8) : Nat :=
  alinkPackageValidLength
    (arrayPointer call (overlay (List.replicate alinkHeaderChecksumLen 0) first)) first.length

/-! ## What the first read leaves -/

/-- Written over zeros in memory or in the object, the array looks the same. -/
theorem arrayPointer_eq (call : RadarCall) (first : List UInt8) :
    arrayPointer call (overlay (List.replicate alinkHeaderChecksumLen 0) first) =
      (radarArray call first).advance call.abyBuffer := by
  rw [radarArray, Ptr.store_store, Ptr.advance_store]
  rfl

/-- The check finds no package without a magic byte, and never one that is
    shorter than an empty message or longer than a length field allows. -/
theorem integrityPkgLen_cases (call : RadarCall) (first : List UInt8) :
    (first.findIdx? alinkCheckMagic = none ∧ integrityPkgLen call first = 0) ∨
      ∃ uIndex, first.findIdx? alinkCheckMagic = some uIndex ∧ uIndex < first.length ∧
        integrityPkgLen call first = radarPackageSize call first uIndex ∧
        11 ≤ integrityPkgLen call first ∧ integrityPkgLen call first ≤ 65546 := by
  have array := radarArray_read call first
  cases found : first.findIdx? alinkCheckMagic with
  | none =>
    exact .inl ⟨rfl, by
      rw [integrityPkgLen, arrayPointer_eq call first, alinkPackageValidLength, array, found]⟩
  | some uIndex =>
      have size : integrityPkgLen call first = radarPackageSize call first uIndex := by
        simp only [integrityPkgLen, arrayPointer_eq call first, alinkPackageValidLength,
          array, found, Ptr.advance_advance]
        rfl
      have inside : uIndex < first.length := (List.findIdx?_eq_some_iff_findIdx_eq.mp found).1
      exact .inr ⟨uIndex, rfl, inside, size, size ▸ (alinkGetPackageSize_bounds _).1,
        size ▸ (alinkGetPackageSize_bounds _).2⟩

/-! ## Filling the block -/

/-- A request for at least one byte and no more than there is room for. -/
def Action.Fits : Action → Prop
  | .recv room uSize _ => 1 ≤ uSize ∧ uSize ≤ room
  | .malloc _ => True
  | .alinkSocketTask _ => False
  | .free => False

/-- `part` of a package of `n` bytes is in the block. -/
structure Filled (n : Nat) (part : List UInt8) (s : RadarLocals ω) : Prop where
  points : s.pabybuf = .block
  size : s.integrityPkgLen = n
  whole : s.block.length = n
  offset : s.offset = part.length
  asked : s.rLenght = n - part.length
  stored : s.block.take part.length = part

section Fill

variable {conn : Connection ω} {call : RadarCall} {s : RadarLocals ω} {part : List UInt8} {n : Nat}

theorem Filled.object (filled : Filled n part s) : s.object = s.block := by
  rw [RadarLocals.object, filled.points]

theorem radarLoopBody_nothing {wire : ω} (call : RadarCall)
    (got : conn.recv s.wire s.rLenght = ([], wire)) :
    radarLoopBody conn.recv call s =
      some ([.recv (s.object.length - s.offset) s.rLenght []],
        .cbkExit (if s.integrityPkgLen = 0 then .null else s.pabybuf) wire) := by
  rw [radarLoopBody, got]
  exact if_pos rfl

theorem radarLoopBody_some {data : List UInt8} {wire : ω} {read : RadarLocals ω} (call : RadarCall)
    (got : conn.recv s.wire s.rLenght = (data, wire)) (some_data : data.length ≠ 0)
    (stored : RadarLocals.store { s with wire } data = some read) :
    radarLoopBody conn.recv call s =
      (radarLoopRest call data.length read).map fun (later, ended) =>
        (.recv (s.object.length - s.offset) s.rLenght data :: later, ended) := by
  rw [radarLoopBody, got]
  simp only [some_data, if_false]
  rw [stored]
  rfl

theorem Filled.step (call : RadarCall) {data : List UInt8} {wire : ω} (filled : Filled n part s)
    (small : n < 2 ^ 32) (missing : part.length < n)
    (got : conn.recv s.wire (n - part.length) = (data, wire)) (some_data : data.length ≠ 0) :
    ∃ next, radarLoopBody conn.recv call s =
        some ([.recv (n - part.length) (n - part.length) data], .condition next) ∧
      next.wire = wire ∧ Filled n (part ++ data) next := by
  have le : part.length + data.length ≤ n :=
    Nat.add_le_of_le_sub' (Nat.le_of_lt missing) (conn.recv_le got)
  obtain ⟨points, size, whole, offset, asked, stored⟩ := filled
  have later : s.integrityPkgLen ≠ 0 := by omega
  have inside : s.offset + data.length ≤ s.block.length := by omega
  have room : s.object.length - s.offset = n - part.length := by
    rw [RadarLocals.object, points, whole, offset]
  have longer : (part ++ data).length = part.length + data.length := List.length_append
  have written : write s.block s.offset data =
      some (part ++ data ++ s.block.drop (part.length + data.length)) := by
    rw [write, if_pos inside, offset, stored]
  have copied : RadarLocals.store { s with wire } data =
      some { s with wire, block := part ++ data ++ s.block.drop (part.length + data.length) } := by
    simp only [RadarLocals.store, points, written, Option.map_some]
  have pass := radarLoopBody_some call (asked ▸ got) some_data copied
  rw [radarLoopRest, if_neg later, room, asked] at pass
  refine ⟨_, pass, rfl, points, size, ?_, ?_, ?_, ?_⟩
  · rw [List.length_append, longer, List.length_drop]
    omega
  · rw [longer]
    exact congrArg (· + data.length) offset
  · rw [longer]
    simp only [offset, size]
    exact wrapSub_of_le le small
  · exact List.take_left

theorem Filled.failed {wire : ω} (filled : Filled n part s) (missing : part.length < n)
    (got : conn.recv s.wire (n - part.length) = ([], wire)) :
    radarLoopBody conn.recv call s = some ([.recv (n - part.length) (n - part.length) []],
      .cbkExit .block wire) := by
  have later : s.integrityPkgLen ≠ 0 := by
    rw [filled.size]
    omega
  have room : s.object.length - s.offset = n - part.length := by
    rw [filled.object, filled.whole, filled.offset]
  rw [radarLoopBody_nothing call (filled.asked ▸ got), room, filled.asked, if_neg later,
    filled.points]

/-- How the loop ends, given what the connection has for it. -/
def FillEnds (n : Nat) (part : List UInt8) :
    Option (List UInt8) × ω → Option (List Action × RadarEnd ω) → Prop
  | (none, wire), ended =>
      ∃ actions, ended = some (actions, .cbkExit .block wire) ∧ ∀ action ∈ actions, action.Fits
  | (some bytes, wire), ended =>
      ∃ actions last, ended = some (actions, .condition last) ∧ (∀ action ∈ actions, action.Fits) ∧
        received actions = bytes ∧ last.wire = wire ∧ Filled n (part ++ bytes) last ∧
        (part ++ bytes).length = n

theorem received_append (front back : List Action) :
    received (front ++ back) = received front ++ received back :=
  List.flatMap_append

theorem FillEnds.behind {room : Nat} {data : List UInt8} {rest : Option (List UInt8) × ω}
    {later : Option (List Action × RadarEnd ω)} (fits : (Action.recv room room data).Fits)
    (ends : FillEnds n (part ++ data) rest later) :
    FillEnds n part (rest.1.map (data ++ ·), rest.2)
      (later.map fun later => ([.recv room room data] ++ later.1, later.2)) := by
  obtain ⟨_ | bytes, wire⟩ := rest
  · obtain ⟨actions, rfl, fit⟩ := ends
    exact ⟨_, rfl, List.forall_mem_cons.mpr ⟨fits, fit⟩⟩
  · obtain ⟨actions, last, rfl, fit, heard, left, filled, whole⟩ := ends
    rw [List.append_assoc] at filled whole
    exact ⟨_, last, rfl, List.forall_mem_cons.mpr ⟨fits, fit⟩, congrArg (data ++ ·) heard, left,
      filled, whole⟩

/-- Each pass but a failing one brings at least one byte, so the passes suffice. -/
theorem Filled.fill (conn : Connection ω) (call : RadarCall) (fuel fuel' : Nat)
    (filled : Filled n part s)
    (small : n < 2 ^ 32) (missing : part.length < n) (enough : n - part.length ≤ fuel)
    (enough' : n - part.length ≤ fuel') :
    FillEnds n part (conn.readAll fuel' s.wire (n - part.length))
      (radarLoop conn.recv call fuel s) := by
  induction fuel generalizing fuel' s part with
  | zero => omega
  | succ fuel ih =>
      obtain ⟨fuel', rfl⟩ := Nat.exists_eq_succ_of_ne_zero (by omega : fuel' ≠ 0)
      have fits (data : List UInt8) : (Action.recv (n - part.length) (n - part.length) data).Fits :=
        ⟨by omega, Nat.le_refl _⟩
      rcases got : conn.recv s.wire (n - part.length) with ⟨data, wire⟩
      cases data with
      | nil =>
          have nothing : (conn.recv s.wire (n - part.length)).1.length = 0 := by
            rw [got]
            rfl
          rw [conn.readAll_failed fuel' (by omega) nothing, radarLoop, filled.failed missing got,
            got]
          exact ⟨_, rfl, List.forall_mem_singleton.mpr (fits [])⟩
      | cons b data =>
          have some_data : (b :: data).length ≠ 0 := Nat.succ_ne_zero _
          obtain ⟨next, pass, rfl, longer⟩ := filled.step call small missing got some_data
          have counted : (part ++ b :: data).length = part.length + (b :: data).length :=
            List.length_append
          have left : n - part.length - (b :: data).length = n - (part ++ b :: data).length := by
            omega
          have bound : (b :: data).length ≤ n - part.length := conn.recv_le got
          rw [conn.readAll_some fuel' got (by omega) some_data, left, radarLoop, pass]
          cases Nat.lt_or_ge (part ++ b :: data).length n with
          | inl short =>
              have more : next.integrityPkgLen > next.offset := by
                rw [longer.size, longer.offset]
                exact short
              simp only [more, if_true]
              exact (ih fuel' longer short (by omega) (by omega)).behind (fits (b :: data))
          | inr enough =>
              have whole : (part ++ b :: data).length = n := by omega
              have ended : ¬ next.integrityPkgLen > next.offset := by
                rw [longer.size, longer.offset, whole]
                exact Nat.lt_irrefl n
              simp only [ended, if_false]
              rw [whole, Nat.sub_self, conn.readAll_zero]
              exact ⟨_, next, rfl, List.forall_mem_singleton.mpr (fits _), rfl,
                rfl, by simpa using longer, by simpa using whole⟩

end Fill

/-! ## One callback -/

section Callback

variable {conn : Connection ω} {call : RadarCall} {wire : ω}

/-- The locals behind the first read. -/
def radarLoopRead (first : List UInt8) (wire : ω) : RadarLocals ω :=
  { radarLoopStart wire with abyBuffer := overlay (List.replicate alinkHeaderChecksumLen 0) first }

theorem length_array : (List.replicate alinkHeaderChecksumLen (0 : UInt8)).length = 8 :=
  List.length_replicate

theorem radarLoopStart_store {first : List UInt8} (next : ω) (most : first.length ≤ 8) :
    RadarLocals.store { radarLoopStart wire with wire := next } first =
      some (radarLoopRead first next) := by
  have copied := write_front (most.trans_eq length_array.symm)
  simp only [RadarLocals.store, radarLoopStart, copied, Option.map_some]
  rfl

theorem slice_array {first : List UInt8} {uIndex : Nat} (most : first.length ≤ 8)
    (inside : uIndex < first.length) :
    slice (overlay (List.replicate alinkHeaderChecksumLen 0) first) uIndex (first.length - uIndex) =
      some (first.drop uIndex) := by
  have whole := length_overlay (most.trans_eq length_array.symm)
  have eight := length_array
  rw [slice_inside (by omega), ← List.drop_take, take_overlay]

/-- The first pass fills the array, and with a magic byte in it the front of a
    block of the size announced. -/
theorem radarLoopBody_start (call : RadarCall) {first : List UInt8} {next : ω}
    (got : conn.recv wire alinkHeaderChecksumLen = (first, next)) :
    match first.findIdx? alinkCheckMagic with
    | none =>
      radarLoopBody conn.recv call (radarLoopStart wire) = some ([.recv 8 8 first],
        .cbkExit .null next)
    | some uIndex =>
        match call.malloc (radarPackageSize call first uIndex) with
        | none =>
            radarLoopBody conn.recv call (radarLoopStart wire) =
              some ([.recv 8 8 first, .malloc (radarPackageSize call first uIndex)],
                .cbkExit .null next)
        | some _ => ∃ s,
            radarLoopBody conn.recv call (radarLoopStart wire) =
              some ([.recv 8 8 first, .malloc (radarPackageSize call first uIndex)], .condition s) ∧
            s.wire = next ∧ Filled (radarPackageSize call first uIndex) (first.drop uIndex) s := by
  have most : first.length ≤ 8 := conn.recv_le got
  have room : (radarLoopStart wire).object.length - (radarLoopStart wire).offset = 8 :=
    congrArg (· - 0) length_array
  have zero : (radarLoopRead first next).integrityPkgLen = 0 := rfl
  have array := radarArray_read call first
  cases empty : first with
  | nil =>
      subst empty
      rw [radarLoopBody_nothing call got, room]
      rfl
  | cons b bytes =>
      have some_data : first.length ≠ 0 := by
        rw [empty]
        exact Nat.succ_ne_zero _
      rw [← empty, radarLoopBody_some call got some_data (radarLoopStart_store next most), room,
        radarLoopRest, if_pos zero]
      have checked : alinkPackageValidLength
        (arrayPointer call (radarLoopRead first next).abyBuffer) first.length =
          integrityPkgLen call first := rfl
      rcases integrityPkgLen_cases call first with ⟨found, size⟩ | ⟨uIndex, found, inside, size,
        least, largest⟩
      · simp only [found, checked, size, gt_iff_lt, Nat.lt_irrefl, if_false, Option.map_some]
        rfl
      · have pos : radarPackageSize call first uIndex > 0 := by omega
        have index : alinkGetPackageHeadIndex
          (arrayPointer call (radarLoopRead first next).abyBuffer) first.length =
            uIndex := by
          have same := arrayPointer_eq call first
          simp only [radarLoopRead, same, alinkGetPackageHeadIndex, array, found]
        simp only [found, checked, size, pos, if_true, index]
        cases placed : call.malloc (radarPackageSize call first uIndex) with
        | none => rfl
        | some a =>
            have length : (first.drop uIndex).length = first.length - uIndex := List.length_drop
            have head : slice (radarLoopRead first next).abyBuffer uIndex (first.length - uIndex) =
                some (first.drop uIndex) := slice_array most inside
            have fits : (first.drop uIndex).length ≤
                ((call.mem.advance a).read (radarPackageSize call first uIndex)).length := by
              rw [Ptr.length_read]
              omega
            have block := write_front fits
            simp only [head, block, Option.bind_eq_bind, Option.bind_some, Option.map_some]
            refine ⟨_, rfl, rfl, rfl, rfl, ?_, length.symm, ?_, take_overlay _ _⟩
            · rw [length_overlay fits, Ptr.length_read]
            · rw [length]
              exact wrapSub_of_le (by omega) (by omega)

theorem Filled.package {last : RadarLocals ω} {n : Nat} {package : List UInt8}
    (filled : Filled n package last)
    (whole : package.length = n) :
    slice last.object (0 : Nat) last.integrityPkgLen = some package := by
  rw [filled.object, filled.size, slice_inside (by rw [filled.whole, Nat.zero_add]),
    List.drop_zero, ← whole, filled.stored]

/-- What a callback has done that collects a package, or none, when the check
    announced `n` bytes. -/
inductive CallbackDid (n : Nat) : Option (List UInt8) → List Action → Prop where
  /-- There has been no block, or it is freed. -/
  | nothing {actions last : List Action} (fits : ∀ action ∈ actions,
      action.Fits) (freed : last = [] ∨ last = [.free]) :
      CallbackDid n none (actions ++ last)
  | package {actions : List Action} {uIndex : Nat} (fits : ∀ action ∈ actions, action.Fits)
      (found : (received actions).findIdx? alinkCheckMagic = some uIndex)
      (sized : ((received actions).drop uIndex).length = n) :
      CallbackDid n (some ((received actions).drop uIndex))
        (actions ++ [.alinkSocketTask ((received actions).drop uIndex), .free])

theorem radarNetworkCbkData_did (conn : Connection ω) (call : RadarCall) (wire : ω) :
    ∃ actions, radarNetworkCbkData conn.recv call wire = some (actions,
      (radarCollect conn call wire).2) ∧
      CallbackDid (integrityPkgLen call (conn.recv wire alinkHeaderChecksumLen).1)
      (radarCollect conn call wire).1 actions := by
  rcases got : conn.recv wire alinkHeaderChecksumLen with ⟨first, next⟩
  have most : first.length ≤ 8 := conn.recv_le got
  have body := radarLoopBody_start call got
  have fits : (Action.recv 8 8 first).Fits := ⟨by decide, Nat.le_refl 8⟩
  have both (n : Nat) : ∀ action ∈ [Action.recv 8 8 first, .malloc n], action.Fits :=
    List.forall_mem_cons.mpr ⟨fits, List.forall_mem_singleton.mpr trivial⟩
  unfold radarCollect radarNetworkCbkData radarLoopFuel
  simp only [got]
  rcases integrityPkgLen_cases call first with ⟨found, size⟩ | ⟨uIndex, found, inside, size,
    least, largest⟩
  · simp only [found] at body ⊢
    rw [radarLoop, body]
    exact ⟨_, rfl, .nothing (List.forall_mem_singleton.mpr fits) (.inl rfl)⟩
  · simp only [found] at body ⊢
    rw [size] at least largest ⊢
    cases placed : call.malloc (radarPackageSize call first uIndex) with
    | none =>
        simp only [placed] at body ⊢
        rw [radarLoop, body]
        exact ⟨_, rfl, .nothing (both _) (.inl rfl)⟩
    | some a =>
        simp only [placed] at body ⊢
        obtain ⟨s, pass, rfl, filled⟩ := body
        have length : (first.drop uIndex).length = first.length - uIndex := List.length_drop
        have more : s.integrityPkgLen > s.offset := by
          rw [filled.size, filled.offset]
          omega
        have ends := filled.fill conn call 65545 (radarPackageSize call first uIndex) (by omega)
          (by omega) (by omega)
          (Nat.sub_le _ _)
        rw [length] at ends
        rw [radarLoop, pass]
        simp only [more, if_true]
        generalize conn.readAll (radarPackageSize call first uIndex) s.wire
          (radarPackageSize call first uIndex - (first.length - uIndex)) = rest at ends ⊢
        obtain ⟨_ | bytes, after⟩ := rest
        · obtain ⟨actions, ran, fit⟩ := ends
          rw [ran]
          exact ⟨_, rfl, .nothing (List.forall_mem_append.mpr ⟨both _, fit⟩) (.inr rfl)⟩
        · obtain ⟨actions, last, ran, fit, heard, rfl, full, whole⟩ := ends
          have all : received ([.recv 8 8 first, .malloc (radarPackageSize call first uIndex)] ++
              actions) = first ++ bytes := by
            rw [received_append, heard]
            simp [received]
          have package : (first ++ bytes).drop uIndex = first.drop uIndex ++ bytes :=
            List.drop_append_of_le_length (Nat.le_of_lt inside)
          have index : (first ++ bytes).findIdx? alinkCheckMagic = some uIndex := by
            rw [List.findIdx?_append, found]
            rfl
          have did := CallbackDid.package (n := radarPackageSize call first uIndex)
            (List.forall_mem_append.mpr ⟨both _, fit⟩) (all ▸ index) (by rw [all, package, whole])
          rw [all, package] at did
          rw [ran]
          refine ⟨_, ?_, did⟩
          simp only [Option.map_some, full.package whole, Option.bind_eq_bind, Option.bind_some,
            full.points, cbkExit]
          rfl

theorem Action.fits_ne {actions : List Action} (fits : ∀ action ∈ actions, action.Fits) :
    .free ∉ actions ∧ ∀ package, .alinkSocketTask package ∉ actions :=
  ⟨fun freed => fits _ freed, fun package handed => fits (.alinkSocketTask package) handed⟩

theorem CallbackDid.recv_fits {n : Nat} {collected : Option (List UInt8)} {actions : List Action}
    (did : CallbackDid n collected actions) :
    ∀ room uSize data, .recv room uSize data ∈ actions → 1 ≤ uSize ∧ uSize ≤ room := by
  intro room uSize data asked
  cases did with
  | nothing fits freed =>
      cases List.mem_append.mp asked with
      | inl inside => exact fits _ inside
      | inr behind => rcases freed with rfl | rfl <;> simp at behind
  | package fits found sized =>
      cases List.mem_append.mp asked with
      | inl inside => exact fits _ inside
      | inr behind => simp at behind

theorem CallbackDid.freed_once {n : Nat} {collected : Option (List UInt8)} {actions : List Action}
    (did : CallbackDid n collected actions) : actions.count .free ≤ 1 := by
  cases did with
  | nothing fits freed =>
      rw [List.count_append, List.count_eq_zero.mpr (Action.fits_ne fits).1]
      rcases freed with rfl | rfl <;> decide
  | package fits found sized =>
      rw [List.count_append, List.count_eq_zero.mpr (Action.fits_ne fits).1]
      simp

theorem CallbackDid.handed {n : Nat} {collected : Option (List UInt8)} {actions : List Action}
    {package : List UInt8}
    (did : CallbackDid n collected actions) (handed : .alinkSocketTask package ∈ actions) :
    collected = some package ∧ package.length = n ∧
      ∃ uIndex, (received actions).findIdx? alinkCheckMagic = some uIndex ∧
      package = (received actions).drop uIndex := by
  cases did with
  | nothing fits freed =>
      cases List.mem_append.mp handed with
      | inl inside => exact ((Action.fits_ne fits).2 package inside).elim
      | inr behind => rcases freed with rfl | rfl <;> simp at behind
  | @package actions uIndex fits found sized =>
      cases List.mem_append.mp handed with
      | inl inside => exact ((Action.fits_ne fits).2 package inside).elim
      | inr behind =>
          have same : package = (received actions).drop uIndex := by simpa using behind
          have all :
            received (actions ++ [.alinkSocketTask ((received actions).drop uIndex), .free]) =
              received actions := by
            rw [received_append]
            simp [received]
          rw [all]
          exact ⟨congrArg some same.symm, same ▸ sized, uIndex, found, same⟩

/-- The bounds of a callback. It returns, so the loop ends, all that is written
    lies inside the array or the block, and nothing but the block is freed. -/
theorem radarNetworkCbkData_bounded (conn : Connection ω) (call : RadarCall) (wire : ω) :
    ∃ actions after, radarNetworkCbkData conn.recv call wire = some (actions, after) ∧
      (∀ room uSize data, .recv room uSize data ∈ actions → 1 ≤ uSize ∧ uSize ≤ room) ∧
      actions.count .free ≤ 1 ∧
      ∀ package, .alinkSocketTask package ∈ actions →
        package.length = integrityPkgLen call (conn.recv wire alinkHeaderChecksumLen).1 ∧
          ∃ uIndex, (received actions).findIdx? alinkCheckMagic = some uIndex ∧
          package = (received actions).drop uIndex := by
  obtain ⟨actions, ran, did⟩ := radarNetworkCbkData_did conn call wire
  exact ⟨actions, _, ran, did.recv_fits, did.freed_once,
    fun package handed => (did.handed handed).2⟩

/-- The callback over memory hands over the same package, or none. -/
theorem radarNetworkCbkData_refines (conn : Connection ω) (call : RadarCall)
    (psNetwork : RadarNetwork) (wire : ω) :
    ∃ actions after, radarNetworkCbkData conn.recv call wire = some (actions, after) ∧
      ((∀ package, .alinkSocketTask package ∉ actions) →
        LeftAlone psNetwork after (App.radarNetworkCbkData conn.recv call psNetwork wire)) ∧
      ∀ package, .alinkSocketTask package ∈ actions →
        HandedOver psNetwork after package
        (App.radarNetworkCbkData conn.recv call psNetwork wire) := by
  obtain ⟨actions, ran, did⟩ := radarNetworkCbkData_did conn call wire
  have collect := radarNetworkCbkData_collect conn call psNetwork wire
  refine ⟨actions, _, ran, ?_, ?_⟩
  · intro none_handed
    generalize radarCollect conn call wire = collected at did collect ⊢
    obtain ⟨_ | package, after⟩ := collected
    · exact collect
    · cases did with
      | package fits found sized =>
        exact (none_handed _ (List.mem_append_right _ List.mem_cons_self)).elim
  · intro package handed
    have same := (did.handed handed).1
    generalize radarCollect conn call wire = collected at same collect ⊢
    obtain ⟨_ | package', after⟩ := collected
    · cases same
    · obtain rfl := Option.some.inj same
      exact collect

end Callback

end PtzAgx.App.RadarBounds
