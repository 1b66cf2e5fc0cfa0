import PtzAgx.Alink.Recv

/-! # The receiver computes the scan of its stream

One import whose bytes all lie in memory is worth exactly the scan of these
bytes in `alinkFormat`: the callbacks are the frames of the scan, and the state
left behind describes the candidate the scan is still undecided about. The
memory must not change while the import runs; what happens when it does is the
subject of the network modules.
-/

namespace PtzAgx.Alink

open Bytes Words Framing

/-- `d` is a callback for bytes of the stream `s` stored at `base`, made on
    behalf of this import. -/
structure Dispatch.From (psHandle : AlinkOrderRef) (sImport : AlinkRecvImport) (base : Nat)
    (s : List UInt8) (d : Dispatch) : Prop where
  order : d.psHandle = psHandle
  port : d.psImport.ePortId = sImport.ePortId
  handle : d.psImport.handle = sImport.handle
  peSend : d.psImport.peSend = sImport.peSend
  placed : ∃ front back, s = front ++ d.msg ++ back ∧ d.psImport.pbyMsg = base + front.length

/-- The receiver state that stands for an undecided candidate ending at address
    `stop`. -/
def Awaits (psRecv : AlinkRecv) (stop : Nat) (pending : List UInt8) : Prop :=
  match psRecv.puState with
  | .checkMagic => pending = []
  | .checkHead =>
      0 < pending.length ∧ pending.length < alinkMsgHeadSize ∧ psRecv.wCount = pending.length ∧
        psRecv.pbyBuffer + pending.length = stop
  | .checkCrc =>
      alinkMsgHeadSize ≤ pending.length ∧ pending.length < psRecv.wPkgSize ∧
        psRecv.wPkgSize = alinkFormat.size (alinkFormat.head pending) ∧
        psRecv.wCount = pending.length ∧ psRecv.pbyBuffer + pending.length = stop

theorem Awaits.magic_iff {psRecv : AlinkRecv} {stop : Nat} {pending : List UInt8}
    (awaits : Awaits psRecv stop pending) : psRecv.puState = .checkMagic ↔ pending = [] := by
  unfold Awaits at awaits
  cases state : psRecv.puState with
  | checkMagic => simpa [state] using awaits
  | checkHead =>
      simp only [state] at awaits
      simpa using List.ne_nil_of_length_pos awaits.1
  | checkCrc =>
      simp only [state, alinkMsgHeadSize] at awaits
      simpa using List.ne_nil_of_length_pos (by omega : 0 < pending.length)

theorem awaits_head {psRecv : AlinkRecv} {stop : Nat} {pending : List UInt8}
    (state : psRecv.puState = .checkHead)
    (started : 0 < pending.length) (part : pending.length < alinkMsgHeadSize)
    (counted : psRecv.wCount = pending.length)
    (located : psRecv.pbyBuffer + pending.length = stop) :
    Awaits psRecv stop pending := by
  rw [Awaits, state]
  exact ⟨started, part, counted, located⟩

theorem awaits_crc {psRecv : AlinkRecv} {stop : Nat} {pending : List UInt8}
    (state : psRecv.puState = .checkCrc)
    (hasHead : alinkMsgHeadSize ≤ pending.length) (part : pending.length < psRecv.wPkgSize)
    (sized : psRecv.wPkgSize = alinkFormat.size (alinkFormat.head pending))
    (counted : psRecv.wCount = pending.length)
    (located : psRecv.pbyBuffer + pending.length = stop) :
    Awaits psRecv stop pending := by
  rw [Awaits, state]
  exact ⟨hasHead, part, sized, counted, located⟩

/-- The result of running a receiver over the stream `s` stored at `base`. -/
structure Scanned (psHandle : AlinkOrderRef) (sImport : AlinkRecvImport) (base : Nat)
    (s : List UInt8)
    (psRecv : AlinkRecv) (sent : List Dispatch) : Prop where
  registered : psRecv.sRecvCbk = some psHandle
  msgs : sent.map Dispatch.msg = (alinkFormat.scan s).1
  placed : ∀ d ∈ sent, d.From psHandle sImport base s
  awaits : Awaits psRecv (base + s.length) (alinkFormat.scan s).2

/-- A receiver looking for a magic byte, about to be given the stream `s`. The
    bound leaves room for a package size on top of the stream length. -/
structure Ready (mem : Ptr UInt8) (psHandle : AlinkOrderRef) (psRecv : AlinkRecv)
    (sImport : AlinkRecvImport)
    (s : List UInt8) : Prop where
  magic : psRecv.puState = .checkMagic
  registered : psRecv.sRecvCbk = some psHandle
  length : sImport.uLength = s.length
  stored : (mem.advance sImport.pbyData).read s.length = s
  small : s.length ≤ 2 ^ 31

section Scan

variable {mem : Ptr UInt8} {psHandle : AlinkOrderRef} {sImport : AlinkRecvImport}
  {psRecv psRecv' : AlinkRecv}
  {base : Nat} {s : List UInt8} {sent : List Dispatch}

theorem AlinkRecvImport.advance_length {k : Nat} (le : k ≤ sImport.uLength)
    (small : sImport.uLength < 2 ^ 32) :
    (sImport.advance k).uLength = sImport.uLength - k := wrapSub_of_le le small

theorem AlinkRecvImport.advance_all (small : sImport.uLength < 2 ^ 32) :
    (sImport.advance sImport.uLength).uLength = 0 := by
  rw [AlinkRecvImport.advance_length (Nat.le_refl _) small, Nat.sub_self]

theorem Scanned.behind {k : Nat} (judged : List (List UInt8)) (before : List Dispatch)
    (le : k ≤ s.length)
    (split : alinkFormat.scan s =
      (judged ++ (alinkFormat.scan (s.drop k)).1, (alinkFormat.scan (s.drop k)).2))
    (msgs : before.map Dispatch.msg = judged)
    (placed : ∀ d ∈ before, d.From psHandle sImport base s)
    (rest : Scanned psHandle (sImport.advance k) (base + k) (s.drop k) psRecv sent) :
    Scanned psHandle sImport base s psRecv (before ++ sent) where
  registered := rest.registered
  msgs := by rw [List.map_append, msgs, rest.msgs, split]
  placed := by
    intro d member
    rcases List.mem_append.mp member with early | late
    · exact placed d early
    · obtain ⟨order, port, handle, peSend, front, back, cut, address⟩ := rest.placed d late
      refine ⟨order, port, handle, peSend, s.take k ++ front, back, ?_, ?_⟩
      · rw [List.append_assoc, List.append_assoc, ← List.append_assoc front, ← cut,
          List.take_append_drop]
      · rw [address, List.length_append, List.length_take_of_le le, Nat.add_assoc]
  awaits := by
    have stop : base + s.length = base + k + (s.drop k).length := by
      rw [List.length_drop]
      omega
    rw [split, stop]
    exact rest.awaits

theorem Scanned.waiting (judged : alinkFormat.verdict s = .wait)
    (registered : psRecv.sRecvCbk = some psHandle)
    (awaits : Awaits psRecv (base + s.length) s) : Scanned psHandle sImport base s psRecv [] where
  registered := registered
  msgs := by rw [alinkFormat.scan_wait judged]; rfl
  placed := by simp
  awaits := by rw [alinkFormat.scan_wait judged]; exact awaits

theorem Scanned.skipped {k : Nat} (judged : alinkFormat.verdict s = .skip k)
    (rest : Scanned psHandle (sImport.advance k) (base + k) (s.drop k) psRecv sent) :
    Scanned psHandle sImport base s psRecv sent :=
  rest.behind [] [] (alinkFormat.verdict_bounds (.inl judged)).2
    (by rw [alinkFormat.scan_skip judged]; rfl) rfl (by simp)

theorem Scanned.taken {k : Nat} (judged : alinkFormat.verdict s = .take k)
    (stored : (mem.advance base).read s.length = s)
    (rest : Scanned psHandle (sImport.advance k) (base + k) (s.drop k) psRecv sent) :
    Scanned psHandle sImport base s psRecv (dispatchOf mem psHandle sImport base k :: sent) := by
  have le := (alinkFormat.verdict_bounds (.inr judged)).2
  have bytes : (mem.advance base).read k = s.take k := by
    rw [← Ptr.take_read _ le, stored]
  refine rest.behind [s.take k] [dispatchOf mem psHandle sImport base k] le
    (by rw [alinkFormat.scan_take judged]; rfl) (by simp [dispatchOf, bytes]) ?_
  intro d member
  obtain rfl := List.mem_singleton.mp member
  refine ⟨rfl, rfl, rfl, rfl, [], s.drop k, ?_, rfl⟩
  simp [dispatchOf, bytes]

/-- Scanning from a receiver that looks for a magic byte, for streams shorter
    than `bound`: the induction hypothesis of `alinkRecvLoop_scan`. -/
def ScansBelow (mem : Ptr UInt8) (psHandle : AlinkOrderRef) (bound : Nat) : Prop :=
  ∀ (u : List UInt8) (fuel : Nat) (psRecv : AlinkRecv) (sImport : AlinkRecvImport),
    u.length < bound →
    u.length ≤ fuel → Ready mem psHandle psRecv sImport u →
      ∃ psRecv' sent, alinkRecvLoop mem fuel psRecv sImport = some (psRecv', sent) ∧
        Scanned psHandle sImport sImport.pbyData u psRecv' sent

/-- The part of a ready stream behind `k` bytes is ready for a receiver that
    looks for a magic byte again. -/
theorem Ready.behind {k : Nat} (le : k ≤ s.length) (small : s.length ≤ 2 ^ 31)
    (stored : (mem.advance base).read s.length = s) (length : sImport.uLength = s.length)
    (data : sImport.pbyData = base) (magic : psRecv.puState = .checkMagic)
    (registered : psRecv.sRecvCbk = some psHandle) :
    Ready mem psHandle psRecv (sImport.advance k) (s.drop k) where
  magic := magic
  registered := registered
  length := by
    rw [AlinkRecvImport.advance_length (by omega) (by omega), length, List.length_drop]
  stored := by
    have tail := congrArg (List.drop k) stored
    rw [Ptr.drop_read _ le, Ptr.advance_advance] at tail
    rw [List.length_drop]
    simpa only [AlinkRecvImport.advance, data] using tail
  small := by
    rw [List.length_drop]
    omega

theorem ScansBelow.behind {k fuel : Nat} (below : ScansBelow mem psHandle s.length)
    (positive : 0 < k)
    (le : k ≤ s.length) (small : s.length ≤ 2 ^ 31) (stored : (mem.advance base).read s.length = s)
    (length : sImport.uLength = s.length) (data : sImport.pbyData = base)
    (magic : psRecv.puState = .checkMagic)
    (registered : psRecv.sRecvCbk = some psHandle) (enough : s.length - k ≤ fuel) :
    ∃ psRecv' sent, alinkRecvLoop mem fuel psRecv (sImport.advance k) = some (psRecv', sent) ∧
      Scanned psHandle (sImport.advance k) (base + k) (s.drop k) psRecv' sent := by
  have rest : (s.drop k).length = s.length - k := List.length_drop
  have place : (sImport.advance k).pbyData = base + k := by
    simp only [AlinkRecvImport.advance, data]
  have scanned := below (s.drop k) fuel psRecv (sImport.advance k) (by omega) (by omega)
    (Ready.behind le small stored length data magic registered)
  rwa [place] at scanned

theorem AlinkRecvImport.advance_advance {j k : Nat} (le : j + k ≤ sImport.uLength)
    (small : sImport.uLength < 2 ^ 32) :
    (sImport.advance j).advance k = sImport.advance (j + k) := by
  have first : wrapSub 32 sImport.uLength j = sImport.uLength - j := wrapSub_of_le (by omega) small
  have second : wrapSub 32 (sImport.uLength - j) k = sImport.uLength - j - k :=
    wrapSub_of_le (by omega) (by omega)
  have both : wrapSub 32 sImport.uLength (j + k) = sImport.uLength - (j + k) :=
    wrapSub_of_le le small
  simp only [AlinkRecvImport.advance, first, second, both, Nat.add_assoc, Nat.sub_sub]

theorem alinkRecvLoop_short {fuel : Nat} {psRecv' : AlinkRecv}
    (call : psRecv.puStateCall mem sImport = (sImport.uLength, psRecv', []))
    (nothing : sImport.uLength = 0 → psRecv' = psRecv) (small : sImport.uLength < 2 ^ 32)
    (enough : sImport.uLength ≤ fuel) :
    alinkRecvLoop mem fuel psRecv sImport = some (psRecv', []) := by
  by_cases empty : sImport.uLength = 0
  · rw [alinkRecvLoop_done fuel empty, nothing empty]
  · obtain ⟨fuel, rfl⟩ := Nat.exists_eq_succ_of_ne_zero (by omega : fuel ≠ 0)
    rw [alinkRecvLoop_call empty call, alinkRecvLoop_done fuel (AlinkRecvImport.advance_all small)]
    rfl

theorem read_stored {k : Nat} (stored : (mem.advance base).read s.length = s) (le : k ≤ s.length) :
    (mem.advance base).read k = s.take k := by
  rw [← Ptr.take_read _ le, stored]

theorem read_front {k : Nat} (stored : (mem.advance base).read s.length = s) (le : k ≤ s.length) :
    (mem.advance base).read k = (Ptr.ofList (s.take k)).read k := by
  have counts : (s.take k).length = k := List.length_take_of_le le
  calc
    (mem.advance base).read k = s.take k := read_stored stored le
    _ = (Ptr.ofList (s.take k)).read (s.take k).length := (Ptr.read_ofList _).symm
    _ = (Ptr.ofList (s.take k)).read k := by rw [counts]

theorem bodyOk_stored {k : Nat} (stored : (mem.advance base).read s.length = s) (le : k ≤ s.length)
    (whole : 11 ≤ k) : alinkCheckCrc (mem.advance base) k = alinkFormat.bodyOk (s.take k) := by
  have counts : (s.take k).length = k := List.length_take_of_le le
  rw [alinkCheckCrc_congr (read_front stored le) whole]
  simp only [alinkFormat, counts]

theorem headOk_stored (stored : (mem.advance base).read s.length = s)
    (hasHead : alinkMsgHeadSize ≤ s.length) :
    alinkCheckHeaderChecksum (mem.advance base) = alinkFormat.headOk (alinkFormat.head s) :=
  alinkCheckHeaderChecksum_congr (read_front stored hasHead) (Nat.le_refl _)

theorem size_stored (stored : (mem.advance base).read s.length = s)
    (hasHead : alinkMsgHeadSize ≤ s.length) :
    alinkGetPackageSize (mem.advance base) = alinkFormat.size (alinkFormat.head s) :=
  alinkGetPackageSize_congr (read_front stored hasHead) (by decide)

/-- The body of a candidate whose header has been accepted. `sImport` starts with
    the candidate, nine bytes of which are consumed. -/
theorem body_scan {fuel : Nat} (ih : ScansBelow mem psHandle s.length)
    (state : psRecv.puState = .checkCrc) (registered : psRecv.sRecvCbk = some psHandle)
    (counted : psRecv.wCount = alinkMsgHeadSize) (located : psRecv.pbyBuffer = base)
    (sized : psRecv.wPkgSize = alinkFormat.size (alinkFormat.head s))
    (starts : alinkFormat.Starts s)
    (hasHead : alinkMsgHeadSize ≤ s.length)
    (headOk : alinkFormat.headOk (alinkFormat.head s) = true)
    (data : sImport.pbyData = base) (length : sImport.uLength = s.length)
    (stored : (mem.advance base).read s.length = s) (small : s.length ≤ 2 ^ 31)
    (enough : s.length - alinkMsgHeadSize ≤ fuel) :
    ∃ psRecv' sent, alinkRecvLoop mem fuel psRecv (sImport.advance alinkMsgHeadSize) =
      some (psRecv', sent) ∧
      Scanned psHandle sImport base s psRecv' sent := by
  have nine : alinkMsgHeadSize = 9 := rfl
  have left : (sImport.advance alinkMsgHeadSize).uLength = s.length - alinkMsgHeadSize := by
    rw [AlinkRecvImport.advance_length (by omega) (by omega), length]
  have bounds := alinkGetPackageSize_bounds (Ptr.ofList (alinkFormat.head s))
  have size : psRecv.wPkgSize = alinkGetPackageSize (Ptr.ofList (alinkFormat.head s)) := sized
  have judged := alinkFormat.verdict_starts starts
  have long : ¬ s.length < alinkFormat.headLen := Nat.not_lt.mpr hasHead
  simp only [long, headOk, if_false, if_true, ← sized] at judged
  by_cases part : s.length < psRecv.wPkgSize
  · simp only [part, if_true] at judged
    have call := (puStateCall_crc mem state).trans (checkCrc_short mem
      (by omega : psRecv.wCount + (sImport.advance alinkMsgHeadSize).uLength < psRecv.wPkgSize)
      (by omega))
    refine ⟨_, _, alinkRecvLoop_short call (fun none => by simp [none]) (by omega) (by omega), ?_⟩
    refine Scanned.waiting judged registered ?_
    have total : psRecv.wCount + (sImport.advance alinkMsgHeadSize).uLength = s.length := by omega
    exact awaits_crc state hasHead part sized total (congrArg (· + s.length) located)
  · simp only [part, if_false] at judged
    obtain ⟨fuel, rfl⟩ := Nat.exists_eq_succ_of_ne_zero (by omega : fuel ≠ 0)
    have call :=
      (puStateCall_crc mem state).trans (checkCrc_whole mem registered (by omega) (by omega)
      (by omega : psRecv.wCount + (sImport.advance alinkMsgHeadSize).uLength < 2 ^ 32))
    have next : (sImport.advance alinkMsgHeadSize).advance (psRecv.wPkgSize - psRecv.wCount) =
        sImport.advance psRecv.wPkgSize := by
      have total : alinkMsgHeadSize + (psRecv.wPkgSize - psRecv.wCount) = psRecv.wPkgSize := by
        omega
      rw [AlinkRecvImport.advance_advance (by omega) (by omega), total]
    have body : alinkCheckCrc (mem.advance psRecv.pbyBuffer) psRecv.wPkgSize =
        alinkFormat.bodyOk (s.take psRecv.wPkgSize) := by
      rw [located]
      exact bodyOk_stored stored (Nat.not_lt.mp part) (by omega)
    let searching : AlinkRecv := { psRecv with wCount := psRecv.wPkgSize, puState := .checkMagic }
    have rest : ∃ psRecv' sent,
        alinkRecvLoop mem fuel searching (sImport.advance psRecv.wPkgSize) = some (psRecv', sent) ∧
          Scanned psHandle (sImport.advance psRecv.wPkgSize) (base + psRecv.wPkgSize)
          (s.drop psRecv.wPkgSize)
            psRecv' sent :=
      ih.behind (by omega) (Nat.not_lt.mp part) small stored length data rfl registered (by omega)
    obtain ⟨psRecv', sent, ran, scanned⟩ := rest
    rw [alinkRecvLoop_call (by omega) call, next, ran, body]
    cases good : alinkFormat.bodyOk (s.take psRecv.wPkgSize) with
    | true =>
        simp only [good, if_true] at judged
        refine ⟨psRecv', _, rfl, ?_⟩
        simpa only [located, if_true] using! Scanned.taken judged stored scanned
    | false =>
        simp only [good, Bool.false_eq_true, if_false] at judged
        exact ⟨psRecv', _, rfl, Scanned.skipped judged scanned⟩

/-- A candidate whose first byte has just been found. -/
theorem candidate_scan {fuel : Nat} (ih : ScansBelow mem psHandle s.length)
    (state : psRecv.puState = .checkHead) (registered : psRecv.sRecvCbk = some psHandle)
    (counted : psRecv.wCount = 1) (starts : alinkFormat.Starts s)
    (data : sImport.pbyData = psRecv.pbyBuffer) (length : sImport.uLength = s.length)
    (stored : (mem.advance psRecv.pbyBuffer).read s.length = s) (small : s.length ≤ 2 ^ 31)
    (enough : s.length - 1 ≤ fuel) :
    ∃ psRecv' sent, alinkRecvLoop mem fuel psRecv (sImport.advance 1) = some (psRecv', sent) ∧
      Scanned psHandle sImport psRecv.pbyBuffer s psRecv' sent := by
  have nine : alinkMsgHeadSize = 9 := rfl
  have nonempty : 0 < s.length := by
    obtain ⟨b, rest, rfl, -⟩ := starts
    exact Nat.succ_pos _
  have left : (sImport.advance 1).uLength = s.length - 1 := by
    rw [AlinkRecvImport.advance_length (by omega) (by omega), length]
  have judged := alinkFormat.verdict_starts starts
  by_cases short : s.length < alinkMsgHeadSize
  · have waits : alinkFormat.verdict s = .wait := judged.trans (if_pos short)
    have call := (puStateCall_head mem state).trans (checkHead_short mem
      (by omega : psRecv.wCount + (sImport.advance 1).uLength < alinkMsgHeadSize))
    refine ⟨_, _, alinkRecvLoop_short call (fun none => by simp [none]) (by omega) (by omega), ?_⟩
    have total : psRecv.wCount + (sImport.advance 1).uLength = s.length := by omega
    exact Scanned.waiting waits registered (awaits_head state nonempty short total rfl)
  · have long : ¬ s.length < alinkFormat.headLen := short
    have hasHead := Nat.not_lt.mp short
    obtain ⟨fuel, rfl⟩ := Nat.exists_eq_succ_of_ne_zero (by omega : fuel ≠ 0)
    have call := (puStateCall_head mem state).trans (checkHead_whole mem (by omega)
      (by omega : alinkMsgHeadSize ≤ psRecv.wCount + (sImport.advance 1).uLength))
    have total : 1 + (alinkMsgHeadSize - psRecv.wCount) = alinkMsgHeadSize := by omega
    have next : (sImport.advance 1).advance (alinkMsgHeadSize - psRecv.wCount) =
        sImport.advance alinkMsgHeadSize := by
      rw [AlinkRecvImport.advance_advance (by omega) (by omega), total]
    rw [headOk_stored stored hasHead, size_stored stored hasHead] at call
    rw [alinkRecvLoop_call (by omega) call, next]
    simp only [long, if_false] at judged
    cases good : alinkFormat.headOk (alinkFormat.head s) with
    | true =>
        let accepted : AlinkRecv :=
          { psRecv with
            wCount := alinkMsgHeadSize
            wPkgSize := alinkFormat.size (alinkFormat.head s)
            puState := .checkCrc }
        have body : ∃ psRecv' sent,
            alinkRecvLoop mem fuel accepted (sImport.advance alinkMsgHeadSize) =
            some (psRecv', sent) ∧
              Scanned psHandle sImport psRecv.pbyBuffer s psRecv' sent :=
          body_scan ih rfl registered rfl rfl rfl starts hasHead good data length stored small
            (by omega)
        obtain ⟨psRecv', sent, ran, scanned⟩ := body
        simp only [if_true]
        rw [ran]
        exact ⟨psRecv', sent, rfl, scanned⟩
    | false =>
        simp only [good, Bool.false_eq_true, if_false] at judged
        let searching : AlinkRecv :=
            { psRecv with wCount := alinkMsgHeadSize, puState := .checkMagic }
        have rest : ∃ psRecv' sent,
            alinkRecvLoop mem fuel searching (sImport.advance alinkMsgHeadSize) =
            some (psRecv', sent) ∧
              Scanned psHandle (sImport.advance alinkMsgHeadSize)
              (psRecv.pbyBuffer + alinkMsgHeadSize)
                (s.drop alinkMsgHeadSize) psRecv' sent :=
          ih.behind (by omega) hasHead small stored length data rfl registered (by omega)
        obtain ⟨psRecv', sent, ran, scanned⟩ := rest
        simp only [Bool.false_eq_true, if_false]
        rw [ran]
        exact ⟨psRecv', sent, rfl, Scanned.skipped judged scanned⟩

theorem Scanned.noise {g u : List UInt8} (quiet : alinkFormat.Noise g)
    (rest : Scanned psHandle (sImport.advance g.length) (base + g.length) u psRecv sent) :
    Scanned psHandle sImport base (g ++ u) psRecv sent := by
  refine Scanned.behind (k := g.length) [] [] (by simp) ?_ rfl (by simp) ?_
  · rw [List.drop_left, alinkFormat.scan_noise_append quiet]
    rfl
  · rw [List.drop_left]
    exact rest

theorem findMagic_split {u : List UInt8} {uIndex : Nat}
    (found : u.findIdx? alinkCheckMagic = some uIndex) :
    ∃ g b rest, u = g ++ b :: rest ∧ g.length = uIndex ∧ alinkFormat.Noise g ∧
      alinkCheckMagic b = true := by
  obtain ⟨inside, here, before⟩ := List.findIdx?_eq_some_iff_getElem.mp found
  refine ⟨u.take uIndex, u[uIndex], u.drop (uIndex + 1), ?_, List.length_take_of_le (by omega), ?_,
    here⟩
  · rw [← List.drop_eq_getElem_cons inside, List.take_append_drop]
  · intro c member
    obtain ⟨i, small, rfl⟩ := List.mem_iff_getElem.mp member
    rw [List.getElem_take]
    rw [List.length_take] at small
    exact Bool.eq_false_iff.mpr (before i (by omega))

theorem ScansBelow.mono {small large : Nat} (below : ScansBelow mem psHandle large)
    (le : small ≤ large) :
    ScansBelow mem psHandle small :=
  fun u fuel psRecv sImport short => below u fuel psRecv sImport (Nat.lt_of_lt_of_le short le)

/-- From one magic byte to the next search for one. -/
theorem scan_step {fuel : Nat} (ih : ScansBelow mem psHandle s.length)
    (ready : Ready mem psHandle psRecv sImport s) (enough : s.length ≤ fuel) :
    ∃ psRecv' sent, alinkRecvLoop mem fuel psRecv sImport = some (psRecv', sent) ∧
      Scanned psHandle sImport sImport.pbyData s psRecv' sent := by
  obtain ⟨magic, registered, length, stored, small⟩ := ready
  have idle : Awaits psRecv (sImport.pbyData + s.length) [] := by simp only [Awaits, magic]
  by_cases empty : s.length = 0
  · obtain rfl := List.length_eq_zero_iff.mp empty
    refine ⟨psRecv, [], alinkRecvLoop_done fuel (length.trans empty), ?_⟩
    exact Scanned.waiting rfl registered idle
  · obtain ⟨fuel, rfl⟩ := Nat.exists_eq_succ_of_ne_zero (by omega : fuel ≠ 0)
    have window : (mem.advance sImport.pbyData).read sImport.uLength = s := by rw [length, stored]
    cases search : s.findIdx? alinkCheckMagic with
    | none =>
        have quiet : alinkFormat.Noise s := fun b member =>
          List.findIdx?_eq_none_iff.mp search b member
        have call := (puStateCall_magic mem magic).trans
          (checkMagic_none mem (by rw [window]; exact search : _ = none))
        have fits : sImport.uLength < 2 ^ 32 := by omega
        rw [alinkRecvLoop_call (by omega) call,
          alinkRecvLoop_done fuel (AlinkRecvImport.advance_all fits)]
        refine ⟨psRecv, [], rfl, registered, ?_, by simp, ?_⟩
        · rw [alinkFormat.scan_noise quiet]
          rfl
        · rw [alinkFormat.scan_noise quiet]
          exact idle
    | some uIndex =>
        have call := (puStateCall_magic mem magic).trans
          (checkMagic_found mem (by rw [window]; exact search : _ = some uIndex))
        obtain ⟨g, b, rest, rfl, rfl, quiet, start⟩ := findMagic_split search
        have total : (g ++ b :: rest).length = g.length + (b :: rest).length := List.length_append
        have tail : (b :: rest).length = rest.length + 1 := List.length_cons
        have front : (mem.advance (sImport.pbyData + g.length)).read (b :: rest).length =
            b :: rest := by
          have cut := (Ptr.read_of_append stored).2
          rwa [Ptr.advance_advance] at cut
        have next : sImport.advance (g.length + 1) = (sImport.advance g.length).advance 1 := by
          rw [AlinkRecvImport.advance_advance (by omega) (by omega)]
        have shorter : (sImport.advance g.length).uLength = (b :: rest).length := by
          rw [AlinkRecvImport.advance_length (by omega) (by omega)]
          omega
        let started : AlinkRecv :=
          { psRecv with pbyBuffer := sImport.pbyData + g.length, wCount := 1,
                        puState := .checkHead }
        have candidate : ∃ psRecv' sent,
            alinkRecvLoop mem fuel started ((sImport.advance g.length).advance 1) =
            some (psRecv', sent) ∧
              Scanned psHandle (sImport.advance g.length) (sImport.pbyData + g.length)
              (b :: rest) psRecv' sent :=
          candidate_scan (ih.mono (by omega)) rfl registered rfl ⟨b, rest, rfl,
            start⟩ rfl shorter front
            (by omega) (by omega)
        obtain ⟨psRecv', sent, ran, scanned⟩ := candidate
        rw [alinkRecvLoop_call (by omega) call, next, ran]
        exact ⟨psRecv', sent, rfl, Scanned.noise quiet scanned⟩

/-- One import, stored in memory that stays as it is, is the scan of its bytes. -/
theorem alinkRecvLoop_scan {fuel : Nat} (ready : Ready mem psHandle psRecv sImport s)
    (enough : s.length ≤ fuel) :
    ∃ psRecv' sent, alinkRecvLoop mem fuel psRecv sImport = some (psRecv', sent) ∧
      Scanned psHandle sImport sImport.pbyData s psRecv' sent := by
  have below : ∀ bound, ScansBelow mem psHandle bound := by
    intro bound
    induction bound with
    | zero =>
        intro u fuel psRecv sImport short
        exact absurd short (Nat.not_lt_zero _)
    | succ bound ih =>
        intro u fuel psRecv sImport short enough ready
        exact scan_step (ih.mono (Nat.lt_succ_iff.mp short)) ready enough
  exact scan_step (below s.length) ready enough

theorem alinkRecvTask_scan (ready : Ready mem psHandle psRecv sImport s) :
    ∃ psRecv' sent, alinkRecvTask mem psRecv sImport = some (psRecv', sent) ∧
      Scanned psHandle sImport sImport.pbyData s psRecv' sent :=
  alinkRecvLoop_scan ready (Nat.le_of_eq ready.length.symm)

theorem alinkRecvTask_frame (ready : Ready mem psHandle psRecv sImport s)
    (frame : alinkFormat.IsFrame s) :
    ∃ psRecv', alinkRecvTask mem psRecv sImport =
        some (psRecv', [dispatchOf mem psHandle sImport sImport.pbyData s.length]) ∧
      psRecv'.puState = .checkMagic := by
  obtain ⟨psRecv', sent, ran, scanned⟩ := alinkRecvTask_scan ready
  obtain ⟨-, msgs, placed, awaits⟩ := scanned
  rw [alinkFormat.scan_frame frame] at msgs awaits
  obtain ⟨d, rfl, msg⟩ := List.map_eq_singleton_iff.mp msgs
  obtain ⟨order, port, handle, peSend, front, back, split, address⟩ := placed d List.mem_cons_self
  have unpadded : front = [] ∧ back = [] := by
    have lengths := congrArg List.length split
    rw [msg, List.length_append, List.length_append] at lengths
    exact ⟨List.eq_nil_of_length_eq_zero (by omega), List.eq_nil_of_length_eq_zero (by omega)⟩
  have same : d = dispatchOf mem psHandle sImport sImport.pbyData s.length := by
    obtain ⟨_, ⟨_, _, _, _⟩, _⟩ := d
    simp only [unpadded.1, List.length_nil, Nat.add_zero] at order port handle peSend address msg
    simp only [dispatchOf, order, port, handle, peSend, address, msg, ready.stored]
  exact ⟨psRecv', by rw [ran, same], awaits.magic_iff.mpr rfl⟩

/-- A socket whose receiver looks for a magic byte and serves this table. -/
structure AlinkSocket.Idle (psSocket : AlinkSocket) (psHandle : AlinkOrderRef) : Prop where
  magic : psSocket.sRecv.puState = .checkMagic
  registered : psSocket.sRecv.sRecvCbk = some psHandle

theorem alinkSocketInit_idle (psSocket : AlinkSocket) (psOrder : AlinkOrderRef) :
    (alinkSocketInit psSocket psOrder).Idle psOrder := ⟨rfl, rfl⟩

/-- An idle socket hands over the frames of one import, and is idle again unless
    the import ends inside a candidate. -/
theorem alinkSocketTask_scan {psSocket : AlinkSocket} (idle : psSocket.Idle psHandle)
    (length : sImport.uLength = s.length) (stored : (mem.advance sImport.pbyData).read s.length = s)
    (small : s.length ≤ 2 ^ 31) :
    ∃ psSocket' sent, alinkSocketTask mem psSocket sImport = some (psSocket', sent) ∧
      sent.map Dispatch.msg = (alinkFormat.scan s).1 ∧
      (∀ d ∈ sent, d.From psHandle sImport sImport.pbyData s) ∧
      (alinkFormat.Settled s → psSocket'.Idle psHandle) := by
  obtain ⟨psRecv', sent, ran, scanned⟩ :=
    alinkRecvTask_scan ⟨idle.magic, idle.registered, length, stored, small⟩
  refine ⟨{ psSocket with sRecv := psRecv', sImport }, sent, ?_, scanned.msgs, scanned.placed, ?_⟩
  · rw [alinkSocketTask, ran]
    rfl
  · intro settled
    exact ⟨scanned.awaits.magic_iff.mpr settled, scanned.registered⟩

/-! ## A whole buffer at once -/

/-- `g0 f1 g1 f2 ... fk gk`: every block is a gap followed by a frame. -/
def blockStream (blocks : List (List UInt8 × List UInt8)) (last : List UInt8) : List UInt8 :=
  (blocks.map fun block => block.1 ++ block.2).flatten ++ last

theorem noise_of_no_magic {g : List UInt8} (quiet : 0xFD ∉ g) : alinkFormat.Noise g := by
  intro b member
  have other : alinkMsgMagicValue ≠ b := by
    rintro rfl
    exact quiet member
  simpa [alinkFormat, alinkCheckMagic] using other

/-- One import of frames with gaps between them delivers exactly the frames. -/
theorem alinkRecvTask_blocks (blocks : List (List UInt8 × List UInt8)) (last : List UInt8)
    (accepted : ∀ block ∈ blocks, Accepted block.2) (quiet : ∀ block ∈ blocks, 0xFD ∉ block.1)
    (lastQuiet : 0xFD ∉ last)
    (ready : Ready mem psHandle psRecv sImport (blockStream blocks last)) :
    ∃ psRecv' sent, alinkRecvTask mem psRecv sImport = some (psRecv', sent) ∧
      sent.map Dispatch.msg = blocks.map Prod.snd ∧
      (∀ d ∈ sent, d.From psHandle sImport sImport.pbyData (blockStream blocks last)) ∧
      psRecv'.puState = .checkMagic := by
  obtain ⟨psRecv', sent, ran, scanned⟩ := alinkRecvTask_scan ready
  have frames : alinkFormat.scan (blockStream blocks last) = (blocks.map Prod.snd, []) :=
    alinkFormat.scan_frames (fun block member => noise_of_no_magic (quiet block member))
      (fun block member => (accepted block member).isFrame) (noise_of_no_magic lastQuiet)
  have awaits := scanned.awaits
  rw [frames] at awaits
  exact ⟨psRecv', sent, ran, by rw [scanned.msgs, frames], scanned.placed, awaits.magic_iff.mpr rfl⟩

end Scan

/-- Two frames, the second with the magic byte in its payload, and two gaps. -/
theorem alinkRecvTask_blocks_two :
    let stream := [1] ++ emptyFrame ++ magicFrame ++ [2]
    let psRecv : AlinkRecv := ⟨0, 0, some .sOrder, 0, .checkMagic⟩
    ∃ psRecv' sent, alinkRecvTask (Ptr.ofList stream) psRecv ⟨2, 0, stream.length, 7, true⟩ =
    some (psRecv', sent) ∧
      sent.map Dispatch.msg = [emptyFrame, magicFrame] ∧
      (∀ d ∈ sent, d.From .sOrder ⟨2, 0, stream.length, 7, true⟩ 0 stream) ∧
      psRecv'.puState = .checkMagic :=
  alinkRecvTask_blocks [([1], emptyFrame), ([], magicFrame)] [2]
    (by simp [emptyFrame_accepted, magicFrame_accepted])
    (by decide) (by decide) ⟨rfl, rfl, rfl, rfl, by decide⟩

end PtzAgx.Alink
