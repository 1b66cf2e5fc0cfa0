import PtzAgx.Alink.RecvStream

/-! # Resynchronisation

A `0xFD` in the gap before a frame is a false start. The receiver then collects
nine bytes, refuses them as a header and looks for the next magic byte behind
them. It gives none of the nine back, so a false start close enough to the frame
takes the frame's first bytes with it.
-/

namespace PtzAgx.Alink

open Bytes Words Framing

/-- No `0xFD` of the gap `g` is followed by a header with a correct checksum. -/
def NoFalseHeader (g f : List UInt8) : Prop :=
  ∀ i < g.length, (g ++ f)[i]? = some 0xFD →
    alinkCheckHeaderChecksum (Ptr.ofList ((g ++ f).drop i)) = false

instance (g f : List UInt8) : Decidable (NoFalseHeader g f) := by
  unfold NoFalseHeader
  infer_instance

theorem starts_drop {s : List UInt8} {i : Nat} (starts : alinkFormat.Starts (s.drop i)) :
    s[i]? = some 0xFD := by
  obtain ⟨b, rest, cut, start⟩ := starts
  have magic : 0xFD = b := by simpa [alinkFormat, alinkCheckMagic, alinkMsgMagicValue] using start
  rw [← List.head?_drop, cut, magic]
  rfl

theorem NoFalseHeader.falseStarts {g f : List UInt8} (accepted : Accepted f)
    (quiet : NoFalseHeader g f) :
    alinkFormat.FalseStarts g f := by
  intro i small starts
  have long := accepted.long
  have hasHead : alinkMsgHeadSize ≤ ((g ++ f).drop i).length := by
    simp only [alinkMsgHeadSize, List.length_drop, List.length_append]
    omega
  rw [headOk_eq hasHead]
  exact quiet i small (starts_drop starts)

/-- Behind a gap without a false header a frame reaches the callback exactly when
    the gap can be cut into bytes other than `0xFD` and nine byte pieces that
    start with one. -/
theorem resync_iff {mem : Ptr UInt8} {psHandle : AlinkOrderRef} {psRecv : AlinkRecv}
    {sImport : AlinkRecvImport}
    (g f : List UInt8) (accepted : Accepted f) (small : (g ++ f).length ≤ 2 ^ 20)
    (quiet : NoFalseHeader g f)
    (magic : psRecv.puState = .checkMagic) (registered : psRecv.sRecvCbk = some psHandle)
    (length : sImport.uLength = (g ++ f).length)
    (stored : (mem.advance sImport.pbyData).read (g ++ f).length = g ++ f) :
    ∃ psRecv' sent, alinkRecvTask mem psRecv sImport = some (psRecv', sent) ∧
      (f ∈ sent.map Dispatch.msg ↔ alinkFormat.Passed g) := by
  have ready : Ready mem psHandle psRecv sImport (g ++ f) :=
    ⟨magic, registered, length, stored, Nat.le_trans small (by decide)⟩
  obtain ⟨psRecv', sent, ran, scanned⟩ := alinkRecvTask_scan ready
  refine ⟨psRecv', sent, ran, ?_⟩
  rw [scanned.msgs]
  exact alinkFormat.mem_scan_iff_passed accepted.isFrame (quiet.falseStarts accepted)

/-- A false start nine bytes before the frame, and a byte of noise. -/
theorem resync_iff_far :
    let g : List UInt8 := [7, 0xFD, 1, 2, 3, 4, 5, 6, 7, 8]
    ∃ psRecv' sent, alinkRecvTask (Ptr.ofList (g ++ emptyFrame)) ⟨0, 0, some .sOrder, 0,
      .checkMagic⟩
        ⟨2, 0, (g ++ emptyFrame).length, 7, true⟩ = some (psRecv', sent) ∧
      (emptyFrame ∈ sent.map Dispatch.msg ↔ alinkFormat.Passed g) :=
  resync_iff _ _ emptyFrame_accepted (by decide) (by decide) rfl rfl rfl rfl

/-- One stray `0xFD` directly before a frame, and the frame is lost. -/
theorem resync_loses_frame :
    Accepted emptyFrame ∧ NoFalseHeader [0xFD] emptyFrame ∧
      ∃ psRecv', alinkRecvTask (Ptr.ofList ([0xFD] ++ emptyFrame)) ⟨0, 0, some .sOrder, 0,
        .checkMagic⟩
        ⟨2, 0, ([0xFD] ++ emptyFrame).length, 7, true⟩ = some (psRecv', []) :=
  ⟨emptyFrame_accepted, by decide, _, rfl⟩

end PtzAgx.Alink
