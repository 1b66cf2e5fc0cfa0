import PtzAgx.Algs.KalmanFilter
import PtzAgx.Algs.LinearAssignment

/-! # One track

`STrack.cpp`. A track that has no filter state yet has zeros there, which nothing
reads. The numbers are exact, and the counters of ids and frames do not wrap.
-/

namespace PtzAgx.Algs

variable {K : Type} [Field K]

inductive TrackState where
  | new
  | tracked
  | lost
  | removed
deriving DecidableEq, Repr

/-- `tlwh` -/
structure Tlwh (K : Type) where
  left : K
  top : K
  width : K
  height : K

structure STrack (K : Type) where
  isActivated : Bool
  trackId : Nat
  state : TrackState
  /-- `_tlwh` -/
  givenTlwh : Tlwh K
  tlwh : Tlwh K
  tlbr : Tlbr K
  frameId : Nat
  trackletLen : Nat
  startFrame : Nat
  kalData : KalData K
  score : K

namespace STrack

/-! ## Boxes -/

def staticTlwh (t : STrack K) : STrack K :=
  if t.state = .new then { t with tlwh := t.givenTlwh }
  else
    let mean i := t.kalData.mean (.inl i)
    let width := mean .a * mean .h
    { t with tlwh := ⟨mean .x - width / 2.0, mean .y - mean .h / 2.0, width, mean .h⟩ }

def staticTlbr (t : STrack K) : STrack K :=
  { t with
      tlbr := ⟨t.tlwh.left, t.tlwh.top, t.tlwh.width + t.tlwh.left, t.tlwh.height + t.tlwh.top⟩ }

/-- Both, as they are always called. -/
def static (t : STrack K) : STrack K := t.staticTlwh.staticTlbr

def tlwhToXyah (tlwh : Tlwh K) : DetectBox K :=
  .of (tlwh.left + tlwh.width / 2.0) (tlwh.top + tlwh.height / 2.0)
    (tlwh.width / tlwh.height) tlwh.height

def tlbrToTlwh (tlbr : Tlbr K) : Tlwh K :=
  ⟨tlbr.left, tlbr.top, tlbr.right - tlbr.left, tlbr.bottom - tlbr.top⟩

/-! ## What happens to a track -/

/-- `STrack` -/
def create (tlwh : Tlwh K) (score : K) : STrack K :=
  static
    { isActivated := false, trackId := 0, state := .new, givenTlwh := tlwh,
      tlwh := ⟨0, 0, 0, 0⟩, tlbr := ⟨0, 0, 0, 0⟩,
      frameId := 0, trackletLen := 0, startFrame := 0, kalData := ⟨0, 0⟩, score }

/-- `nextId` is what `next_id` returns. -/
def activate (t : STrack K) (nextId frameId : Nat) : STrack K :=
  let t :=
      { t with trackId := nextId, kalData := KalmanFilter.initiate (tlwhToXyah t.givenTlwh) }.static
  { t with
    trackletLen := 0
    state := .tracked
    isActivated := if frameId = 1 then true else t.isActivated
    frameId
    startFrame := frameId }

variable (solve : KalmanFilter.Solver K)

/-- With `new_id` unset, as it always is. -/
def reActivate (t newTrack : STrack K) (frameId : Nat) : STrack K :=
  let t :=
      { t with kalData := KalmanFilter.update solve t.kalData (tlwhToXyah newTrack.tlwh) }.static
  { t with trackletLen := 0, state := .tracked, isActivated := true, frameId,
           score := newTrack.score }

def update (t newTrack : STrack K) (frameId : Nat) : STrack K :=
  let t := { t with frameId, trackletLen := t.trackletLen + 1 }
  let t :=
      { t with kalData := KalmanFilter.update solve t.kalData (tlwhToXyah newTrack.tlwh) }.static
  { t with state := .tracked, isActivated := true, score := newTrack.score }

def markLost (t : STrack K) : STrack K := { t with state := .lost }

def markRemoved (t : STrack K) : STrack K := { t with state := .removed }

def endFrame (t : STrack K) : Nat := t.frameId

/-- The loop of `multi_predict` for one track. -/
def multiPredict (t : STrack K) : STrack K :=
  let mean := if t.state = .tracked then t.kalData.mean else Function.update t.kalData.mean
    (.inr .h) 0
  static { t with kalData := KalmanFilter.predict { t.kalData with mean } }

end STrack

end PtzAgx.Algs
