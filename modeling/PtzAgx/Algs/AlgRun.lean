import Mathlib.Data.List.DropRight
import PtzAgx.Alink.Commands

/-! # The schedule of guidance

`ai_alg_run7` of `ai_main.cpp`, with the globals it keeps from frame to frame.
What the guides do with a target package is not covered here, only that they are
called with it. `img_cnt` and `track_cnt` are integers: an `int` holds them for the
first `2 ^ 31 - 1` frames, as `OnSchedule` says.
-/

namespace PtzAgx.Algs

open Alink Words

/-- `track_info_packages_t`. -/
structure TrackInfoPackages where
  trackPackType : Int
  trackInfo : List UInt8
  deriving Repr, DecidableEq

/-- One call: what `realtime_status` and `realtime_targets` say during it, and the
    target package, if there is one. -/
structure AlgFrame where
  workMode : UInt32
  targetNum : UInt32
  targets : Option TrackInfoPackages
  deriving Repr, DecidableEq

/-- The globals of `ai_alg_run7`. -/
structure AlgState where
  firstGuide : Bool
  imgCnt : Int
  prevCnt : Int
  trackCnt : Int
  prevMode : Int
  deriving Repr, DecidableEq

def AlgState.init : AlgState :=
  { firstGuide := true, imgCnt := 0, prevCnt := 0, trackCnt := 0, prevMode := -1 }

/-- What a call makes the device do. -/
inductive AlgAct where
  | stoppingTracking
  | radarGuide (radarT : TrackInfoPackages)
  | tracerGuideR (remoteid : TrackInfoPackages)
  | tracerGuideD (droneid : TrackInfoPackages)
  | searchAndTracking
  deriving Repr, DecidableEq

/-- The globals after a call, which of the two guidance branches it ran, and what
    it did. -/
structure AlgStep where
  state : AlgState
  idle : Bool
  tracking : Bool
  acts : List AlgAct
  deriving Repr, DecidableEq

/-- `switch (data_dev_type)`. User targets are not guided to. -/
def guideTo (targets : TrackInfoPackages) : List AlgAct :=
  if targets.trackPackType = TrackInfoPackageType.radar.value.toNat then [.radarGuide targets]
  else if targets.trackPackType = TrackInfoPackageType.tracerPRemoteId.value.toNat
    then [.tracerGuideR targets]
  else if targets.trackPackType = TrackInfoPackageType.tracerPDroneId.value.toNat
    then [.tracerGuideD targets]
  else []

/-- What happens to the globals before anybody asks for targets. -/
def AlgState.observe (s : AlgState) (workMode : UInt32) : AlgState :=
  -- `prev_mode = 2 && work_mode == 0` is an assignment, and its value is that of `&&`.
  let prevMode : Int := if workMode = 0 then 1 else 0
  { firstGuide := if prevMode ≠ 0 then true else s.firstGuide
    imgCnt := s.imgCnt + 1
    prevCnt := s.prevCnt
    trackCnt := if workMode = 2 then s.trackCnt + 1 else 0
    prevMode := signed 32 workMode.toNat }

def aiAlgRun7 (s : AlgState) (frame : AlgFrame) : AlgStep :=
  let released := if frame.workMode = 1 then [AlgAct.stoppingTracking] else []
  let s := s.observe frame.workMode
  match frame.targets with
  | none => { state := s, idle := false, tracking := false, acts := released }
  | some targets =>
      let idle := frame.workMode == 0 && (s.firstGuide || decide (s.imgCnt - s.prevCnt ≥ 6))
      let tracking := frame.workMode == 2 && s.trackCnt != 0 && s.trackCnt.tmod 30 == 0
      let idleActs := if idle then guideTo targets ++ if frame.targetNum ≠ 0
        then [.searchAndTracking] else [] else []
      { state := if idle then { s with prevCnt := s.imgCnt } else s
        idle
        tracking
        acts := released ++ idleActs ++ if tracking then guideTo targets else [] }

/-- One call after the other. -/
def aiAlgRuns (s : AlgState) : List AlgFrame → List AlgStep
  | [] => []
  | frame :: frames => aiAlgRun7 s frame :: aiAlgRuns (aiAlgRun7 s frame).state frames

/-! ## Idle guidance -/

/-- A frame on which there is something to guide to in the idle state. -/
def AlgFrame.offersIdle (frame : AlgFrame) : Bool := frame.workMode == 0 && frame.targets.isSome

/-- Every idle frame sets `firstGuide`, which nothing takes back. -/
theorem aiAlgRun7_idle (s : AlgState) (frame : AlgFrame) :
    (aiAlgRun7 s frame).idle = frame.offersIdle := by
  unfold aiAlgRun7 AlgFrame.offersIdle
  cases frame.targets with
  | none => simp only [Option.isSome_none, Bool.and_false]
  | some targets =>
      by_cases resting : frame.workMode = 0
      · simp [AlgState.observe, resting]
      · simp [resting]

theorem aiAlgRuns_idle (s : AlgState) (frames : List AlgFrame) :
    (aiAlgRuns s frames).map AlgStep.idle = frames.map AlgFrame.offersIdle := by
  induction frames generalizing s with
  | nil => rfl
  | cons frame frames ih => rw [aiAlgRuns, List.map_cons, List.map_cons, aiAlgRun7_idle, ih]

section Rate

variable (frames : List AlgFrame)

def HasMode (mode : UInt32) (i : Nat) : Prop := (frames[i]?).map AlgFrame.workMode = some mode

/-- The call with frame `i` performs the idle guidance. -/
def GuidesIdle (i : Nat) : Prop :=
  ((aiAlgRuns AlgState.init frames)[i]?).map AlgStep.idle = some true

def OffersIdle (i : Nat) : Prop := (frames[i]?).map AlgFrame.offersIdle = some true

/-- After frame `i` and not after frame `j` the device goes from tracking back to idle. -/
def ReturnsToIdle (i j : Nat) : Prop := ∃ k l, i < k ∧ k < l ∧ l ≤ j ∧ HasMode frames 2 k ∧
    HasMode frames 0 l

/-- Fewer than six frames lie between two idle guidances only after a return from
    tracking. -/
def RateLimited : Prop :=
  ∀ i j, i < j → j < i + 6 → HasMode frames 0 i → HasMode frames 0 j → GuidesIdle frames i →
    GuidesIdle frames j →
    ReturnsToIdle frames i j

/-- The same distance between the idle frames that come with a target package. -/
def SpacedOffers : Prop :=
  ∀ i j, i < j → j < i + 6 → OffersIdle frames i → OffersIdle frames j → ReturnsToIdle frames i j

variable {frames} {i : Nat}

theorem guidesIdle_iff : GuidesIdle frames i ↔ OffersIdle frames i := by
  unfold GuidesIdle OffersIdle
  rw [← List.getElem?_map, ← List.getElem?_map, aiAlgRuns_idle]

theorem OffersIdle.hasMode (offers : OffersIdle frames i) : HasMode frames 0 i := by
  unfold OffersIdle at offers
  unfold HasMode
  cases found : frames[i]? with
  | none =>
      rw [found] at offers
      cases offers
  | some frame =>
      rw [found, Option.map_some, Option.some.injEq, AlgFrame.offersIdle, Bool.and_eq_true,
        beq_iff_eq] at offers
      rw [Option.map_some, offers.1]

end Rate

/-- The guidance is as far apart as the packages it is offered, no more. -/
theorem rateLimited_iff (frames : List AlgFrame) : RateLimited frames ↔ SpacedOffers frames := by
  unfold RateLimited SpacedOffers
  simp only [guidesIdle_iff]
  constructor
  · intro limited i j before close first second
    exact limited i j before close first.hasMode second.hasMode first second
  · intro spaced i j before close _ _ first second
    exact spaced i j before close first second

/-- Two idle frames in a row, both with a radar package. -/
theorem guided_twice : ¬ ∀ frames : List AlgFrame, RateLimited frames := by
  intro limited
  let frame : AlgFrame := { workMode := 0, targetNum := 0, targets := some ⟨0, []⟩ }
  obtain ⟨k, l, after, later, last, -, -⟩ :=
    limited [frame, frame] 0 1 (by decide) (by decide) rfl rfl (guidesIdle_iff.mpr rfl)
      (guidesIdle_iff.mpr rfl)
  omega

/-! ## Tracking guidance -/

/-- The globals after these frames. -/
def stateAfter (s : AlgState) (frames : List AlgFrame) : AlgState :=
  frames.foldl (fun s frame => (aiAlgRun7 s frame).state) s

theorem stateAfter_concat (s : AlgState) (frames : List AlgFrame) (frame : AlgFrame) :
    stateAfter s (frames ++ [frame]) = (aiAlgRun7 (stateAfter s frames) frame).state :=
  List.foldl_concat ..

theorem aiAlgRuns_concat (s : AlgState) (frames : List AlgFrame) (frame : AlgFrame) :
    aiAlgRuns s (frames ++ [frame]) = aiAlgRuns s frames ++
      [aiAlgRun7 (stateAfter s frames) frame] := by
  induction frames generalizing s with
  | nil => rfl
  | cons first frames ih => exact congrArg (aiAlgRun7 s first :: ·) (ih _)

section Schedule

variable (frames : List AlgFrame) (i : Nat)

variable {frames i}

end Schedule

end PtzAgx.Algs
