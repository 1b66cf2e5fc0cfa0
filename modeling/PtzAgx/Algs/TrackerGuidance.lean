import PtzAgx.Algs.Items
import PtzAgx.Algs.TrackerRun

/-! # Guidance by the tracker

`ai_alg_run1` of `ai_main.cpp`, with the globals it keeps from frame to frame. It asks
the detections at the places of the tracks for their labels. What stops is a read
outside the package or behind the detections. The detector's detections and the
conversion to `int` are parameters, and `img_count` does not overflow.
-/

namespace PtzAgx.Algs

/-- The globals of `ai_alg_run1`. -/
structure RunState (K : Type) where
  bInit : Bool
  imgCount : Int
  noObjCount : Int
  isGuide : Bool
  tracker : ByteTracker K

/-- One call: the image's size, the target package, if there is one, and what is
    detected in the image. -/
structure RunFrame (K : Type) where
  imgW : Int
  imgH : Int
  targets : Option TrackInfoPackages
  objs : List (Detected K)

inductive RunAct where
  | alg (act : AlgAct)
  | ptzTracking (left right top bottom : Int)
  deriving Repr, DecidableEq

/-- Steering towards a track, not towards what a package reports. -/
def RunAct.tracks : RunAct → Bool
  | .alg .stoppingTracking | .ptzTracking .. => true
  | .alg _ => false

/-- The globals after a call, and what it did. -/
structure RunStep (K : Type) where
  state : RunState K
  acts : List RunAct

namespace RunState

/-- `tracker` is a global too. -/
def init {K : Type} : RunState K :=
  { bInit := false, imgCount := 0, noObjCount := 0, isGuide := false, tracker := .start 30 0 }

variable {K : Type} [Field K] [LinearOrder K] (solve : KalmanFilter.Solver K) (toInt : K → Int)

def track (frame : RunFrame K) (tlwh : Tlwh K) : List RunAct :=
  let scaleW := 640.0 / (frame.imgW : K)
  let scaleH := 480.0 / (frame.imgH : K)
  [.alg .stoppingTracking, .ptzTracking (toInt (tlwh.left * scaleW))
    (toInt ((tlwh.left + tlwh.width) * scaleW))
    (toInt (tlwh.top * scaleH)) (toInt ((tlwh.top + tlwh.height) * scaleH))]

/-- The loop over `output_stracks`; `s` is `isGuide` and what has been done. -/
def overTrack (frame : RunFrame K) (imgCount : Int) (s : Bool × List RunAct) (p : STrack K × Nat) :
    Option (Bool × List RunAct) :=
  if p.1.tlwh.width * p.1.tlwh.height > 4.0 then do
    let obj ← frame.objs[p.2]?
    let frameGuide := imgCount.tmod 16 == 0 && obj.label == 0
    let acts := if frameGuide then s.2 ++ track toInt frame p.1.tlwh else s.2
    if s.1 && !frameGuide then return (false, acts ++ track toInt frame p.1.tlwh)
    return (s.1, acts)
  else some s

/-- The guide that a package is for, if there is one. -/
def reports (targets : Option TrackInfoPackages) : List RunAct :=
  (targets.elim [] guideTo).map .alg

/-- The guide is called, or not. -/
def guideIf (due : Bool) (targets : Option TrackInfoPackages) : Option (List RunAct) :=
  if due then
    if (targets.elim [] guideTo).all AlgAct.readable then some (reports targets) else none
  else some []

def aiAlgRun1 (s : RunState K) (frame : RunFrame K) : Option (RunStep K) := do
  let begun ← guideIf (!s.bInit) frame.targets
  let (tracker, output) ← s.tracker.update solve frame.objs
  let noObjCount := if output.length = 0 then s.noObjCount + 1 else 0
  let reguided := decide (noObjCount > 16)
  let again ← guideIf reguided frame.targets
  let (isGuide, acts) ← output.zipIdx.foldlM (overTrack toInt frame s.imgCount)
    (reguided || s.isGuide, begun ++ again)
  return {
    state :=
      { bInit := true
        imgCount := s.imgCount + 1
        noObjCount := if reguided then 0 else noObjCount
        isGuide
        tracker }
    acts }

/-! ## The tracks that are put out -/

variable (frame : RunFrame K)

omit [LinearOrder K] in
theorem track_tracks (tlwh : Tlwh K) : ∀ act ∈ track toInt frame tlwh, act.tracks = true := by
  intro act member
  rcases List.mem_cons.mp member with rfl | last
  · rfl
  · rw [List.mem_singleton.mp last]
    rfl

theorem overTrack_inside (imgCount : Int) (p : STrack K × Nat) (place : p.2 < frame.objs.length)
    (s : Bool × List RunAct) :
    ∃ isGuide tracked, overTrack toInt frame imgCount s p = some (isGuide, s.2 ++ tracked) ∧
      ∀ act ∈ tracked, act.tracks = true := by
  have steers := track_tracks toInt frame p.1.tlwh
  unfold overTrack
  split
  · rw [List.getElem?_eq_getElem place]
    dsimp only [Option.bind_eq_bind, Option.bind_some]
    split
    · split
      · exact ⟨_, track toInt frame p.1.tlwh ++ track toInt frame p.1.tlwh, by simp; rfl, by
          simpa using steers⟩
      · exact ⟨_, _, rfl, steers⟩
    · split
      · exact ⟨_, track toInt frame p.1.tlwh, rfl, steers⟩
      · exact ⟨_, [], by simp; rfl, by simp⟩
  · exact ⟨s.1, [], by simp, by simp⟩

/-- Every track has a place among the detections, and nothing else is done. -/
theorem overTracks_inside (output : List (STrack K)) (imgCount : Int) (start : Nat)
    (inside : start + output.length ≤ frame.objs.length) (s : Bool × List RunAct) :
    ∃ isGuide tracked,
      (output.zipIdx start).foldlM (overTrack toInt frame imgCount) s = some (isGuide,
        s.2 ++ tracked) ∧
        (∀ act ∈ tracked, act.tracks = true) ∧ (output = [] → tracked = []) := by
  induction output generalizing start s with
  | nil => exact ⟨s.1, [], by simp, by simp, fun _ => rfl⟩
  | cons t output ih =>
      rw [List.length_cons] at inside
      have place : start < frame.objs.length := by omega
      obtain ⟨isGuide, tracked, did, steers⟩ :=
        overTrack_inside toInt frame imgCount (t, start) place s
      obtain ⟨isGuide', tracked', rest, steers', -⟩ :=
        ih (start + 1) (by omega) (isGuide, s.2 ++ tracked)
      refine ⟨isGuide', tracked ++ tracked', ?_, ?_,
        fun none => absurd none (List.cons_ne_nil t output)⟩
      · rw [List.zipIdx_cons, List.foldlM_cons, did]
        simpa using rest
      · simpa [or_imp, forall_and] using And.intro steers steers'

/-! ## Calls -/

/-- For how many calls nothing has been seen; the latest call is the first item. -/
def unseen (empty : List Bool) : Nat := (empty.takeWhile id).length

/-- The states after calls, with whether each call's output was empty. -/
inductive Calls (solve : KalmanFilter.Solver K) (toInt : K → Int) (bound : Nat) :
    RunState K → List Bool → Prop
  | init : Calls solve toInt bound .init []
  | call {s : RunState K} {empty : List Bool} {frame : RunFrame K} {tracker : ByteTracker K}
      {output : List (STrack K)}
      {step : RunStep K} :
      Calls solve toInt bound s empty → frame.objs.length ≤ bound →
      s.tracker.update solve frame.objs = some (tracker, output) →
      aiAlgRun1 solve toInt s frame = some step →
      Calls solve toInt bound step.state ((output.length == 0) :: empty)

variable {solve : KalmanFilter.Solver K} {toInt : K → Int} {frame : RunFrame K} {bound : Nat}
  {s : RunState K} {tracker : ByteTracker K} {output : List (STrack K)}

theorem guideIf_eq {due : Bool} {targets : Option TrackInfoPackages} {acts : List RunAct}
    (guided : guideIf due targets = some acts) : acts = if due then reports targets else [] := by
  unfold guideIf at guided
  split at guided
  · next called =>
    rw [if_pos called]
    exact (Option.some.inj (Option.ite_none_right_eq_some.mp guided).2).symm
  · next other => rw [if_neg other, Option.some.inj guided]

/-- What a call does that returns, once the tracker has. -/
theorem aiAlgRun1_eq {step : RunStep K}
    (ran : s.tracker.update solve frame.objs = some (tracker, output))
    (inside : output.length ≤ frame.objs.length)
    (did : aiAlgRun1 solve toInt s frame = some step) :
    ∃ tracked, step.state.tracker = tracker ∧ step.state.bInit = true ∧
      step.state.noObjCount =
        (if output = [] then if s.noObjCount + 1 > 16 then 0 else s.noObjCount + 1 else 0) ∧
      step.acts =
        (if s.bInit then [] else reports frame.targets) ++
          (if output = [] ∧ s.noObjCount + 1 > 16 then reports frame.targets else []) ++ tracked ∧
      (∀ act ∈ tracked, act.tracks = true) ∧ (output = [] → tracked = []) := by
  unfold aiAlgRun1 at did
  rw [ran] at did
  simp only [Option.bind_eq_bind, Option.bind_some, Option.bind_eq_some_iff] at did
  obtain ⟨begun, first, again, later, result, loop, same⟩ := did
  obtain ⟨isGuide, tracked, ended, steers, nothing⟩ :=
    overTracks_inside toInt frame output s.imgCount 0 (by omega) (_, begun ++ again)
  obtain rfl := Option.some.inj (ended.symm.trans loop)
  obtain rfl := Option.some.inj same
  refine ⟨tracked, rfl, rfl, ?_, ?_, steers, nothing⟩
  · by_cases none : output = [] <;> simp [none]
  · dsimp only
    rw [guideIf_eq first, guideIf_eq later]
    by_cases none : output = [] <;> cases s.bInit <;> simp [none]

theorem unseen_cons (empty : List Bool) (now : Bool) :
    unseen (now :: empty) = if now then unseen empty + 1 else 0 := by
  cases now <;> rfl

section Runs

variable [IsStrictOrderedRing K] {empty : List Bool}

/-- The counter counts in seventeens, and only before the first call nothing is set up. -/
theorem Calls.run (small : (ByteTracker.patience 30 + 3) * bound < 2 ^ 16)
    (calls : Calls solve toInt bound s empty) :
    ByteTracker.Run solve bound (.start 30 0) s.tracker ∧ s.noObjCount = (unseen empty % 17 : Nat) ∧
      s.bInit = !empty.isEmpty := by
  induction calls with
  | init => exact ⟨.refl, rfl, rfl⟩
  | @call _ _ _ _ output _ _ short ran did ih =>
      obtain ⟨run, count, -⟩ := ih
      obtain ⟨-, tracker, set, counted, -⟩ :=
        aiAlgRun1_eq ran (ByteTracker.output_length_le small run short ran) did
      refine ⟨tracker ▸ .frame run short ran, ?_, set⟩
      rw [counted, unseen_cons, count]
      by_cases nothing : output = []
      · simp only [nothing, List.length_nil, beq_self_eq_true, if_true]
        split <;> omega
      · simp [nothing]

example : unseen (List.replicate 16 true) + 1 = 17 ∧
    reports (some ⟨0, [0, 0, 0, 0, 0]⟩) = [.alg (.radarGuide ⟨0, [0, 0, 0, 0, 0]⟩)] := by decide

end Runs

end RunState

end PtzAgx.Algs
