import PtzAgx.Algs.LinearAssignment
import PtzAgx.Algs.STrack
import PtzAgx.Lib.Keyed

/-! # The tracker

`BYTETracker.cpp` and the lists of tracks of `utils.cpp`. A `std::map` by id is a list
that is sorted by id. Between two frames the tracks are two lists; while a frame is
worked on they stay at their places, and a pointer to a track is its place.
-/

namespace PtzAgx.Algs

/-- `Object` -/
structure Detected (K : Type) where
  x : K
  y : K
  width : K
  height : K
  label : Int
  prob : K

structure ByteTracker (K : Type) where
  frameId : Nat
  maxTimeLost : Int
  trackedStracks : List (STrack K)
  lostStracks : List (STrack K)
  removedStracks : List (STrack K)
  /-- `_count` of `next_id` -/
  count : Nat

namespace ByteTracker

variable {K : Type} [Field K] [LinearOrder K]

def trackThresh : K := 0.5

def highThresh : K := 0.6

def matchThresh : K := 0.8

/-- The limit for what has been detected with a low score. -/
def lowThresh : K := 0.5

/-- The limit for tracks that have been seen once. -/
def unconfirmedThresh : K := 0.7

/-- The distance from which two tracks are not the same. -/
def duplicateThresh : K := 0.15

/-! ## Lists of tracks -/

/-- `joint_stracks`, both of them: `key` is the id. -/
def jointStracks {α : Type} (key : α → Nat) (tlista tlistb : List α) : List α :=
  joinNew key tlista tlistb

def subStracks (tlista tlistb : List (STrack K)) : List (STrack K) :=
  eraseKeys STrack.trackId (keyedMap STrack.trackId tlista) tlistb

/-- Which of two tracks that overlap is the younger one. -/
def duplicateB (a b : STrack K) : Prop :=
  (a.frameId : Int) - a.startFrame > (b.frameId : Int) - b.startFrame

instance (a b : STrack K) : Decidable (duplicateB a b) := inferInstanceAs (Decidable (_ > _))

def removeDuplicateStracks (stracksa stracksb : List (STrack K)) :
    List (STrack K) × List (STrack K) :=
  let pdist := iouDistance (fun i => (stracksa.get i).tlbr) (fun j => (stracksb.get j).tlbr)
  let all := (List.finRange stracksa.length).flatMap fun i => (List.finRange stracksb.length).map
    fun j => (i, j)
  let pairs := all.filter fun p => pdist p.1 p.2 < duplicateThresh
  let younger (p : Fin stracksa.length × Fin stracksb.length) :=
    duplicateB (stracksa.get p.1) (stracksb.get p.2)
  let dupb := (pairs.filter fun p => younger p).map Prod.snd
  let dupa := (pairs.filter fun p => ¬younger p).map Prod.fst
  (((List.finRange stracksa.length).filter fun i => i ∉ dupa).map stracksa.get,
    ((List.finRange stracksb.length).filter fun j => j ∉ dupb).map stracksb.get)

/-! ## Tracks at their places -/

section Places

variable {ι : Type} [DecidableEq ι] (solve : KalmanFilter.Solver K) (frameId : Nat)

/-- The tracks, and the copies that have been made of some of them. -/
structure Frame (ι K : Type) where
  tracks : ι → STrack K
  activated : List (STrack K)
  refind : List (STrack K)
  lost : List (STrack K)
  removed : List (STrack K)

/-- The tracks and detections that `linear_assignment` has matched, and the others. -/
structure Association (ι K : Type) where
  matched : List (ι × STrack K)
  unmatchedTracks : List ι
  unmatchedDetections : List (STrack K)

/-- `iou_distance` and `linear_assignment` -/
def associate (tracks : ι → STrack K) (pool : List ι) (detections : List (STrack K)) (thresh : K) :
    Option (Association ι K) :=
  let dists := iouDistance (fun i => (tracks (pool.get i)).tlbr) (fun j => (detections.get j).tlbr)
  (linearAssignment dists thresh).map fun m =>
    { matched := m.pairs.map fun p => (pool.get p.1, detections.get p.2)
      unmatchedTracks := m.unmatchedA.map pool.get
      unmatchedDetections := m.unmatchedB.map detections.get }

/-- The loop over the matches of the first and of the second association. -/
def follow (f : Frame ι K) (p : ι × STrack K) : Frame ι K :=
  if (f.tracks p.1).state = .tracked then
    let track := (f.tracks p.1).update solve p.2 frameId
    { f with tracks := Function.update f.tracks p.1 track, activated := f.activated ++ [track] }
  else
    let track := (f.tracks p.1).reActivate solve p.2 frameId
    { f with tracks := Function.update f.tracks p.1 track, refind := f.refind ++ [track] }

def lose (f : Frame ι K) (p : ι) : Frame ι K :=
  if (f.tracks p).state ≠ .lost then
    let track := (f.tracks p).markLost
    { f with tracks := Function.update f.tracks p track, lost := f.lost ++ [track] }
  else f

/-- The matches of the unconfirmed tracks. -/
def confirm (f : Frame ι K) (p : ι × STrack K) : Frame ι K :=
  let track := (f.tracks p.1).update solve p.2 frameId
  { f with tracks := Function.update f.tracks p.1 track, activated := f.activated ++ [track] }

def remove (f : Frame ι K) (p : ι) : Frame ι K :=
  let track := (f.tracks p).markRemoved
  { f with tracks := Function.update f.tracks p track, removed := f.removed ++ [track] }

/-- Step 2 and step 3, with the unconfirmed tracks: the frame, and the detections that
    are left. -/
def associations (before : ι → STrack K) (pool unconfirmed : List ι)
    (detections detectionsLow : List (STrack K)) :
    Option (Frame ι K × List (STrack K)) := do
  let predicted :=
    pool.foldl (fun tracks p => Function.update tracks p (tracks p).multiPredict) before
  let first ← associate predicted pool detections matchThresh
  let f := first.matched.foldl (follow solve frameId) ⟨predicted, [], [], [], []⟩
  let rTracked := first.unmatchedTracks.filter fun p => (f.tracks p).state = .tracked
  let second ← associate f.tracks rTracked detectionsLow lowThresh
  let f := second.matched.foldl (follow solve frameId) f
  let f := second.unmatchedTracks.foldl lose f
  let third ← associate f.tracks unconfirmed first.unmatchedDetections unconfirmedThresh
  let f := third.matched.foldl (confirm solve frameId) f
  let f := third.unmatchedTracks.foldl remove f
  return (f, third.unmatchedDetections)

end Places

/-- Step 4: the counter, and the new tracks. -/
def begin (frameId : Nat) (s : Nat × List (STrack K)) (detection : STrack K) :
    Nat × List (STrack K) :=
  if detection.score < highThresh then s
  else (s.1 + 1, s.2 ++ [detection.activate (s.1 + 1) frameId])

/-! ## One frame -/

def detection (o : Detected K) : STrack K :=
  .create (STrack.tlbrToTlwh ⟨o.x, o.y, o.x + o.width, o.y + o.height⟩) o.prob

/-- The first loop of step 5. -/
def expired (frameId : Nat) (maxTimeLost : Int) (t : STrack K) : Prop :=
  (frameId : Int) - t.endFrame > maxTimeLost

instance (frameId : Nat) (maxTimeLost : Int) (t : STrack K) :
    Decidable (expired frameId maxTimeLost t) :=
  inferInstanceAs (Decidable (_ > _))

/-- Step 5: `tracked` and `lost` are the tracks at their places, and `f` is what has
    been copied from them. -/
def updateState (t : ByteTracker K) (tracked lost : List (STrack K))
    (activated refind lostStracks removed : List (STrack K))
    (count : Nat) : ByteTracker K × List (STrack K) :=
  let frameId := t.frameId + 1
  let late (s : STrack K) := expired frameId t.maxTimeLost s
  let marked := lost.map fun s => if late s then s.markRemoved else s
  let removed := removed ++ (lost.filter fun s => late s).map STrack.markRemoved
  let swap := tracked.filter fun s => s.state = .tracked
  let tracked := jointStracks STrack.trackId (jointStracks STrack.trackId swap activated) refind
  let lost := subStracks (subStracks marked tracked ++ lostStracks) t.removedStracks
  let (resa, resb) := removeDuplicateStracks tracked lost
  ({ t with frameId, trackedStracks := resa, lostStracks := resb,
            removedStracks := t.removedStracks ++ removed, count },
    resa.filter fun s => s.isActivated)

/-- Where the tracks are when a frame begins. -/
def strackAt (t : ByteTracker K) :
    Fin t.trackedStracks.length ⊕ Fin t.lostStracks.length → STrack K :=
  Sum.elim t.trackedStracks.get t.lostStracks.get

def places (t : ByteTracker K) : List (Fin t.trackedStracks.length ⊕ Fin t.lostStracks.length) :=
  (List.finRange t.trackedStracks.length).map Sum.inl

def unconfirmed (t : ByteTracker K) :
    List (Fin t.trackedStracks.length ⊕ Fin t.lostStracks.length) :=
  t.places.filter fun p => ¬(t.strackAt p).isActivated

def strackPool (t : ByteTracker K) :
    List (Fin t.trackedStracks.length ⊕ Fin t.lostStracks.length) :=
  jointStracks (fun p => (t.strackAt p).trackId)
    (t.places.filter fun p => (t.strackAt p).isActivated)
    ((List.finRange t.lostStracks.length).map Sum.inr)

/-- Step 1. -/
def detections (objects : List (Detected K)) : List (STrack K) × List (STrack K) :=
  let found := objects.map detection
  (found.filter fun d => d.score ≥ trackThresh, found.filter fun d => ¬d.score ≥ trackThresh)

def update (solve : KalmanFilter.Solver K) (t : ByteTracker K) (objects : List (Detected K)) :
    Option (ByteTracker K × List (STrack K)) := do
  let frameId := t.frameId + 1
  let (high, low) := detections objects
  let (f, left) ← associations solve frameId t.strackAt t.strackPool t.unconfirmed high low
  let (count, started) := left.foldl (begin frameId) (t.count, [])
  return updateState t (List.ofFn fun i => f.tracks (.inl i)) (List.ofFn fun j => f.tracks (.inr j))
    (f.activated ++ started) f.refind f.lost f.removed count

/-- `BYTETracker`; `count` ids have been given before. -/
def start (maxTimeLost : Int) (count : Nat) : ByteTracker K := ⟨0, maxTimeLost, [], [], [], count⟩

end ByteTracker

end PtzAgx.Algs
