import PtzAgx.Algs.TrackerFrame

/-! # The lists of tracks after a frame

What each of the lists holds, by what has become of the tracks at their places.
-/

namespace PtzAgx.Algs.ByteTracker

open STrack

variable {K : Type}

/-! ## What is true between two frames -/

/-- How many frames a lost track waits before it is marked. -/
def patience (maxTimeLost : Int) : Nat := (max maxTimeLost 1).toNat

/-- The tracked and the lost tracks after the frame `now`. -/
structure Tracks (now count bound : Nat) (maxTimeLost : Int)
    (removed tracked lost : List (STrack K)) : Prop where
  distinct : ((tracked ++ lost).map trackId).Nodup
  known : ∀ s ∈ tracked ++ lost, s.trackId ≤ count ∧ s.startFrame ≤ s.frameId
  current : ∀ s ∈ tracked, s.state = .tracked ∧ s.frameId = now
  confirmed : ∀ s ∈ tracked, s.isActivated = true → s.startFrame = 1 ∨ s.startFrame < now
  unconfirmed : ∀ s ∈ tracked, s.isActivated = false → s.startFrame = now
  waiting : ∀ s ∈ lost, s.state ≠ .tracked ∧ s.isActivated = true ∧ s.frameId < now
  aged : ∀ s ∈ lost, now ≤ s.frameId + patience maxTimeLost ∨
    (now = s.frameId + patience maxTimeLost + 1 ∧ s.trackId ∈ removed.map trackId)
  few : ∀ frame, ((tracked ++ lost).filter fun s => s.frameId = frame).length ≤ bound

def Sound (bound : Nat) (t : ByteTracker K) : Prop :=
  Tracks t.frameId t.count bound t.maxTimeLost t.removedStracks t.trackedStracks t.lostStracks

section Tracks

variable {now count bound : Nat} {maxTimeLost : Int}
  {removed tracked lost tracked' lost' : List (STrack K)}

theorem Tracks.sublist (tracks : Tracks now count bound maxTimeLost removed tracked lost)
    (first : tracked'.Sublist tracked)
    (second : lost'.Sublist lost) : Tracks now count bound maxTimeLost removed tracked' lost' := by
  have both := first.append second
  constructor
  case distinct => exact tracks.distinct.sublist (both.map _)
  case known => exact fun s member => tracks.known s (both.subset member)
  case current => exact fun s member => tracks.current s (first.subset member)
  case confirmed => exact fun s member => tracks.confirmed s (first.subset member)
  case unconfirmed => exact fun s member => tracks.unconfirmed s (first.subset member)
  case waiting => exact fun s member => tracks.waiting s (second.subset member)
  case aged => exact fun s member => tracks.aged s (second.subset member)
  case few => exact fun frame => ((both.filter _).length_le).trans (tracks.few frame)

/-- So many tracks can there be: those of each frame a lost track may be from. -/
theorem Tracks.length_le (tracks : Tracks now count bound maxTimeLost removed tracked lost) :
    tracked.length + lost.length ≤ (patience maxTimeLost + 2) * bound := by
  have inside : ∀ s ∈ tracked ++ lost,
      s.frameId ∈ Finset.Icc (now - (patience maxTimeLost + 1)) now := by
    intro s member
    rw [Finset.mem_Icc]
    obtain tracked | lost := List.mem_append.mp member
    · have same := (tracks.current s tracked).2
      omega
    · have before := (tracks.waiting s lost).2.2
      obtain soon | marked := tracks.aged s lost
      · omega
      · omega
  have le := length_le_of_classes (l := tracked ++ lost) _ bound inside tracks.few
  have card : (Finset.Icc (now - (patience maxTimeLost + 1)) now).card ≤
      patience maxTimeLost + 2 := by
    rw [Nat.card_Icc]
    omega
  rw [List.length_append] at le
  exact le.trans (Nat.mul_le_mul_right bound card)

end Tracks

/-! ## New tracks -/

/-- A track that begins in this frame. -/
structure Begun (now : Nat) (s : STrack K) : Prop where
  startFrame : s.startFrame = now
  frameId : s.frameId = now
  state : s.state = .tracked
  unconfirmed : s.isActivated = true → now = 1

section Lists

variable [Field K] {frameId : Nat} {s t : STrack K}

theorem activate_begun {d : STrack K} (fresh : d.isActivated = false) (nextId frameId : Nat) :
    Begun frameId (d.activate nextId frameId) ∧ (d.activate nextId frameId).trackId = nextId := by
  obtain ⟨trackId, startFrame, frame, state⟩ := activate_eq d nextId frameId
  refine ⟨⟨startFrame, frame, state, fun active => ?_⟩, trackId⟩
  by_contra later
  obtain ⟨_, _, same⟩ :=
    static_eq { d with trackId := nextId,
                       kalData := KalmanFilter.initiate (tlwhToXyah d.givenTlwh) }
  unfold activate at active
  dsimp only at active
  rw [if_neg later, same] at active
  exact absurd (active.symm.trans fresh) Bool.noConfusion

variable [LinearOrder K]

theorem begin_foldl (frameId : Nat) (left : List (STrack K))
    (fresh : ∀ d ∈ left, d.isActivated = false) (count : Nat)
    (started : List (STrack K)) :
    ∃ new, left.foldl (begin frameId) (count, started) = (count + new.length, started ++ new) ∧
      new.map trackId = List.range' (count + 1) new.length ∧ (∀ s ∈ new, Begun frameId s) ∧
      new.length ≤ (left.filter fun d => highThresh ≤ d.score).length := by
  induction left generalizing count started with
  | nil => exact ⟨[], by simp, rfl, fun _ member => absurd member List.not_mem_nil, Nat.zero_le _⟩
  | cons d left ih =>
      have rest (e : STrack K) (member : e ∈ left) := fresh e (List.mem_cons_of_mem d member)
      rw [List.foldl_cons, begin]
      split
      · rename_i low
        obtain ⟨new, ran, ids, begun, few⟩ := ih rest count started
        refine ⟨new, ran, ids, begun, ?_⟩
        rwa [List.filter_cons_of_neg (by simpa using low)]
      · rename_i high
        obtain ⟨new, ran, ids, begun, few⟩ :=
          ih rest (count + 1) (started ++ [d.activate (count + 1) frameId])
        obtain ⟨own, named⟩ := activate_begun (fresh d List.mem_cons_self) (count + 1) frameId
        refine ⟨d.activate (count + 1) frameId :: new, ?_, ?_, ?_, ?_⟩
        · rw [ran, List.length_cons, List.append_assoc, List.singleton_append, Nat.add_assoc,
            Nat.add_comm 1]
        · rw [List.map_cons, named, ids, List.length_cons, List.range'_succ]
        · exact List.forall_mem_cons.mpr ⟨own, begun⟩
        · rw [List.filter_cons_of_pos (by simpa using high), List.length_cons, List.length_cons]
          exact Nat.succ_le_succ few

/-! ## Duplicates -/

theorem removeDuplicateStracks_sublist (a b : List (STrack K)) :
    (removeDuplicateStracks a b).1.Sublist a ∧ (removeDuplicateStracks a b).2.Sublist b := by
  constructor
  · conv_rhs => rw [← List.map_get_finRange a]
    exact List.filter_sublist.map _
  · conv_rhs => rw [← List.map_get_finRange b]
    exact List.filter_sublist.map _

theorem removeDuplicateStracks_apart {a b : List (STrack K)}
    (tracked : s ∈ (removeDuplicateStracks a b).1)
    (lost : t ∈ (removeDuplicateStracks a b).2) : duplicateThresh ≤ 1 - iou s.tlbr t.tlbr := by
  unfold removeDuplicateStracks at tracked lost
  obtain ⟨i, kept, rfl⟩ := List.mem_map.mp tracked
  obtain ⟨j, left, rfl⟩ := List.mem_map.mp lost
  have notA := of_decide_eq_true (List.mem_filter.mp kept).2
  have notB := of_decide_eq_true (List.mem_filter.mp left).2
  by_contra near
  rw [not_le] at near
  have pair : (i, j) ∈ (List.finRange a.length).flatMap fun i => (List.finRange b.length).map
      fun j => (i, j) := by
    simp
  have close : (i, j) ∈ ((List.finRange a.length).flatMap fun i => (List.finRange b.length).map
    fun j => (i, j)).filter
      fun p => iouDistance (fun i => (a.get i).tlbr) (fun j => (b.get j).tlbr) p.1 p.2 <
      duplicateThresh :=
    List.mem_filter.mpr ⟨pair, decide_eq_true near⟩
  by_cases younger : duplicateB (a.get i) (b.get j)
  · exact notB (List.mem_map.mpr ⟨(i, j), List.mem_filter.mpr ⟨close, decide_eq_true younger⟩, rfl⟩)
  · exact notA (List.mem_map.mpr ⟨(i, j), List.mem_filter.mpr ⟨close, decide_eq_true younger⟩, rfl⟩)


end Lists

end PtzAgx.Algs.ByteTracker
