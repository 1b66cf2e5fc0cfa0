import PtzAgx.Algs.TrackerState

/-! # One frame of the tracker

What is true of the two lists before a frame is true of them after it, and with so few
detections that the solver can work with them there is an after.
-/

namespace PtzAgx.Algs.ByteTracker

open STrack

variable {K : Type} {t : ByteTracker K} {bound : Nat}

/-! ## The places of a frame -/

theorem Sound.places_distinct (sound : t.Sound bound)
    {p q : Fin t.trackedStracks.length ⊕ Fin t.lostStracks.length}
    (same : (t.strackAt p).trackId = (t.strackAt q).trackId) : p = q := by
  have distinct := sound.distinct
  rw [List.map_append] at distinct
  obtain ⟨first, second, apart⟩ := List.nodup_append.mp distinct
  cases p with
  | inl i => cases q with
    | inl j => exact congrArg Sum.inl (first.of_map.get_inj_iff.mp
        (List.inj_on_of_nodup_map first (List.get_mem _ _) (List.get_mem _ _) same))
    | inr j => exact absurd same (apart _ (List.mem_map_of_mem (List.get_mem _ _)) _
        (List.mem_map_of_mem (List.get_mem _ _)))
  | inr i => cases q with
    | inl j => exact absurd same.symm (apart _ (List.mem_map_of_mem (List.get_mem _ _)) _
        (List.mem_map_of_mem (List.get_mem _ _)))
    | inr j => exact congrArg Sum.inr (second.of_map.get_inj_iff.mp
        (List.inj_on_of_nodup_map second (List.get_mem _ _) (List.get_mem _ _) same))

theorem strackAt_mem (p : Fin t.trackedStracks.length ⊕ Fin t.lostStracks.length) :
    t.strackAt p ∈ t.trackedStracks ++ t.lostStracks := by
  cases p with
  | inl i => exact List.mem_append_left _ (List.get_mem _ _)
  | inr j => exact List.mem_append_right _ (List.get_mem _ _)

theorem Sound.older (sound : t.Sound bound)
    (p : Fin t.trackedStracks.length ⊕ Fin t.lostStracks.length) :
    (t.strackAt p).frameId < t.frameId + 1 := by
  cases p with
  | inl i => exact Nat.lt_succ_of_le (sound.current _ (List.get_mem _ i)).2.le
  | inr j => exact Nat.lt_succ_of_lt (sound.waiting _ (List.get_mem _ j)).2.2

theorem mem_places (i : Fin t.trackedStracks.length) : Sum.inl i ∈ t.places :=
  List.mem_map_of_mem (List.mem_finRange i)

theorem places_nodup : t.places.Nodup := (List.nodup_finRange _).map Sum.inl_injective

theorem Sound.pool_activated (sound : t.Sound bound) :
    ∀ p ∈ t.strackPool, (t.strackAt p).isActivated = true := by
  intro p member
  obtain active | lost := mem_joinNew member
  · exact (List.mem_filter.mp active).2
  · obtain ⟨j, -, rfl⟩ := List.mem_map.mp lost
    exact (sound.waiting _ (List.get_mem _ j)).2.1

theorem mem_unconfirmed {p : Fin t.trackedStracks.length ⊕ Fin t.lostStracks.length} :
    p ∈ t.unconfirmed ↔ p ∈ t.places ∧ (t.strackAt p).isActivated = false := by
  rw [unconfirmed, List.mem_filter, decide_eq_true_iff, Bool.not_eq_true]

theorem Sound.pointers_nodup (sound : t.Sound bound) : (t.strackPool ++ t.unconfirmed).Nodup := by
  refine List.nodup_append.mpr ⟨?_, places_nodup.filter _, ?_⟩
  · have ids := (places_nodup.filter fun p => (t.strackAt p).isActivated).map_on fun p _ q _ same =>
      sound.places_distinct (p := p) (q := q) same
    exact (joinNew_nodup ids).of_map
  · rintro p member q other rfl
    have active := sound.pool_activated p member
    rw [(mem_unconfirmed.mp other).2] at active
    cases active

theorem mem_pointers (i : Fin t.trackedStracks.length) :
    Sum.inl i ∈ t.strackPool ∨ Sum.inl i ∈ t.unconfirmed := by
  cases active : (t.strackAt (.inl i)).isActivated with
  | true => exact .inl (mem_joinNew_of_mem (List.mem_filter.mpr ⟨mem_places i, active⟩))
  | false => exact .inr (mem_unconfirmed.mpr ⟨mem_places i, active⟩)

theorem Sound.unconfirmed_tracked (sound : t.Sound bound) :
    ∀ p ∈ t.unconfirmed, (t.strackAt p).state = .tracked := by
  intro p member
  obtain ⟨i, -, rfl⟩ := List.mem_map.mp (mem_unconfirmed.mp member).1
  exact (sound.current _ (List.get_mem _ i)).1

theorem Sound.pointers_length (sound : t.Sound bound) :
    t.strackPool.length + t.unconfirmed.length ≤ (patience t.maxTimeLost + 2) * bound := by
  have le := sound.pointers_nodup.length_le_card
  rw [List.length_append, Fintype.card_sum, Fintype.card_fin, Fintype.card_fin] at le
  exact le.trans sound.length_le

/-! ## The lists after a frame -/

/-- `tracked_stracks`, before duplicates are removed. -/
def joined (t : ByteTracker K)
    (f : Frame (Fin t.trackedStracks.length ⊕ Fin t.lostStracks.length) K)
    (started : List (STrack K)) : List (STrack K) :=
  jointStracks trackId (jointStracks trackId ((List.ofFn fun i => f.tracks (.inl i)).filter fun s =>
    s.state = .tracked)
    (f.activated ++ started)) f.refind

variable {f : Frame (Fin t.trackedStracks.length ⊕ Fin t.lostStracks.length) K}
  {started : List (STrack K)} {s : STrack K}

theorem mem_joined_ids (member : s ∈ f.activated ++ f.refind) :
    s.trackId ∈ (t.joined f started).map trackId := by
  obtain activated | refind := List.mem_append.mp member
  · exact joinNew_keys.mpr
      (.inl (joinNew_keys.mpr (.inr (List.mem_map_of_mem (List.mem_append_left _ activated)))))
  · exact joinNew_keys.mpr (.inr (List.mem_map_of_mem refind))

/-! ## The detections of a frame -/

section Detections

variable [Field K]

theorem static_score (s : STrack K) :
    s.static.score = s.score ∧ s.static.isActivated = s.isActivated := by
  obtain ⟨_, _, same⟩ := static_eq s
  rw [same]
  exact ⟨rfl, rfl⟩

theorem detection_score (o : Detected K) :
    (detection o).score = o.prob ∧ (detection o).isActivated = false :=
  static_score _

variable [LinearOrder K] {objects : List (Detected K)}

theorem detections_length (objects : List (Detected K)) :
    (detections objects).1.length + (detections objects).2.length = objects.length := by
  have split := List.length_eq_length_filter_add (l := objects.map detection) fun d =>
    decide (d.score ≥ trackThresh)
  rw [List.length_map] at split
  simp only [detections, decide_not]
  exact split.symm

theorem mem_detections {d : STrack K} (member : d ∈ (detections objects).1) :
    ∃ o ∈ objects, detection o = d :=
  List.mem_map.mp (List.mem_filter.mp member).1

theorem detections_promising :
    ((detections objects).1.filter fun d => highThresh ≤ d.score).length ≤
    (objects.filter fun o => highThresh ≤ o.prob).length := by
  have le := (List.filter_sublist (l := objects.map detection)
    (p := fun d => decide (d.score ≥ trackThresh))).filter
    fun d => decide (highThresh ≤ d.score)
  have same : (fun d => decide (highThresh ≤ d.score)) ∘ detection = fun o :
      Detected K => decide (highThresh ≤ o.prob) := by
    funext o
    rw [Function.comp_apply, (detection_score o).1]
  refine le.length_le.trans ?_
  rw [List.filter_map, List.length_map, same]

end Detections

/-! ## What a frame does -/

section Work

variable [Field K] [LinearOrder K]

/-- The frame `f`, with the tracks that begin in it. -/
structure Worked (t : ByteTracker K) (objects : List (Detected K))
    (f : Frame (Fin t.trackedStracks.length ⊕ Fin t.lostStracks.length) K)
    (started : List (STrack K)) : Prop where
  sound : f.Sound t.strackAt (t.frameId + 1)
  tracked : ∀ i, Handled t.strackAt (t.frameId + 1) f (.inl i)
  ids : started.map trackId = List.range' (t.count + 1) started.length
  begun : ∀ s ∈ started, Begun (t.frameId + 1) s
  copies : f.copies + started.length ≤ objects.length
  promising : started.length ≤ (objects.filter fun o => highThresh ≤ o.prob).length

/-- The tracker after the frame. -/
def after (t : ByteTracker K) (f : Frame (Fin t.trackedStracks.length ⊕ Fin t.lostStracks.length) K)
    (started : List (STrack K)) : ByteTracker K × List (STrack K) :=
  updateState t (List.ofFn fun i => f.tracks (.inl i)) (List.ofFn fun j => f.tracks (.inr j))
    (f.activated ++ started)
    f.refind f.lost f.removed (t.count + started.length)

/-- What step 5 adds to `removed_stracks`. -/
def marked (t : ByteTracker K)
    (f : Frame (Fin t.trackedStracks.length ⊕ Fin t.lostStracks.length) K) : List (STrack K) :=
  f.removed ++ ((List.ofFn fun j => f.tracks (.inr j)).filter fun s => expired
    (t.frameId + 1) t.maxTimeLost s).map markRemoved

/-- `lost_stracks`, before duplicates are removed. -/
def missed (t : ByteTracker K)
    (f : Frame (Fin t.trackedStracks.length ⊕ Fin t.lostStracks.length) K)
    (started : List (STrack K)) : List (STrack K) :=
  let lost := (List.ofFn fun j => f.tracks (.inr j)).map fun s =>
    if expired (t.frameId + 1) t.maxTimeLost s then s.markRemoved else s
  subStracks (subStracks lost (t.joined f started) ++ f.lost) t.removedStracks

variable {objects : List (Detected K)}

theorem after_eq : t.after f started =
    ({ t with
        frameId := t.frameId + 1
        trackedStracks := (removeDuplicateStracks (t.joined f started) (t.missed f started)).1
        lostStracks := (removeDuplicateStracks (t.joined f started) (t.missed f started)).2
        removedStracks := t.removedStracks ++ t.marked f
        count := t.count + started.length },
      (removeDuplicateStracks (t.joined f started) (t.missed f started)).1.filter fun s =>
      s.isActivated) := rfl

theorem Worked.trackId_eq (worked : t.Worked objects f started)
    (p : Fin t.trackedStracks.length ⊕ Fin t.lostStracks.length) :
    (f.tracks p).trackId = (t.strackAt p).trackId := by
  obtain waiting | handled := worked.sound.fates p
  · exact waiting.trackId
  · cases handled with
    | followed renewed _ => exact renewed.trackId
    | lost _ kept _ => exact kept.trackId
    | removed _ kept => exact kept.trackId

theorem Worked.mem_swap (worked : t.Worked objects f started)
    (member : s ∈ (List.ofFn fun i => f.tracks (.inl i)).filter fun s => s.state = .tracked) :
    s ∈ f.activated ++ f.refind := by
  obtain ⟨found, state⟩ := List.mem_filter.mp member
  obtain ⟨i, rfl⟩ := List.mem_ofFn.mp found
  have tracked := of_decide_eq_true state
  cases worked.tracked i with
  | followed _ copied => exact copied
  | lost _ kept _ => exact absurd (tracked.symm.trans kept.state) TrackState.noConfusion
  | removed _ kept => exact absurd (tracked.symm.trans kept.state) TrackState.noConfusion

theorem Worked.mem_joined (worked : t.Worked objects f started) (member : s ∈ t.joined f started) :
    s ∈ f.activated ++ f.refind ∨ s ∈ started := by
  obtain first | found := mem_joinNew member
  · obtain swapped | activated := mem_joinNew first
    · exact .inl (worked.mem_swap swapped)
    · obtain copied | new := List.mem_append.mp activated
      · exact .inl (List.mem_append_left _ copied)
      · exact .inr new
  · exact .inl (List.mem_append_right _ found)

theorem Worked.renewed_or_begun (worked : t.Worked objects f started)
    (member : s ∈ t.joined f started) :
    (∃ p, f.tracks p = s ∧ Renewed (t.frameId + 1) (t.strackAt p) s) ∨ s ∈ started :=
  (worked.mem_joined member).imp_left (worked.sound.followed s)

theorem Worked.started_new (worked : t.Worked objects f started) (member : s ∈ started) :
    t.count < s.trackId ∧ s.trackId ≤ t.count + started.length := by
  have id : s.trackId ∈ List.range' (t.count + 1) started.length :=
    worked.ids ▸ List.mem_map_of_mem member
  rw [List.mem_range'_1] at id
  omega

theorem Worked.joined_nodup (worked : t.Worked objects f started) (sound : t.Sound bound) :
    ((t.joined f started).map trackId).Nodup := by
  have ids : ((List.ofFn fun i => f.tracks (.inl i)).map trackId).Nodup := by
    rw [List.map_ofFn, List.nodup_ofFn]
    intro i j same
    rw [Function.comp_apply, Function.comp_apply, worked.trackId_eq, worked.trackId_eq] at same
    exact Sum.inl_injective (sound.places_distinct same)
  exact joinNew_nodup (joinNew_nodup (ids.sublist (List.filter_sublist.map _)))

theorem Worked.joined_length (worked : t.Worked objects f started) (sound : t.Sound bound) :
    (t.joined f started).length ≤ objects.length := by
  have le := length_le_of_keys trackId ((f.activated ++ f.refind) ++ started)
    (worked.joined_nodup sound)
    fun s member => List.mem_map_of_mem (List.mem_append.mpr (worked.mem_joined member))
  have copies := worked.copies
  rw [Frame.copies] at copies
  rw [List.length_append, List.length_append] at le
  omega

/-- A lost track is one from before, which no tracked track is. -/
structure Missed (t : ByteTracker K)
    (f : Frame (Fin t.trackedStracks.length ⊕ Fin t.lostStracks.length) K)
    (started : List (STrack K)) (p : Fin t.trackedStracks.length ⊕ Fin t.lostStracks.length)
    (s : STrack K) : Prop where
  trackId : s.trackId = (t.strackAt p).trackId
  startFrame : s.startFrame = (t.strackAt p).startFrame
  frameId : s.frameId = (t.strackAt p).frameId
  isActivated : s.isActivated = true
  state : s.state ≠ .tracked
  absent : s.trackId ∉ (t.joined f started).map STrack.trackId
  marked : (∃ i, p = .inl i) ∨ (expired (t.frameId + 1) t.maxTimeLost s →
    s.trackId ∈ (t.marked f).map STrack.trackId)

theorem Worked.missed_waiting (worked : t.Worked objects f started) (sound : t.Sound bound)
    {j : Fin t.lostStracks.length}
    (absent : (f.tracks (.inr j)).trackId ∉ (t.joined f started).map trackId) :
    Waiting t.strackAt f (.inr j) := by
  have lost := (sound.waiting _ (List.get_mem _ j)).1
  refine (worked.sound.fates _).resolve_right fun handled => ?_
  cases handled with
  | followed _ copied => exact absent (mem_joined_ids copied)
  | lost tracked _ _ => exact lost tracked
  | removed tracked _ => exact lost tracked

theorem Worked.missed_inr (worked : t.Worked objects f started) (sound : t.Sound bound)
    (j : Fin t.lostStracks.length)
    (absent : (f.tracks (.inr j)).trackId ∉ (t.joined f started).map trackId) :
    Missed t f started (.inr j)
      (if expired (t.frameId + 1) t.maxTimeLost
        (f.tracks (.inr j)) then (f.tracks (.inr j)).markRemoved
        else f.tracks (.inr j)) := by
  have waits := worked.missed_waiting sound absent
  obtain ⟨lost, active, -⟩ := sound.waiting _ (List.get_mem _ j)
  have confirmed : (f.tracks (.inr j)).isActivated = true := waits.isActivated.trans active
  split
  · rename_i late
    refine ⟨waits.trackId, waits.startFrame, waits.frameId, confirmed, TrackState.noConfusion,
      absent, .inr fun _ => ?_⟩
    have place : f.tracks (.inr j) ∈ List.ofFn fun j => f.tracks (.inr j) :=
      List.mem_ofFn.mpr ⟨j, rfl⟩
    refine List.mem_map_of_mem (f := trackId)
      (a := (f.tracks (.inr j)).markRemoved) (List.mem_append_right _ ?_)
    exact List.mem_map_of_mem (List.mem_filter.mpr ⟨place, decide_eq_true late⟩)
  · rename_i soon
    refine ⟨waits.trackId, waits.startFrame, waits.frameId, confirmed, fun state => lost ?_, absent,
      .inr fun late => absurd late soon⟩
    exact waits.state.symm.trans state

theorem Worked.missed_inl (worked : t.Worked objects f started) (sound : t.Sound bound)
    (member : s ∈ f.lost) :
    ∃ p, Missed t f started p s := by
  obtain ⟨p, rfl, ⟨tracked, active⟩, kept⟩ := worked.sound.lost s member
  refine ⟨p, kept.trackId, kept.startFrame, kept.frameId, kept.isActivated.trans active, ?_,
    fun known => ?_, .inl ?_⟩
  · rw [kept.state]
    exact TrackState.noConfusion
  · obtain ⟨u, found, same⟩ := List.mem_map.mp known
    obtain ⟨q, rfl, renewed⟩ | new := worked.renewed_or_begun found
    · obtain rfl : q = p :=
        sound.places_distinct (renewed.trackId.symm.trans (same.trans kept.trackId))
      exact absurd (renewed.state.symm.trans kept.state) TrackState.noConfusion
    · have old := (sound.known _ (strackAt_mem p)).1
      have later := (worked.started_new new).1
      rw [same, kept.trackId] at later
      omega
  · cases p with
    | inl i => exact ⟨i, rfl⟩
    | inr j => exact absurd tracked (sound.waiting _ (List.get_mem _ j)).1

theorem Worked.mem_missed (worked : t.Worked objects f started) (sound : t.Sound bound)
    (member : s ∈ t.missed f started) :
    s.trackId ∉ t.removedStracks.map trackId ∧ ∃ p, Missed t f started p s := by
  obtain ⟨found, kept⟩ := mem_eraseKeys.mp member
  refine ⟨kept, ?_⟩
  obtain before | now := List.mem_append.mp (mem_keyedMap found)
  · obtain ⟨found, absent⟩ := mem_eraseKeys.mp before
    obtain ⟨u, place, rfl⟩ := List.mem_map.mp (mem_keyedMap found)
    obtain ⟨j, rfl⟩ := List.mem_ofFn.mp place
    refine ⟨.inr j, worked.missed_inr sound j ?_⟩
    split at absent <;> exact absent
  · exact worked.missed_inl sound now

theorem Worked.distinct (worked : t.Worked objects f started) (sound : t.Sound bound) :
    ((t.joined f started ++ t.missed f started).map trackId).Nodup := by
  have missed : ((t.missed f started).map trackId).Nodup :=
    keyedMap_nodup.sublist (eraseKeys_sublist.map _)
  rw [List.map_append]
  refine List.nodup_append.mpr ⟨worked.joined_nodup sound, missed, fun k tracked l lost same => ?_⟩
  obtain ⟨s, member, rfl⟩ := List.mem_map.mp lost
  obtain ⟨-, p, missed⟩ := worked.mem_missed sound member
  exact missed.absent (same ▸ tracked)

/-- Between two frames a track keeps its start, and a new one has an id of its own. -/
theorem Worked.origin (worked : t.Worked objects f started) (sound : t.Sound bound)
    (member : s ∈ t.joined f started ++ t.missed f started) :
    (∃ u ∈ t.trackedStracks ++ t.lostStracks, s.trackId = u.trackId ∧ s.startFrame = u.startFrame) ∨
      s ∈ started := by
  obtain tracked | lost := List.mem_append.mp member
  · refine (worked.renewed_or_begun tracked).imp_left ?_
    rintro ⟨p, -, renewed⟩
    exact ⟨_, strackAt_mem p, renewed.trackId, renewed.startFrame⟩
  · obtain ⟨-, p, missed⟩ := worked.mem_missed sound lost
    exact .inl ⟨_, strackAt_mem p, missed.trackId, missed.startFrame⟩

theorem Worked.current (worked : t.Worked objects f started) (member : s ∈ t.joined f started) :
    s.state = .tracked ∧ s.frameId = t.frameId + 1 := by
  obtain ⟨p, -, renewed⟩ | new := worked.renewed_or_begun member
  · exact ⟨renewed.state, renewed.frameId⟩
  · exact ⟨(worked.begun s new).state, (worked.begun s new).frameId⟩

theorem Worked.known (worked : t.Worked objects f started) (sound : t.Sound bound)
    (member : s ∈ t.joined f started ++ t.missed f started) :
    s.trackId ≤ t.count + started.length ∧ s.startFrame ≤ s.frameId := by
  obtain tracked | lost := List.mem_append.mp member
  · obtain ⟨p, -, renewed⟩ | new := worked.renewed_or_begun tracked
    · have old := sound.known _ (strackAt_mem p)
      have older := sound.older p
      rw [renewed.trackId, renewed.startFrame, renewed.frameId]
      omega
    · have begun := worked.begun s new
      exact ⟨(worked.started_new new).2, by rw [begun.startFrame, begun.frameId]⟩
  · obtain ⟨-, p, missed⟩ := worked.mem_missed sound lost
    have old := sound.known _ (strackAt_mem p)
    rw [missed.trackId, missed.startFrame, missed.frameId]
    omega

/-- A lost track is marked in time, and is gone in the next frame. -/
theorem Worked.aged (worked : t.Worked objects f started) (sound : t.Sound bound)
    (member : s ∈ t.missed f started) :
    t.frameId + 1 ≤ s.frameId + patience t.maxTimeLost ∨
      (t.frameId + 1 = s.frameId + patience t.maxTimeLost + 1 ∧
        s.trackId ∈ (t.removedStracks ++ t.marked f).map trackId) := by
  obtain ⟨kept, p, missed⟩ := worked.mem_missed sound member
  have positive : 1 ≤ patience t.maxTimeLost := by
    unfold patience
    omega
  cases p with
  | inl i =>
      have last := (sound.current _ (List.get_mem _ i)).2
      have same := missed.frameId
      change s.frameId = (t.trackedStracks.get i).frameId at same
      omega
  | inr j =>
      have same := missed.frameId
      have id := missed.trackId
      change s.frameId = (t.lostStracks.get j).frameId at same
      change s.trackId = (t.lostStracks.get j).trackId at id
      obtain soon | ⟨-, removed⟩ := sound.aged _ (List.get_mem _ j)
      · by_cases late : expired (t.frameId + 1) t.maxTimeLost s
        · have known :=
            missed.marked.resolve_left (fun ⟨i, wrong⟩ => Sum.inl_ne_inr wrong.symm) late
          have listed : s.trackId ∈ (t.removedStracks ++ t.marked f).map trackId := by
            rw [List.map_append]
            exact List.mem_append_right _ known
          by_cases now : t.frameId + 1 ≤ s.frameId + patience t.maxTimeLost
          · exact .inl now
          · exact .inr ⟨by omega, listed⟩
        · unfold expired endFrame at late
          refine .inl ?_
          unfold patience
          omega
      · exact absurd (id ▸ removed) kept

/-- The frame of a track says when it was last seen, so no frame gets more of them. -/
theorem Worked.few (worked : t.Worked objects f started) (sound : t.Sound bound)
    (short : objects.length ≤ bound)
    (frame : Nat) :
    ((t.joined f started ++ t.missed f started).filter fun s => s.frameId = frame).length ≤
      bound := by
  have distinct :
      (((t.joined f started ++ t.missed f started).filter fun s => s.frameId =
        frame).map trackId).Nodup :=
    (worked.distinct sound).sublist (List.filter_sublist.map _)
  by_cases now : frame = t.frameId + 1
  · refine (length_le_of_keys trackId (t.joined f started) distinct fun s member => ?_).trans
      ((worked.joined_length sound).trans short)
    obtain ⟨found, seen⟩ := List.mem_filter.mp member
    obtain tracked | lost := List.mem_append.mp found
    · exact List.mem_map_of_mem tracked
    · obtain ⟨-, p, missed⟩ := worked.mem_missed sound lost
      have older := sound.older p
      have same := of_decide_eq_true seen
      rw [missed.frameId] at same
      omega
  · refine (length_le_of_keys trackId ((t.trackedStracks ++ t.lostStracks).filter fun s =>
      s.frameId = frame)
      distinct fun s member => ?_).trans
      (sound.few frame)
    obtain ⟨found, seen⟩ := List.mem_filter.mp member
    have same := of_decide_eq_true seen
    obtain tracked | lost := List.mem_append.mp found
    · exact absurd (same.symm.trans (worked.current tracked).2) now
    · obtain ⟨-, p, missed⟩ := worked.mem_missed sound lost
      have last : (t.strackAt p).frameId = frame := missed.frameId.symm.trans same
      exact missed.trackId ▸ List.mem_map_of_mem
        (List.mem_filter.mpr ⟨strackAt_mem p, decide_eq_true last⟩)

theorem Worked.tracks (worked : t.Worked objects f started) (sound : t.Sound bound)
    (short : objects.length ≤ bound) :
    Tracks (t.frameId + 1) (t.count + started.length) bound t.maxTimeLost
      (t.removedStracks ++ t.marked f) (t.joined f started) (t.missed f started) := by
  constructor
  case distinct => exact worked.distinct sound
  case known => exact fun s => worked.known sound
  case current => exact fun s => worked.current
  case confirmed =>
    intro s member active
    obtain ⟨p, -, renewed⟩ | new := worked.renewed_or_begun member
    · have old := (sound.known _ (strackAt_mem p)).2
      have older := sound.older p
      rw [renewed.startFrame]
      omega
    · have begun := worked.begun s new
      exact .inl (begun.startFrame.trans (begun.unconfirmed active))
  case unconfirmed =>
    intro s member inactive
    obtain ⟨p, -, renewed⟩ | new := worked.renewed_or_begun member
    · rw [renewed.isActivated] at inactive
      cases inactive
    · exact (worked.begun s new).startFrame
  case waiting =>
    intro s member
    obtain ⟨-, p, missed⟩ := worked.mem_missed sound member
    exact ⟨missed.state, missed.isActivated, missed.frameId ▸ sound.older p⟩
  case aged => exact fun s => worked.aged sound
  case few => exact worked.few sound short

theorem Worked.sound_after (worked : t.Worked objects f started) (sound : t.Sound bound)
    (short : objects.length ≤ bound) :
    (t.after f started).1.Sound bound :=
  (worked.tracks sound short).sublist (removeDuplicateStracks_sublist _ _).1
    (removeDuplicateStracks_sublist _ _).2

variable [IsStrictOrderedRing K]

theorem update_worked (solve : KalmanFilter.Solver K) (sound : t.Sound bound)
    (few : objects.length ≤ bound)
    (small : (patience t.maxTimeLost + 3) * bound < 2 ^ 16) :
    ∃ f started, t.update solve objects = some (t.after f started) ∧
      t.Worked objects f started := by
  have sizes := detections_length objects
  have pointers := sound.pointers_length
  have total : (patience t.maxTimeLost + 3) * bound = (patience t.maxTimeLost + 2) * bound +
      bound := by ring
  obtain ⟨f, left, ran, working, pool, rest, copies, taken⟩ := associations_sound solve sound.older
    sound.pointers_nodup (fun p member _ => sound.pool_activated p member) sound.unconfirmed_tracked
    (show _ + _ + ((detections objects).1.length + (detections objects).2.length) < _ by omega)
  have fresh (d : STrack K) (member : d ∈ left) : d.isActivated = false := by
    obtain ⟨o, -, rfl⟩ := mem_detections (taken.subset member)
    exact (detection_score o).2
  obtain ⟨started, begun, ids, beginning, promising⟩ :=
    begin_foldl (t.frameId + 1) left fresh t.count []
  rw [List.nil_append] at begun
  refine ⟨f, started, ?_, ?_⟩
  · refine Option.bind_eq_some_iff.mpr ⟨(f, left), ran, ?_⟩
    simp only [begun]
    rfl
  · constructor
    case sound => exact working
    case tracked =>
      intro i
      obtain pooled | once := mem_pointers i
      · exact pool _ pooled (sound.current _ (List.get_mem _ i)).1
      · exact rest _ once
    case ids => exact ids
    case begun => exact beginning
    case copies =>
      have le := promising.trans (List.length_filter_le _ _)
      omega
    case promising => exact promising.trans ((taken.filter _).length_le.trans detections_promising)

end Work

end PtzAgx.Algs.ByteTracker
