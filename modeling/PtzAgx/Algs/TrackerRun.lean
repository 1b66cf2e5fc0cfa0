import PtzAgx.Algs.TrackerStep

/-! # The tracker over whole runs

Ids are given once, a track is in one list, and only those that were seen in this
frame are tracked. No frame ends the program.
-/

namespace PtzAgx.Algs.ByteTracker

open STrack

variable {K : Type} {bound : Nat}

theorem start_sound (maxTimeLost : Int) (count : Nat) :
    (start maxTimeLost count : ByteTracker K).Sound bound := by
  constructor
  case distinct => exact List.nodup_nil
  case few => exact fun _ => Nat.zero_le _
  all_goals exact fun _ member => absurd member List.not_mem_nil

variable [Field K] [LinearOrder K] {solve : KalmanFilter.Solver K} {t u : ByteTracker K}

/-! ## Runs -/

/-- The frames between two trackers, none of them with more detections than a bound. -/
inductive Run (solve : KalmanFilter.Solver K) (bound : Nat) (t : ByteTracker K) :
    ByteTracker K → Prop
  | refl : Run solve bound t t
  | frame {u v : ByteTracker K} {objects : List (Detected K)} {output : List (STrack K)} :
      Run solve bound t u → objects.length ≤ bound → u.update solve objects = some (v, output) →
      Run solve bound t v

section Steps

variable [IsStrictOrderedRing K] {objects : List (Detected K)} {output : List (STrack K)}

theorem Sound.frame (sound : t.Sound bound) (short : objects.length ≤ bound)
    (small : (patience t.maxTimeLost + 3) * bound < 2 ^ 16)
    (ran : t.update solve objects = some (u, output)) :
    ∃ f started, (u, output) = t.after f started ∧ t.Worked objects f started ∧ u.Sound bound ∧
      u.maxTimeLost = t.maxTimeLost := by
  obtain ⟨f, started, did, worked⟩ := update_worked solve sound short small
  have same : (u, output) = t.after f started := Option.some.inj (ran.symm.trans did)
  have kept := worked.sound_after sound short
  rw [← same] at kept
  exact ⟨f, started, same, worked, kept, congrArg (·.1.maxTimeLost) same⟩

theorem Run.sound (run : Run solve bound t u) (sound : t.Sound bound)
    (small : (patience t.maxTimeLost + 3) * bound < 2 ^ 16) :
    u.Sound bound ∧ u.maxTimeLost = t.maxTimeLost := by
  induction run with
  | refl => exact ⟨sound, rfl⟩
  | frame _ short ran ih =>
      obtain ⟨before, same⟩ := ih
      obtain ⟨_, _, _, _, kept, still⟩ := before.frame short (same ▸ small) ran
      exact ⟨kept, still.trans same⟩

/-- Where the tracks of a tracker are from. -/
def From (t u : ByteTracker K) : Prop :=
  t.count ≤ u.count ∧ ∀ s ∈ u.trackedStracks ++ u.lostStracks, s.trackId ≤ t.count →
    ∃ r ∈ t.trackedStracks ++ t.lostStracks, s.trackId = r.trackId ∧ s.startFrame = r.startFrame

theorem Sound.frame_from (sound : t.Sound bound) (short : objects.length ≤ bound)
    (small : (patience t.maxTimeLost + 3) * bound < 2 ^ 16)
    (ran : t.update solve objects = some (u, output)) :
    From t u := by
  obtain ⟨f, started, same, worked, -, -⟩ := sound.frame short small ran
  rw [after_eq, Prod.mk.injEq] at same
  obtain ⟨rfl, rfl⟩ := same
  refine ⟨Nat.le_add_right _ _, fun s member old => ?_⟩
  have both := (removeDuplicateStracks_sublist (t.joined f started) (t.missed f started)).1.append
    (removeDuplicateStracks_sublist (t.joined f started) (t.missed f started)).2
  obtain known | new := worked.origin sound (both.subset member)
  · exact known
  · have later := (worked.started_new new).1
    omega

theorem Run.from (run : Run solve bound t u) (sound : t.Sound bound)
    (small : (patience t.maxTimeLost + 3) * bound < 2 ^ 16) : From t u := by
  induction run with
  | refl => exact ⟨le_rfl, fun s member _ => ⟨s, member, rfl, rfl⟩⟩
  | frame run short ran ih =>
      obtain ⟨before, same⟩ := run.sound sound small
      obtain ⟨count, origin⟩ := ih
      obtain ⟨later, step⟩ := before.frame_from short (same ▸ small) ran
      refine ⟨count.trans later, fun s member old => ?_⟩
      obtain ⟨r, had, id, start⟩ := step s member (old.trans count)
      obtain ⟨q, first, id', start'⟩ := origin r had (id ▸ old)
      exact ⟨q, first, id.trans id', start.trans start'⟩

/-! ## From the constructor -/

variable {maxTimeLost : Int} {count : Nat}

theorem tracker_returns (small : (patience maxTimeLost + 3) * bound < 2 ^ 16)
    (run : Run solve bound (start maxTimeLost count) t) (objects : List (Detected K))
    (short : objects.length ≤ bound) :
    (t.update solve objects).isSome := by
  obtain ⟨sound, same⟩ := run.sound (start_sound maxTimeLost count) small
  change t.maxTimeLost = maxTimeLost at same
  obtain ⟨f, started, ran, -⟩ := update_worked solve sound short (same ▸ small)
  rw [ran]
  rfl

/-- In every run the tracker goes on, its ids differ, a lost track is not kept for long,
    and there are only so many tracks. -/
theorem tracker_runs (small : (patience maxTimeLost + 3) * bound < 2 ^ 16)
    (run : Run solve bound (start maxTimeLost count) t) :
    (∀ objects, objects.length ≤ bound → (t.update solve objects).isSome) ∧
      ((t.trackedStracks ++ t.lostStracks).map trackId).Nodup ∧
      (∀ s ∈ t.trackedStracks, s.state = .tracked ∧ s.frameId = t.frameId) ∧
      (∀ s ∈ t.lostStracks, s.frameId < t.frameId ∧
        t.frameId ≤ s.frameId + patience maxTimeLost + 1) ∧
      t.trackedStracks.length + t.lostStracks.length ≤ (patience maxTimeLost + 2) * bound := by
  obtain ⟨sound, same⟩ := run.sound (start_sound maxTimeLost count) small
  change t.maxTimeLost = maxTimeLost at same
  subst same
  refine ⟨tracker_returns small run, sound.distinct, sound.current, fun s member => ?_,
    sound.length_le⟩
  have before := (sound.waiting s member).2.2
  obtain soon | marked := sound.aged s member
  · exact ⟨before, by omega⟩
  · exact ⟨before, by omega⟩

/-- One box in the first frame and none in the second. -/
theorem tracker_runs_lost :
    let solve : KalmanFilter.Solver ℚ := fun A B => A⁻¹ * B
    ∃ t, Run solve 100 (start 30 0) t ∧ t.lostStracks.length = 1 ∧
      (∀ objects, objects.length ≤ 100 → (t.update solve objects).isSome) ∧
      ((t.trackedStracks ++ t.lostStracks).map trackId).Nodup ∧
      (∀ s ∈ t.trackedStracks, s.state = .tracked ∧ s.frameId = t.frameId) ∧
      (∀ s ∈ t.lostStracks, s.frameId < t.frameId ∧ t.frameId ≤ s.frameId + patience 30 + 1) ∧
      t.trackedStracks.length + t.lostStracks.length ≤ (patience 30 + 2) * 100 := by
  intro solve
  have frames : (((start 30 0).update solve [⟨0, 0, 10, 20, 0, 9 / 10⟩]).bind fun r =>
      r.1.update solve []).map (fun r => r.1.lostStracks.length) = some 1 := by decide +kernel
  obtain ⟨⟨t, _⟩, both, lost⟩ := Option.map_eq_some_iff.mp frames
  obtain ⟨⟨_, _⟩, first, second⟩ := Option.bind_eq_some_iff.mp both
  have run : Run solve 100 (start 30 0) t :=
    .frame (.frame .refl (by decide) first) (by decide) second
  exact ⟨t, run, lost, tracker_runs (by decide) run⟩

/-- A frame with one box, from any tracker a run leads to. -/
theorem Sound.seen (solve : KalmanFilter.Solver K) (sound : t.Sound 100)
    (small : (patience t.maxTimeLost + 3) * 100 < 2 ^ 16)
    (o : Detected K) : ∃ u output, t.update solve [o] = some (u, output) := by
  have short : [o].length ≤ 100 := Nat.le_add_left 1 99
  obtain ⟨f, started, ran, -⟩ := update_worked solve sound short small
  exact ⟨_, _, ran⟩

/-- Later in a run an id that has been given is that of the same track. Once there is no
    track of that id, there never is one again. -/
theorem tracker_ids (small : (patience maxTimeLost + 3) * bound < 2 ^ 16)
    (first : Run solve bound (start maxTimeLost count) t) (run : Run solve bound t u) :
    ∀ s ∈ u.trackedStracks ++ u.lostStracks, s.trackId ≤ t.count →
      ∃ r ∈ t.trackedStracks ++ t.lostStracks, s.trackId = r.trackId ∧
      s.startFrame = r.startFrame := by
  obtain ⟨sound, same⟩ := first.sound (start_sound maxTimeLost count) small
  change t.maxTimeLost = maxTimeLost at same
  exact (run.from sound (same ▸ small)).2

theorem tracker_ids_second :
    let solve : KalmanFilter.Solver ℚ := fun A B => A⁻¹ * B
    ∃ t u output, Run solve 100 (start 30 0) t ∧
    t.update solve [⟨0, 0, 10, 20, 0, 9 / 10⟩] = some (u, output) ∧
      ∀ s ∈ u.trackedStracks ++ u.lostStracks, s.trackId ≤ t.count →
        ∃ r ∈ t.trackedStracks ++ t.lostStracks, s.trackId = r.trackId ∧
        s.startFrame = r.startFrame := by
  intro solve
  obtain ⟨t, _, first⟩ := (start_sound 30 0).seen solve (by decide) ⟨0, 0, 10, 20, 0, 9 / 10⟩
  have once : Run solve 100 (start 30 0) t := .frame .refl (by decide) first
  obtain ⟨sound, same⟩ := once.sound (start_sound 30 0) (by decide)
  obtain ⟨u, output, second⟩ := sound.seen solve (same ▸ by decide) ⟨0, 0, 10, 20, 0, 9 / 10⟩
  exact ⟨t, u, output, once, second, tracker_ids (by decide) once (.frame .refl (by decide) second)⟩

/-- What a frame puts out is part of what it tracks, and that is all from this frame. -/
theorem output_part (small : (patience maxTimeLost + 3) * bound < 2 ^ 16)
    (run : Run solve bound (start maxTimeLost count) t) (short : objects.length ≤ bound)
    (ran : t.update solve objects = some (u, output)) :
    ∃ f started, t.Sound bound ∧ (u, output) = t.after f started ∧ t.Worked objects f started ∧
      output.Sublist (t.joined f started) ∧ ∀ s ∈ output, s.isActivated = true := by
  obtain ⟨sound, same⟩ := run.sound (start_sound maxTimeLost count) small
  change t.maxTimeLost = maxTimeLost at same
  obtain ⟨f, started, did, worked, -, -⟩ := sound.frame short (same ▸ small) ran
  obtain rfl : output = (t.after f started).2 := congrArg Prod.snd did
  refine ⟨f, started, sound, did, worked, ?_, fun s member => (List.mem_filter.mp member).2⟩
  exact List.filter_sublist.trans (removeDuplicateStracks_sublist (t.joined f started)
    (t.missed f started)).1

theorem output_length_le (small : (patience maxTimeLost + 3) * bound < 2 ^ 16)
    (run : Run solve bound (start maxTimeLost count) t) (short : objects.length ≤ bound)
    (ran : t.update solve objects = some (u, output)) : output.length ≤ objects.length := by
  obtain ⟨f, started, sound, -, worked, part, -⟩ := output_part small run short ran
  exact part.length_le.trans (worked.joined_length sound)

/-- What a frame puts out: tracks that differ, no more than there are detections, each
    seen in this frame and not only in this one, unless it is the first. A new id needs a
    detection with a high score, and no tracked track is over a lost one. -/
theorem tracker_output (small : (patience maxTimeLost + 3) * bound < 2 ^ 16)
    (run : Run solve bound (start maxTimeLost count) t) (short : objects.length ≤ bound)
    (ran : t.update solve objects = some (u, output)) :
    (output.map trackId).Nodup ∧ output.length ≤ objects.length ∧
      (∀ s ∈ output, s.state = .tracked ∧ s.frameId = t.frameId + 1 ∧
        (s.startFrame = 1 ∨ s.startFrame < t.frameId + 1)) ∧
      u.count ≤ t.count + (objects.filter fun o => highThresh ≤ o.prob).length ∧
      ∀ a ∈ u.trackedStracks, ∀ b ∈ u.lostStracks, duplicateThresh ≤ 1 - iou a.tlbr b.tlbr := by
  obtain ⟨f, started, sound, did, worked, part, active⟩ := output_part small run short ran
  obtain rfl : u = (t.after f started).1 := congrArg Prod.fst did
  refine ⟨(worked.joined_nodup sound).sublist (part.map _), output_length_le small run short ran,
    fun s member => ?_, Nat.add_le_add_left worked.promising _, fun a tracked b lost =>
    removeDuplicateStracks_apart tracked lost⟩
  have inside := part.subset member
  have confirmed := (worked.tracks sound short).confirmed s inside (active s member)
  exact ⟨(worked.current inside).1, (worked.current inside).2, confirmed⟩

/-- The second frame with the same box. -/
theorem tracker_output_second :
    let solve : KalmanFilter.Solver ℚ := fun A B => A⁻¹ * B
    let objects : List (Detected ℚ) := [⟨0, 0, 10, 20, 0, 9 / 10⟩]
    ∃ t u output, Run solve 100 (start 30 0) t ∧ t.trackedStracks.length = 1 ∧
      t.update solve objects = some (u, output) ∧
      (output.map trackId).Nodup ∧ output.length ≤ objects.length ∧
      (∀ s ∈ output, s.state = .tracked ∧ s.frameId = t.frameId + 1 ∧
        (s.startFrame = 1 ∨ s.startFrame < t.frameId + 1)) ∧
      u.count ≤ t.count + (objects.filter fun o => highThresh ≤ o.prob).length ∧
      ∀ a ∈ u.trackedStracks, ∀ b ∈ u.lostStracks, duplicateThresh ≤ 1 - iou a.tlbr b.tlbr := by
  intro solve objects
  have frame : ((start 30 0).update solve objects).map (fun r => r.1.trackedStracks.length) =
      some 1 := by
    decide +kernel
  obtain ⟨⟨t, _⟩, first, one⟩ := Option.map_eq_some_iff.mp frame
  have run : Run solve 100 (start 30 0) t := .frame .refl (by decide) first
  obtain ⟨sound, same⟩ := run.sound (start_sound 30 0) (by decide)
  obtain ⟨u, output, second⟩ := sound.seen solve (same ▸ by decide) ⟨0, 0, 10, 20, 0, 9 / 10⟩
  exact ⟨t, u, output, run, one, second, tracker_output (by decide) run (by decide) second⟩

end Steps

end PtzAgx.Algs.ByteTracker
