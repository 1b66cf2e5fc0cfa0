import PtzAgx.Algs.ByteTracker

/-! # The tracks of one frame

Each track is handled once: it follows a detection, is lost or is removed. Its copy
in the lists is the track as it stays at its place.
-/

namespace PtzAgx.Algs

variable {K : Type}

/-! ## What a step keeps of a track -/

namespace STrack

/-- `t` is the track `s`, in a state, with other estimates. -/
structure Kept (state : TrackState) (s t : STrack K) : Prop where
  trackId : t.trackId = s.trackId
  startFrame : t.startFrame = s.startFrame
  frameId : t.frameId = s.frameId
  isActivated : t.isActivated = s.isActivated
  state : t.state = state

/-- `t` is the track `s` after a detection in this frame. -/
structure Renewed (frameId : Nat) (s t : STrack K) : Prop where
  trackId : t.trackId = s.trackId
  startFrame : t.startFrame = s.startFrame
  frameId : t.frameId = frameId
  isActivated : t.isActivated = true
  state : t.state = .tracked

section Operations

variable [Field K] {state : TrackState} {s t d : STrack K} {solve : KalmanFilter.Solver K}
  {frameId : Nat}

theorem static_eq (t : STrack K) : ∃ tlwh tlbr, t.static = { t with tlwh, tlbr } := by
  unfold static staticTlwh
  split <;> exact ⟨_, _, rfl⟩

theorem update_renewed (kept : Kept state s t) : Renewed frameId s (t.update solve d frameId) := by
  unfold update
  dsimp only
  obtain ⟨_, _, same⟩ :=
    static_eq { t with frameId, trackletLen := t.trackletLen + 1, kalData := _ }
  rw [same]
  exact ⟨kept.trackId, kept.startFrame, rfl, rfl, rfl⟩

theorem reActivate_renewed (kept : Kept state s t) :
    Renewed frameId s (t.reActivate solve d frameId) := by
  unfold reActivate
  dsimp only
  obtain ⟨_, _, same⟩ := static_eq { t with kalData := _ }
  rw [same]
  exact ⟨kept.trackId, kept.startFrame, rfl, rfl, rfl⟩

theorem multiPredict_kept (kept : Kept state s t) : Kept state s t.multiPredict := by
  unfold multiPredict
  dsimp only
  obtain ⟨_, _, same⟩ := static_eq { t with kalData := _ }
  rw [same]
  exact ⟨kept.trackId, kept.startFrame, kept.frameId, kept.isActivated, kept.state⟩

theorem activate_eq (t : STrack K) (nextId frameId : Nat) :
    (t.activate nextId frameId).trackId = nextId ∧
      (t.activate nextId frameId).startFrame = frameId ∧
      (t.activate nextId frameId).frameId = frameId ∧
      (t.activate nextId frameId).state = .tracked := by
  refine ⟨?_, rfl, rfl, rfl⟩
  unfold activate
  obtain ⟨_, _, same⟩ := static_eq { t with trackId := nextId, kalData := _ }
  rw [same]

end Operations

end STrack

namespace ByteTracker

open STrack

variable {ι : Type} {before : ι → STrack K} {frameId : Nat} {f f' : Frame ι K} {p : ι}
  {t : STrack K}

/-! ## What has become of a track -/

/-- Nothing has been done to a track but to predict where it is. -/
def Waiting (before : ι → STrack K) (f : Frame ι K) (p : ι) : Prop :=
  Kept (before p).state (before p) (f.tracks p)

inductive Handled (before : ι → STrack K) (frameId : Nat) (f : Frame ι K) (p : ι) : Prop
  | followed : Renewed frameId (before p) (f.tracks p) → f.tracks p ∈ f.activated ++ f.refind →
      Handled before frameId f p
  | lost : (before p).state = .tracked → Kept .lost (before p) (f.tracks p) → f.tracks p ∈ f.lost →
      Handled before frameId f p
  | removed : (before p).state = .tracked → Kept .removed (before p) (f.tracks p) →
      Handled before frameId f p

/-- A track that can be lost. -/
def Losable (s : STrack K) : Prop := s.state = .tracked ∧ s.isActivated = true

structure Frame.Sound (before : ι → STrack K) (frameId : Nat) (f : Frame ι K) : Prop where
  fates : ∀ p, Waiting before f p ∨ Handled before frameId f p
  followed : ∀ t ∈ f.activated ++ f.refind, ∃ p, f.tracks p = t ∧ Renewed frameId (before p) t
  lost : ∀ t ∈ f.lost, ∃ p, f.tracks p = t ∧ Losable (before p) ∧ Kept .lost (before p) t

/-- Only the tracks at some places are changed. -/
structure Frame.Steps (places : List ι) (f f' : Frame ι K) : Prop where
  others : ∀ p, p ∉ places → f'.tracks p = f.tracks p
  followed : f.activated ++ f.refind ⊆ f'.activated ++ f'.refind
  lost : f.lost ⊆ f'.lost

namespace Frame

theorem Steps.refl : Steps [] f f := ⟨fun _ _ => rfl, List.Subset.refl _, List.Subset.refl _⟩

theorem Steps.trans {places rest : List ι} {f'' : Frame ι K} (first : Steps places f f')
    (second : Steps rest f' f'') :
    Steps (places ++ rest) f f'' := by
  constructor
  case others =>
    intro p absent
    rw [List.mem_append, not_or] at absent
    rw [second.others p absent.2, first.others p absent.1]
  case followed => exact List.Subset.trans first.followed second.followed
  case lost => exact List.Subset.trans first.lost second.lost

theorem Steps.waiting {places : List ι} (steps : Steps places f f') (absent : p ∉ places)
    (waiting : Waiting before f p) :
    Waiting before f' p := by
  rw [Waiting, steps.others p absent]
  exact waiting

theorem Steps.handled {places : List ι} (steps : Steps places f f') (absent : p ∉ places)
    (handled : Handled before frameId f p) : Handled before frameId f' p := by
  have same := steps.others p absent
  cases handled with
  | followed renewed member => exact .followed (same ▸ renewed) (same ▸ steps.followed member)
  | lost tracked kept member => exact .lost tracked (same ▸ kept) (same ▸ steps.lost member)
  | removed tracked kept => exact .removed tracked (same ▸ kept)

/-! ## One step -/

theorem Sound.copied (sound : f.Sound before frameId) (older : ∀ p, (before p).frameId < frameId)
    (waiting : Waiting before f p) :
    (∀ t ∈ f.activated ++ f.refind, ∃ q ≠ p, f.tracks q = t ∧ Renewed frameId (before q) t) ∧
      ∀ t ∈ f.lost, ∃ q ≠ p, f.tracks q = t ∧ Losable (before q) ∧ Kept .lost (before q) t := by
  constructor
  · intro t member
    obtain ⟨q, rfl, renewed⟩ := sound.followed t member
    refine ⟨q, ?_, rfl, renewed⟩
    rintro rfl
    have now := waiting.frameId.symm.trans renewed.frameId
    exact absurd now (Nat.ne_of_lt (older q))
  · intro t member
    obtain ⟨q, rfl, losable, kept⟩ := sound.lost t member
    refine ⟨q, ?_, rfl, losable, kept⟩
    rintro rfl
    have state := waiting.state.symm.trans kept.state
    rw [losable.1] at state
    cases state

/-- From `f` to `f'` the tracks at some places are handled, and no other ones. -/
structure Pass (before : ι → STrack K) (frameId : Nat) (places : List ι) (f f' : Frame ι K) :
    Prop where
  sound : f'.Sound before frameId
  handled : ∀ p ∈ places, Handled before frameId f' p
  steps : Steps places f f'

theorem Pass.refl (sound : f.Sound before frameId) : Pass before frameId [] f f :=
  ⟨sound, fun _ member => absurd member List.not_mem_nil, .refl⟩

theorem Pass.trans {places rest : List ι} {f'' : Frame ι K}
    (first : Pass before frameId places f f')
    (second : Pass before frameId rest f' f'') (apart : ∀ p ∈ places, p ∉ rest) :
    Pass before frameId (places ++ rest) f f'' := by
  refine ⟨second.sound, fun p member => ?_, first.steps.trans second.steps⟩
  obtain early | late := List.mem_append.mp member
  · exact second.steps.handled (apart p early) (first.handled p early)
  · exact second.handled p late

theorem Pass.perm {places places' : List ι} (pass : Pass before frameId places f f')
    (perm : places.Perm places') :
    Pass before frameId places' f f' := by
  refine ⟨pass.sound, fun p member => pass.handled p (perm.mem_iff.mpr member), ?_⟩
  exact { pass.steps with
    others := fun p absent => pass.steps.others p fun member =>
      absent (perm.mem_iff.mp member) }

variable [DecidableEq ι] {activated refind lost removed : List (STrack K)}

/-- `t` is what the track becomes, and what is added to the lists is `t`. -/
theorem Sound.step (sound : f.Sound before frameId) (older : ∀ p, (before p).frameId < frameId)
    (waiting : Waiting before f p)
    (steps : Steps [p] f ⟨Function.update f.tracks p t, activated, refind, lost, removed⟩)
    (followed : ∀ s ∈ activated ++ refind, s ∈ f.activated ++ f.refind ∨
      (s = t ∧ Renewed frameId (before p) t))
    (gone : ∀ s ∈ lost, s ∈ f.lost ∨ (s = t ∧ Losable (before p) ∧ Kept .lost (before p) t))
    (handled : Handled before frameId
      ⟨Function.update f.tracks p t, activated, refind, lost, removed⟩ p) :
    Pass before frameId [p] f ⟨Function.update f.tracks p t, activated, refind, lost, removed⟩ := by
  obtain ⟨apart, aside⟩ := sound.copied older waiting
  refine ⟨?_, fun q member => List.mem_singleton.mp member ▸ handled, steps⟩
  constructor
  case fates =>
    intro q
    by_cases here : q = p
    · exact .inr (here ▸ handled)
    · have absent : q ∉ [p] := fun member => here (List.mem_singleton.mp member)
      exact (sound.fates q).imp (steps.waiting absent) (steps.handled absent)
  case followed =>
    intro s member
    obtain old | ⟨rfl, renewed⟩ := followed s member
    · obtain ⟨q, other, same, renewed⟩ := apart s old
      exact ⟨q, (Function.update_of_ne other _ _).trans same, renewed⟩
    · exact ⟨p, Function.update_self .., renewed⟩
  case lost =>
    intro s member
    obtain old | ⟨rfl, losable⟩ := gone s member
    · obtain ⟨q, other, same, losable⟩ := aside s old
      exact ⟨q, (Function.update_of_ne other _ _).trans same, losable⟩
    · exact ⟨p, Function.update_self .., losable⟩

theorem update_others (q : ι) (absent : q ∉ [p]) : Function.update f.tracks p t q = f.tracks q :=
  Function.update_of_ne (fun here => absent (List.mem_singleton.mpr here)) _ _

theorem Sound.renew (sound : f.Sound before frameId) (older : ∀ p, (before p).frameId < frameId)
    (waiting : Waiting before f p) (renewed : Renewed frameId (before p) t)
    (grown : ∀ s, s ∈ activated ++ refind ↔ s ∈ f.activated ++ f.refind ∨ s = t) :
    Pass before frameId [p] f ⟨Function.update f.tracks p t, activated, refind, f.lost,
      f.removed⟩ := by
  have own : Function.update f.tracks p t p = t := Function.update_self ..
  refine sound.step older waiting ⟨update_others, fun s member => (grown s).mpr (.inl member),
    List.Subset.refl _⟩ ?_
    (fun s => .inl) (.followed ?_ ?_)
  · exact fun s member => ((grown s).mp member).imp_right fun same => ⟨same, renewed⟩
  · change Renewed frameId (before p) (Function.update f.tracks p t p)
    rwa [own]
  · exact (grown _).mpr (.inr own)

end Frame

/-! ## The loops -/

section Loops

variable [DecidableEq ι]

theorem lose_pass (p : ι) (sound : f.Sound before frameId)
    (older : ∀ p, (before p).frameId < frameId)
    (waiting : Waiting before f p) (losable : Losable (before p)) : Frame.Pass before frameId
    [p] f (lose f p) := by
  have tracked : (f.tracks p).state ≠ .lost := by
    rw [waiting.state, losable.1]
    exact TrackState.noConfusion
  have kept : Kept .lost (before p) (f.tracks p).markLost :=
    ⟨waiting.trackId, waiting.startFrame, waiting.frameId, waiting.isActivated, rfl⟩
  have own : Function.update f.tracks p (f.tracks p).markLost p = (f.tracks p).markLost :=
    Function.update_self ..
  rw [lose, if_pos tracked]
  refine sound.step older waiting ⟨Frame.update_others, List.Subset.refl _,
    List.subset_append_left _ _⟩
    (fun s => .inl) (fun s member => ?_) (.lost losable.1 ?_ ?_)
  · obtain old | same := List.mem_append.mp member
    · exact .inl old
    · exact .inr ⟨List.mem_singleton.mp same, losable, kept⟩
  · change Kept .lost (before p) (Function.update f.tracks p _ p)
    rwa [own]
  · exact List.mem_append_right _ (List.mem_singleton.mpr own)

theorem remove_pass (p : ι) (sound : f.Sound before frameId)
    (older : ∀ p, (before p).frameId < frameId)
    (waiting : Waiting before f p) (tracked : (before p).state = .tracked) :
    Frame.Pass before frameId [p] f (remove f p) := by
  have own : Function.update f.tracks p (f.tracks p).markRemoved p = (f.tracks p).markRemoved :=
    Function.update_self ..
  refine sound.step older waiting ⟨Frame.update_others, List.Subset.refl _, List.Subset.refl _⟩
    (fun s => .inl)
    (fun s => .inl) (.removed tracked ?_)
  change Kept .removed (before p) (Function.update f.tracks p _ p)
  rw [own]
  exact ⟨waiting.trackId, waiting.startFrame, waiting.frameId, waiting.isActivated, rfl⟩

variable [Field K] (solve : KalmanFilter.Solver K)

theorem follow_pass (b : ι × STrack K) (sound : f.Sound before frameId)
    (older : ∀ p, (before p).frameId < frameId)
    (waiting : Waiting before f b.1) :
    Frame.Pass before frameId [b.1] f (follow solve frameId f b) := by
  unfold follow
  split
  · refine sound.renew older waiting (update_renewed waiting) fun s => ?_
    simp only [List.mem_append, List.mem_singleton]
    exact or_right_comm
  · refine sound.renew older waiting (reActivate_renewed waiting) fun s => ?_
    simp only [List.mem_append, List.mem_singleton, or_assoc]

theorem confirm_pass (b : ι × STrack K) (sound : f.Sound before frameId)
    (older : ∀ p, (before p).frameId < frameId)
    (waiting : Waiting before f b.1) :
    Frame.Pass before frameId [b.1] f (confirm solve frameId f b) := by
  refine sound.renew older waiting (update_renewed waiting) fun s => ?_
  simp only [List.mem_append, List.mem_singleton]
  exact or_right_comm

end Loops

theorem foldl_pass {β : Type} {step : Frame ι K → β → Frame ι K} (place : β → ι) {P : β → Prop}
    (one : ∀ {f} b, f.Sound before frameId → Waiting before f (place b) → P b →
      Frame.Pass before frameId [place b] f (step f b))
    (items : List β) (nodup : (items.map place).Nodup) (sound : f.Sound before frameId)
    (waiting : ∀ b ∈ items, Waiting before f (place b)) (fits : ∀ b ∈ items, P b) :
    Frame.Pass before frameId (items.map place) f (items.foldl step f) := by
  induction items generalizing f with
  | nil => exact .refl sound
  | cons b items ih =>
      obtain ⟨absent, later⟩ := List.nodup_cons.mp nodup
      have first := one b sound (waiting b List.mem_cons_self) (fits b List.mem_cons_self)
      have others (c : β) (member : c ∈ items) : place c ∉ [place b] := by
        intro same
        exact absent (List.mem_singleton.mp same ▸ List.mem_map_of_mem member)
      refine first.trans (ih later first.sound (fun c member => ?_) fun c member => ?_) ?_
      · exact first.steps.waiting (others c member) (waiting c (List.mem_cons_of_mem b member))
      · exact fits c (List.mem_cons_of_mem b member)
      · exact fun p same => List.mem_singleton.mp same ▸ absent

/-- The two loops over an association: the matched tracks, and the others. -/
theorem association_pass {pool : List ι} {a : Association ι K}
    {matched : Frame ι K → ι × STrack K → Frame ι K}
    {unmatched : Frame ι K → ι → Frame ι K} {P : ι → Prop}
    (one : ∀ {f} b, f.Sound before frameId → Waiting before f b.1 → True →
      Frame.Pass before frameId [b.1] f (matched f b))
    (other : ∀ {f} p, f.Sound before frameId → Waiting before f p → P p →
      Frame.Pass before frameId [p] f (unmatched f p))
    (perm : (a.matched.map Prod.fst ++ a.unmatchedTracks).Perm pool) (nodup : pool.Nodup)
    (sound : f.Sound before frameId)
    (waiting : ∀ p ∈ pool, Waiting before f p) (fits : ∀ p ∈ pool, P p) :
    Frame.Pass before frameId pool f
      (a.unmatchedTracks.foldl unmatched (a.matched.foldl matched f)) := by
  obtain ⟨first, second, apart⟩ := List.nodup_append.mp (perm.nodup_iff.mpr nodup)
  have early (p : ι) (member : p ∈ a.matched.map Prod.fst) :=
    perm.subset (List.mem_append_left _ member)
  have late (p : ι) (member : p ∈ a.unmatchedTracks) := perm.subset (List.mem_append_right _ member)
  have loop := foldl_pass Prod.fst one a.matched first sound
    (fun b member => waiting b.1 (early b.1 (List.mem_map_of_mem member))) fun _ _ => trivial
  have rest := foldl_pass id other a.unmatchedTracks (by rwa [List.map_id]) loop.sound
    (fun p member => loop.steps.waiting (fun before => apart p before p member rfl)
      (waiting p (late p member)))
    fun p member => fits p (late p member)
  rw [List.map_id] at rest
  exact (loop.trans rest fun p before after => apart p before p after rfl).perm perm

/-! ## The copies -/

/-- How many tracks have followed a detection. -/
def Frame.copies (f : Frame ι K) : Nat := f.activated.length + f.refind.length

theorem foldl_copies {β : Type} {step : Frame ι K → β → Frame ι K} {k : Nat}
    (one : ∀ f b, (step f b).copies = f.copies + k) (items : List β) (f : Frame ι K) :
    (items.foldl step f).copies = f.copies + items.length * k := by
  induction items generalizing f with
  | nil => simp
  | cons b items ih =>
      rw [List.foldl_cons, ih, one, List.length_cons]
      ring

section Copies

variable [DecidableEq ι]

theorem lose_copies (f : Frame ι K) (p : ι) : (lose f p).copies = f.copies + 0 := by
  unfold lose
  split <;> rfl

theorem remove_copies (f : Frame ι K) (p : ι) : (remove f p).copies = f.copies + 0 := rfl

variable [Field K] {solve : KalmanFilter.Solver K}

theorem follow_copies (f : Frame ι K) (b : ι × STrack K) :
    (follow solve frameId f b).copies = f.copies + 1 := by
  unfold follow Frame.copies
  split
  · simp only [List.length_append, List.length_singleton]
    omega
  · simp only [List.length_append, List.length_singleton]
    omega

theorem confirm_copies (f : Frame ι K) (b : ι × STrack K) :
    (confirm solve frameId f b).copies = f.copies + 1 := by
  unfold confirm Frame.copies
  simp only [List.length_append, List.length_singleton]
  omega

end Copies

/-! ## The associations -/

section Associations

variable [Field K] {solve : KalmanFilter.Solver K} {tracks : ι → STrack K}

section Predicted

variable [DecidableEq ι]

theorem predicted_kept (pool : List ι) (kept : ∀ p, Kept (before p).state (before p) (tracks p))
    (p : ι) :
    Kept (before p).state (before p)
      (pool.foldl (fun tracks p => Function.update tracks p (tracks p).multiPredict) tracks p) := by
  induction pool generalizing tracks with
  | nil => exact kept p
  | cons q pool ih =>
      refine ih fun r => ?_
      dsimp only
      by_cases here : r = q
      · subst here
        rw [Function.update_self]
        exact multiPredict_kept (kept r)
      · rw [Function.update_of_ne here]
        exact kept r

end Predicted

variable [LinearOrder K] [IsStrictOrderedRing K]
variable {pool unconfirmed : List ι} {detections detectionsLow : List (STrack K)} {thresh : K}

theorem associate_perm (tracks : ι → STrack K) (pool : List ι) (detections : List (STrack K))
    (positive : 0 ≤ thresh)
    (below : thresh ≤ large) (small : pool.length + detections.length < 2 ^ 16) :
    ∃ a, associate tracks pool detections thresh = some a ∧
      (a.matched.map Prod.fst ++ a.unmatchedTracks).Perm pool ∧
      (a.matched.map Prod.snd ++ a.unmatchedDetections).Perm detections := by
  obtain ⟨m, ran, -⟩ :=
    linearAssignment_best (iouDistance_range (fun i => (tracks (pool.get i)).tlbr)
    fun j => (detections.get j).tlbr) positive below small
  refine ⟨_, by rw [associate, ran]; rfl, ?_, ?_⟩
  · have rows := (Matches.rows_perm m).map pool.get
    rw [List.map_append, List.map_map, List.map_get_finRange] at rows
    rwa [List.map_map]
  · have columns := (Matches.columns_perm m).map detections.get
    rw [List.map_append, List.map_map, List.map_get_finRange] at columns
    rwa [List.map_map]

variable [DecidableEq ι]

theorem thresholds_moderate :
    (0 : K) ≤ matchThresh ∧ (matchThresh : K) ≤ large ∧ (0 : K) ≤ lowThresh ∧
    (lowThresh : K) ≤ large ∧ (0 : K) ≤ unconfirmedThresh ∧ (unconfirmedThresh : K) ≤ large := by
  norm_num [matchThresh, lowThresh, unconfirmedThresh, large]

omit [LinearOrder K] [IsStrictOrderedRing K] in
theorem first_pass (solve : KalmanFilter.Solver K) {f : Frame ι K} {a : Association ι K}
    (older : ∀ p, (before p).frameId < frameId)
    (perm : (a.matched.map Prod.fst ++ a.unmatchedTracks).Perm pool) (nodup : pool.Nodup)
    (sound : f.Sound before frameId) (waiting : ∀ p, Waiting before f p)
    (confirmed : ∀ p ∈ pool, (before p).state = .tracked → (before p).isActivated = true) :
    let f₁ := a.matched.foldl (follow solve frameId) f
    let rTracked := a.unmatchedTracks.filter fun p => (f₁.tracks p).state = .tracked
    Frame.Pass before frameId (a.matched.map Prod.fst) f f₁ ∧ rTracked.Nodup ∧
    rTracked.length ≤ pool.length ∧
      (∀ p ∈ rTracked, p ∈ pool ∧ p ∉ a.matched.map Prod.fst ∧ Waiting before f₁ p ∧
        Losable (before p)) ∧
      ∀ p ∈ pool, (before p).state = .tracked → p ∈ a.matched.map Prod.fst ++ rTracked := by
  intro f₁ rTracked
  obtain ⟨matched, unmatched, apart⟩ := List.nodup_append.mp (perm.nodup_iff.mpr nodup)
  have pass :=
    foldl_pass Prod.fst (fun b sound waiting _ => follow_pass solve b sound older waiting) a.matched
    matched sound (fun b _ => waiting b.1) fun _ _ => trivial
  have waits (p : ι) (member : p ∈ a.unmatchedTracks) : Waiting before f₁ p :=
    pass.steps.waiting (fun early => apart p early p member rfl) (waiting p)
  refine ⟨pass, unmatched.filter _, ?_, fun p member => ?_, fun p member was => ?_⟩
  · refine (List.length_filter_le _ _).trans ?_
    rw [← perm.length_eq, List.length_append]
    exact Nat.le_add_left _ _
  · obtain ⟨left, state⟩ := List.mem_filter.mp member
    have inside := perm.subset (List.mem_append_right _ left)
    have was := (waits p left).state.symm.trans (of_decide_eq_true state)
    exact ⟨inside, fun early => apart p early p left rfl, waits p left, was, confirmed p inside was⟩
  · obtain early | left := List.mem_append.mp (perm.symm.subset member)
    · exact List.mem_append_left _ early
    · have waits := (waits p left).state.trans was
      exact List.mem_append_right _ (List.mem_filter.mpr ⟨left, decide_eq_true waits⟩)

omit [LinearOrder K] [IsStrictOrderedRing K] in
/-- Every match is followed once. -/
theorem associations_copies (solve : KalmanFilter.Solver K) (tracks : ι → STrack K)
    (first second third : Association ι K) :
    let f₁ := first.matched.foldl (follow solve frameId) ⟨tracks, [], [], [], []⟩
    let f₂ := second.unmatchedTracks.foldl lose (second.matched.foldl (follow solve frameId) f₁)
    (third.unmatchedTracks.foldl remove (third.matched.foldl (confirm solve frameId) f₂)).copies =
      first.matched.length + second.matched.length + third.matched.length := by
  simp only
  rw [foldl_copies remove_copies, foldl_copies confirm_copies, foldl_copies lose_copies,
    foldl_copies follow_copies, foldl_copies follow_copies]
  simp [Frame.copies]

/-- All tracks that were tracked are handled, and no detection is used twice. -/
theorem associations_sound (solve : KalmanFilter.Solver K)
    (older : ∀ p, (before p).frameId < frameId)
    (distinct : (pool ++ unconfirmed).Nodup)
    (confirmed : ∀ p ∈ pool, (before p).state = .tracked → (before p).isActivated = true)
    (tracked : ∀ p ∈ unconfirmed, (before p).state = .tracked)
    (small :
      pool.length + unconfirmed.length + (detections.length + detectionsLow.length) < 2 ^ 16) :
    ∃ f left, associations solve frameId before pool unconfirmed detections detectionsLow =
      some (f, left) ∧
      f.Sound before frameId ∧ (∀ p ∈ pool, (before p).state = .tracked →
        Handled before frameId f p) ∧
      (∀ p ∈ unconfirmed, Handled before frameId f p) ∧
      f.copies + left.length ≤ detections.length + detectionsLow.length ∧
      left.Subperm detections := by
  obtain ⟨match_pos, match_le, low_pos, low_le, unconfirmed_pos, unconfirmed_le⟩ :=
    thresholds_moderate (K := K)
  obtain ⟨poolNodup, unconfirmedNodup, apart⟩ := List.nodup_append.mp distinct
  -- Everything waits.
  set predicted :=
    pool.foldl (fun tracks p => Function.update tracks p (tracks p).multiPredict) before
  have start_waiting (p : ι) : Waiting before ⟨predicted, [], [], [], []⟩ p :=
    predicted_kept pool (fun _ => ⟨rfl, rfl, rfl, rfl, rfl⟩) p
  have start_sound : Frame.Sound before frameId ⟨predicted, [], [], [], []⟩ :=
    ⟨fun p => .inl (start_waiting p), fun _ member => absurd member List.not_mem_nil,
      fun _ member => absurd member List.not_mem_nil⟩
  -- What the first association leaves of the tracks that were tracked can be lost.
  obtain ⟨first, ran₁, tracks₁, found₁⟩ :=
    associate_perm predicted pool detections match_pos match_le (by omega)
  obtain ⟨pass₁, left_nodup, left_short, left₁, all₁⟩ :=
    first_pass solve older tracks₁ poolNodup start_sound start_waiting confirmed
  set f₁ := first.matched.foldl (follow solve frameId) ⟨predicted, [], [], [], []⟩
  set rTracked := first.unmatchedTracks.filter fun p => (f₁.tracks p).state = .tracked
  obtain ⟨second, ran₂, tracks₂, found₂⟩ :=
    associate_perm f₁.tracks rTracked detectionsLow low_pos low_le (by omega)
  have pass₂ := association_pass (fun b sound waiting _ => follow_pass solve b sound older waiting)
    (fun p sound waiting losable => lose_pass p sound older waiting losable) tracks₂ left_nodup
    pass₁.sound
    (fun p member => (left₁ p member).2.2.1) fun p member => (left₁ p member).2.2.2
  set f₂ := second.unmatchedTracks.foldl lose (second.matched.foldl (follow solve frameId) f₁)
  have pool_pass := pass₁.trans pass₂ fun p early late => (left₁ p late).2.1 early
  have inside_pool (p : ι) (member : p ∈ first.matched.map Prod.fst ++ rTracked) : p ∈ pool := by
    obtain early | late := List.mem_append.mp member
    · exact tracks₁.subset (List.mem_append_left _ early)
    · exact (left₁ p late).1
  -- The unconfirmed tracks.
  have high := found₁.length_eq
  rw [List.length_append, List.length_map] at high
  obtain ⟨third, ran₃, tracks₃, found₃⟩ :=
    associate_perm f₂.tracks unconfirmed first.unmatchedDetections unconfirmed_pos unconfirmed_le
      (by omega)
  have pass₃ := association_pass (fun b sound waiting _ => confirm_pass solve b sound older waiting)
    (fun p sound waiting was => remove_pass p sound older waiting was) tracks₃ unconfirmedNodup
    pass₂.sound
    (fun p member => pool_pass.steps.waiting
      (fun early => apart p (inside_pool p early) p member rfl) (start_waiting p))
    tracked
  have all := pool_pass.trans pass₃ fun p early late => apart p (inside_pool p early) p late rfl
  refine ⟨third.unmatchedTracks.foldl remove (third.matched.foldl (confirm solve frameId) f₂),
    third.unmatchedDetections, ?_, all.sound, fun p member was => ?_, fun p member => ?_, ?_, ?_⟩
  · exact Option.bind_eq_some_iff.mpr ⟨first, ran₁, Option.bind_eq_some_iff.mpr ⟨second, ran₂,
      Option.bind_eq_some_iff.mpr ⟨third, ran₃, rfl⟩⟩⟩
  · exact all.handled p (List.mem_append_left _ (all₁ p member was))
  · exact all.handled p (List.mem_append_right _ member)
  · have copied :
      (third.unmatchedTracks.foldl remove (third.matched.foldl (confirm solve frameId) f₂)).copies =
        first.matched.length + second.matched.length + third.matched.length :=
      associations_copies solve predicted first second third
    have low := found₂.length_eq
    have rest := found₃.length_eq
    rw [List.length_append, List.length_map] at low rest
    omega
  · have late := (List.sublist_append_right _ _).subperm.trans found₃.subperm
    exact late.trans ((List.sublist_append_right _ _).subperm.trans found₁.subperm)

end Associations

end ByteTracker

end PtzAgx.Algs
