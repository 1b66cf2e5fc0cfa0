import PtzAgx.Algs.Items
import PtzAgx.Lib.Steps

/-! # The thread that guides

`fusion_ai_alg_thread` of `alg_app.cpp`: as long as the application is not released it
takes a picture, takes a target from the store, calls `ai_alg_run7` with both and
gives the target back. The task's thread puts messages into the store meanwhile, at
any point. What touches a block that is not allocated, or reads outside one, has no
result; that includes what the guides read.
-/

namespace PtzAgx.Algs

open Alink App Bytes

/-- The next call of the thread. -/
inductive FusionPc where
  | capture
  | getTarget
  | run (targetNode : Option Nat)
  | destory (targetNode : Option Nat)
  | ended
  deriving Repr, DecidableEq

/-- `alg_t`, the globals of `ai_alg_run7`, the arguments it has been called with and
    what it has done. -/
structure FusionWorld where
  algT : AlgAppRes
  release : Bool
  pc : FusionPc
  alg : AlgState
  frames : List AlgFrame
  acts : List AlgAct

/-- The thread's next call, with whether there is a picture and what the device's
    status is, or a message from the task's thread, or `alg_uninit`. -/
inductive FusionEvent where
  | thread (picture : Bool) (workMode targetNum : UInt32)
  | handle (nodeAt packAt : Option Nat) (pack : List UInt8)
  | release
  deriving Repr, DecidableEq

/-- `alg_init` -/
def FusionWorld.init : FusionWorld :=
  { algT := AlgAppRes.zero
    release := false
    pc := .capture
    alg := AlgState.init
    frames := []
    acts := [] }

/-- `target_node->target.target_pack`, and what lies there. -/
def targetPackOf (algT : AlgAppRes) : Option Nat → Option (Option TrackInfoPackages)
  | none => some none
  | some targetNode =>
      match algT.nodes targetNode with
      | none => none
      | some node =>
          match node.targetPack with
          | none => some none
          | some targetPack => (algT.packs targetPack).bind fun bytes =>
              if sizeofInt ≤ bytes.length then some (some (TrackInfoPackages.ofBlock bytes))
              else none

namespace FusionWorld

def thread (w : FusionWorld) (picture : Bool) (workMode targetNum : UInt32) :
    Option FusionWorld :=
  match w.pc with
  | .capture =>
      some { w with pc := if w.release then .ended else if picture then .getTarget else .capture }
  | .getTarget =>
      (getAndRmOneTarget w.algT).map fun (targetNode, algT) =>
        { w with algT, pc := .run targetNode }
  | .run targetNode =>
      (targetPackOf w.algT targetNode).bind fun targets =>
        let frame := ⟨workMode, targetNum, targets⟩
        let call := aiAlgRun7 w.alg frame
        if call.acts.all AlgAct.readable then
          some
            { w with
              pc := .destory targetNode
              alg := call.state
              frames := w.frames ++ [frame]
              acts := w.acts ++ call.acts }
        else none
  | .destory targetNode =>
      (targetNodeDestory targetNode w.algT).map fun algT => { w with algT, pc := .capture }
  | .ended => some w

/-- `fuel` is for the walk along the list. -/
def step (fuel : Nat) (w : FusionWorld) : FusionEvent → Option FusionWorld
  | .thread picture workMode targetNum => w.thread picture workMode targetNum
  | .handle nodeAt packAt pack =>
      if 0 < pack.length ∧ pack.length < sizeofInt then none
      else
        (algsHandleMultipleTargets fuel nodeAt packAt (Ptr.ofList pack) pack.length w.algT).map
          fun (_, algT) => { w with algT }
  | .release => some { w with release := true }

end FusionWorld

/-! ## What the thread has in its hands -/

def FusionPc.targetNode : FusionPc → Option Nat
  | .run targetNode | .destory targetNode => targetNode
  | _ => none

/-- A target that has been taken and not been used yet. -/
def FusionPc.unread (pc : FusionPc) (target : Option Target) : List TargetPack :=
  match pc with
  | .run _ => (target.map Target.pack).toList
  | _ => []

/-- A message as `algs_handle_multiple_targets` hands it on. -/
def packOf (pack : List UInt8) : TargetPack := (targetOf (Ptr.ofList pack) pack.length).content

def packagesOf (p : TargetPack) : TrackInfoPackages := TrackInfoPackages.ofBlock p.bytes

def isFromUser (p : TargetPack) : Bool := p.dataDevType == trackInfoFromUser

/-- The type is that of the bytes, and is there. -/
def Typed (p : TargetPack) : Prop :=
  sizeofInt ≤ p.bytes.length ∧ p.dataDevType = (packagesOf p).trackPackType

/-- The message has its type, and the items it counts with the ends of their names. -/
def Whole (pack : List UInt8) : Prop :=
  sizeofInt ≤ pack.length ∧ (TrackInfoPackages.ofBlock pack).Readable

/-- There is memory for a message, and a place in the list. -/
def FusionWorld.HasRoom (w : FusionWorld) (nodeAt packAt : Option Nat) : Prop :=
  (∃ a, nodeAt = some a ∧ w.algT.nodes a = none) ∧
    (∃ a, packAt = some a ∧ w.algT.packs a = none) ∧ w.algT.targetsNum < 4

/-- There is room for a message that is handed over. -/
def Roomy (w : FusionWorld) (event : FusionEvent) (_ : FusionWorld) : Prop :=
  ∀ nodeAt packAt pack, event = .handle nodeAt packAt pack → w.HasRoom nodeAt packAt

/-- What was sent, what was used for guidance and what is in between. If there was
    always room, that is all of it. -/
structure Fused (roomy : Prop) (w : FusionWorld) (sent given : List TargetPack)
    (m : TargetMailbox) (target : Option Target) : Prop where
  stored : Stored w.algT m target.toList
  here : w.pc.targetNode = target.map Target.node
  passes : m.Passes isFromUser sent (given ++ w.pc.unread target)
  lossless : roomy → m.Lossless isFromUser sent (given ++ w.pc.unread target)
  typed : ∀ p ∈ sent, Typed p ∧ (packagesOf p).Readable
  used : w.frames.filterMap AlgFrame.targets = given.map packagesOf
  state : w.alg = stateAfter AlgState.init w.frames
  acts : w.acts = (aiAlgRuns AlgState.init w.frames).flatMap AlgStep.acts
  going : w.release = false → w.pc ≠ .ended

/-! ## How far the thread is -/

/-- The calls of this round, the picture being the first of them, and `ai_alg_run7` the last. -/
def FusionPc.place : FusionPc → Nat
  | .destory _ => 0
  | .capture => 1
  | .getTarget => 2
  | .run _ => 3
  | .ended => 0

/-- The calls before `ai_alg_run7` has been called with all that waits in the store and is in
    the thread's hands. -/
def FusionPc.remaining (pc : FusionPc) (m : TargetMailbox) : Nat :=
  let waiting := m.queue.length + m.urgent.toList.length
  match pc with
  | .run none => if waiting = 0 then 0 else 4 * waiting + 1
  | .run (some _) => 4 * waiting + 1
  | .destory _ => 4 * waiting
  | .capture => 4 * waiting - 1
  | .getTarget => 4 * waiting - 2
  | .ended => 0

/-- The calls before the thread ends once it is told to. -/
def FusionPc.untilEnd : FusionPc → Nat
  | .ended => 0
  | .capture => 1
  | .destory _ => 2
  | .run _ => 3
  | .getTarget => 4

/-- A call of the thread, and one for which there is a picture if it is that for which it
    needs one. -/
def FusionEvent.isCall : FusionEvent → Bool
  | .thread .. => true
  | _ => false

def FusionEvent.hasPicture : FusionEvent → Bool
  | .thread picture _ _ => picture
  | _ => false

theorem FusionPc.place_le (pc : FusionPc) : pc.place ≤ 3 := by cases pc <;> simp [place]

theorem FusionPc.untilEnd_le (pc : FusionPc) : pc.untilEnd ≤ 4 := by cases pc <;> simp [untilEnd]

/-- How far these events get the thread: `w` and `m` were before them, `w'` and `m'` are after
    them. -/
structure GetsOn (events : List FusionEvent) (w w' : FusionWorld) (m m' : TargetMailbox) :
    Prop where
  release : w'.release = true ↔ w.release = true ∨ .release ∈ events
  round : w'.release = false →
    4 * w.frames.length + w.pc.place + events.countP FusionEvent.hasPicture ≤
      4 * w'.frames.length + w'.pc.place
  emptier : w'.release = false → (∀ event ∈ events, event.hasPicture = true) →
    w'.pc.remaining m' ≤ w.pc.remaining m - events.length
  ending : w.release = true →
    w'.pc.untilEnd ≤ w.pc.untilEnd - events.countP FusionEvent.isCall

namespace GetsOn

variable {w w' w'' : FusionWorld} {m m' m'' : TargetMailbox} {events later : List FusionEvent}

theorem nil (w : FusionWorld) (m : TargetMailbox) : GetsOn [] w w m m where
  release := by simp
  round _ := le_refl _
  emptier _ _ := le_refl _
  ending _ := le_refl _

theorem append (first : GetsOn events w w' m m') (second : GetsOn later w' w'' m' m'') :
    GetsOn (events ++ later) w w'' m m'' where
  release := by rw [second.release, first.release, List.mem_append, or_assoc]
  round going := by
    have before : w'.release = false := by
      by_contra ending
      exact absurd (second.release.mpr (.inl (by simpa using ending))) (by simp [going])
    have near := first.round before
    have far := second.round going
    rw [List.countP_append]
    omega
  emptier going pictures := by
    have before : w'.release = false := by
      by_contra ending
      exact absurd (second.release.mpr (.inl (by simpa using ending))) (by simp [going])
    have near := first.emptier before fun event member => pictures event (by simp [member])
    have far := second.emptier going fun event member => pictures event (by simp [member])
    rw [List.length_append]
    omega
  ending ending := by
    have near := first.ending ending
    have far := second.ending (first.release.mpr (.inl ending))
    rw [List.countP_append]
    omega

theorem call {picture : Bool} (workMode targetNum : UInt32) (release : w'.release = w.release)
    (round : w.release = false →
      4 * w.frames.length + w.pc.place + picture.toNat ≤ 4 * w'.frames.length + w'.pc.place)
    (emptier : picture = true → w.release = false → w'.pc.remaining m' ≤ w.pc.remaining m - 1)
    (ending : w.release = true → w'.pc.untilEnd ≤ w.pc.untilEnd - 1) :
    GetsOn [.thread picture workMode targetNum] w w' m m' where
  release := by simp [release]
  round going := by
    have moved := round (release ▸ going)
    cases picture <;> simpa [FusionEvent.hasPicture] using moved
  emptier going pictures := emptier (pictures _ (List.mem_singleton_self _)) (release ▸ going)
  ending := ending

theorem other {event : FusionEvent} (noCall : event.isCall = false)
    (release : w'.release = true ↔ w.release = true ∨ event = .release) (pc : w'.pc = w.pc)
    (frames : w'.frames = w.frames) : GetsOn [event] w w' m m' := by
  have noPicture : event.hasPicture = false := by
    cases event with
    | thread => cases noCall
    | handle | release => rfl
  exact ⟨by rw [release, List.mem_singleton, eq_comm (a := event)],
    fun _ => by simp [noPicture, pc, frames],
    fun _ pictures => absurd (pictures event (by simp)) (by simp [noPicture]), fun _ => by
      simp [noCall, pc]⟩

end GetsOn

section Steps

variable {w w' : FusionWorld} {sent given : List TargetPack} {m : TargetMailbox}
  {target : Option Target} {fuel : Nat} {roomy : Prop} {picture : Bool}
  {workMode targetNum : UInt32}

theorem fused_init (roomy : Prop) :
    Fused roomy FusionWorld.init [] [] Mailbox.empty none where
  stored := Stored.zero
  here := rfl
  passes := Mailbox.Passes.empty _
  lossless _ := rfl
  typed := by simp
  used := rfl
  state := rfl
  acts := rfl
  going _ := FusionPc.noConfusion

theorem packOf_bytes (pack : List UInt8) : (packOf pack).bytes = pack := by
  simp [packOf, TargetPackInfo.content, targetOf]

theorem packagesOf_packOf (packs : List (List UInt8)) :
    (packs.map packOf).map packagesOf = packs.map TrackInfoPackages.ofBlock := by
  simp [packagesOf, packOf_bytes]

theorem packOf_typed {pack : List UInt8} (whole : Whole pack) :
    Typed (packOf pack) ∧ (packagesOf (packOf pack)).Readable := by
  obtain ⟨long, readable⟩ := whole
  refine ⟨⟨by rwa [packOf_bytes], ?_⟩, by rwa [packagesOf, packOf_bytes]⟩
  simp [packagesOf, packOf_bytes, TrackInfoPackages.ofBlock]
  rfl

theorem mem_acts_aiAlgRun7 {s : AlgState} {frame : AlgFrame} {act : AlgAct}
    (member : act ∈ (aiAlgRun7 s frame).acts) :
    act = .stoppingTracking ∨ act = .searchAndTracking ∨ ∃ targets ∈ frame.targets,
      act ∈ guideTo targets := by
  unfold aiAlgRun7 at member
  cases there : frame.targets with
  | none =>
      rw [there] at member
      split at member
      · exact .inl (List.mem_singleton.mp member)
      · cases member
  | some targets =>
      simp only [there, List.mem_append, List.mem_ite_nil_right, List.mem_singleton, Option.mem_def,
        Option.some.injEq, exists_eq_left'] at member ⊢
      tauto

/-- The guides read nothing but the package `ai_alg_run7` is called with. -/
theorem aiAlgRun7_readable (s : AlgState) {frame : AlgFrame}
    (readable : ∀ targets ∈ frame.targets, targets.Readable) :
    (aiAlgRun7 s frame).acts.all AlgAct.readable = true := by
  rw [List.all_eq_true]
  intro act member
  rcases mem_acts_aiAlgRun7 member with rfl | rfl | ⟨targets, given, guided⟩
  · rfl
  · rfl
  · exact readable targets given act guided

theorem Fused.handle (fused : Fused roomy w sent given m target) (nodeAt packAt : Option Nat)
    {pack : List UInt8} (whole : Whole pack) (enough : 4 ≤ fuel)
    (room : roomy → ∀ w', w.step fuel (.handle nodeAt packAt pack) = some w' →
      Roomy w (.handle nodeAt packAt pack) w') :
    ∃ w' m', w.step fuel (.handle nodeAt packAt pack) = some w' ∧
      Fused roomy w' (sent ++ [packOf pack]) given m' target ∧
      GetsOn [.handle nodeAt packAt pack] w w' m m' := by
  have typed : ∀ p ∈ sent ++ [packOf pack], Typed p ∧ (packagesOf p).Readable := by
    simpa [or_imp, forall_and]
      using ⟨⟨fun p member => (fused.typed p member).1, (packOf_typed whole).1⟩,
      fun p member => (fused.typed p member).2, (packOf_typed whole).2⟩
  have long := whole.1
  have within : ¬ (0 < pack.length ∧ pack.length < sizeofInt) := by omega
  have positive : ¬ (pack.length : Int) ≤ 0 := by
    unfold sizeofInt at long
    omega
  rcases fused.stored.insert nodeAt packAt (some (targetOf (Ptr.ofList pack) pack.length)) enough
    with
    ⟨p, algT, same, -, inserted, stored⟩ | ⟨failed, ret, -, refused⟩
  · obtain rfl := Option.some.inj same
    have stepped : w.step fuel (.handle nodeAt packAt pack) = some { w with algT } := by
      simp only [FusionWorld.step, if_neg within, algsHandleMultipleTargets, if_neg positive,
        inserted, Option.map_some]
    cases user : isFromUser (packOf pack) with
    | true =>
        have posted : m.insert (packOf pack) = m.post (packOf pack) :=
          if_pos (by simpa [isFromUser] using user)
        exact ⟨_, m.post (packOf pack), stepped,
          ⟨posted ▸ stored, fused.here, fused.passes.post user,
          fun roomy => (fused.lossless roomy).post user, typed, fused.used, fused.state, fused.acts,
          fused.going⟩, .other rfl (by simp) rfl rfl⟩
    | false =>
        have put : m.insert (packOf pack) = m.put (packOf pack) :=
          if_neg (by simpa [isFromUser] using user)
        refine ⟨_, m.put (packOf pack), stepped, ⟨put ▸ stored, fused.here, fused.passes.put user,
          fun roomy => (fused.lossless roomy).put user ?_, typed, fused.used, fused.state,
          fused.acts, fused.going⟩, .other rfl (by simp) rfl rfl⟩
        have few := (room roomy _ stepped nodeAt packAt pack rfl).2.2
        rw [fused.stored.targetsNum] at few
        omega
  · have stepped : w.step fuel (.handle nodeAt packAt pack) = some w := by
      simp only [FusionWorld.step, if_neg within, algsHandleMultipleTargets, if_neg positive,
        refused, Option.map_some]
    refine ⟨w, m, stepped, ⟨fused.stored, fused.here, fused.passes.miss _, fun roomy => ?_, typed,
      fused.used, fused.state, fused.acts, fused.going⟩, .other rfl (by simp) rfl rfl⟩
    obtain ⟨node, block, -⟩ := room roomy _ stepped nodeAt packAt pack rfl
    exact absurd ⟨by simpa [targetOf] using Int.not_le.mp positive, node, block⟩ (failed _ rfl)

/-- What the thread has in its hands is still what it took, and whole. -/
theorem Fused.targetPackOf (fused : Fused roomy w sent given m target) {targetNode : Option Nat}
    (running : w.pc = .run targetNode) :
    targetPackOf w.algT targetNode = some (target.map fun t => packagesOf t.pack) ∧
      ∀ t ∈ target, (packagesOf t.pack).Readable := by
  have here := fused.here
  simp only [running, FusionPc.targetNode] at here
  subst here
  cases target with
  | none => exact ⟨rfl, by simp⟩
  | some t =>
      obtain ⟨next, a, node, pack⟩ := fused.stored.carries (t := t) (by simp)
      have taken : t.pack ∈ given ++ w.pc.unread (some t) := by simp [running, FusionPc.unread]
      obtain ⟨⟨long, -⟩, readable⟩ := fused.typed _ (fused.passes.taken_sent taken)
      exact ⟨by simp [Algs.targetPackOf, node, pack, long, packagesOf], by simpa using readable⟩

/-! ### The thread's calls -/

theorem Fused.capture (fused : Fused roomy w sent given m target) (pc : w.pc = .capture)
    (picture : Bool) (workMode targetNum : UInt32) :
    ∃ w', w.thread picture workMode targetNum = some w' ∧ Fused roomy w' sent given m target ∧
      GetsOn [.thread picture workMode targetNum] w w' m m := by
  let next : FusionPc := if w.release then .ended else if picture then .getTarget else .capture
  have idle : next.targetNode = none ∧ ∀ target, next.unread target = [] := by
    unfold next
    split
    · exact ⟨rfl, fun _ => rfl⟩
    · split <;> exact ⟨rfl, fun _ => rfl⟩
  have here := fused.here
  have passes := fused.passes
  have lossless := fused.lossless
  simp only [pc, FusionPc.targetNode, FusionPc.unread] at here passes lossless
  refine ⟨{ w with pc := next }, by simp [FusionWorld.thread, pc, next], ⟨fused.stored, ?_, ?_, ?_,
    fused.typed, fused.used, fused.state, fused.acts, ?_⟩, .call workMode targetNum rfl ?_ ?_ ?_⟩
  · rw [idle.1, here]
  · rwa [idle.2]
  · rwa [idle.2]
  · intro (going : w.release = false)
    cases picture <;> simp [next, going]
  · intro going
    cases picture <;> simp [next, going, pc, FusionPc.place]
  · rintro rfl going
    simp only [next, going, pc, FusionPc.remaining]
    simp
    omega
  · intro ending
    simp [next, ending, FusionPc.untilEnd]

theorem get_remaining (m : TargetMailbox) {t : Option Target} (got : m.get.1 = t.map Target.pack) :
    FusionPc.remaining (.run (t.map Target.node)) m.get.2 ≤
      FusionPc.remaining .getTarget m - 1 := by
  have moved := m.get_length
  rw [got] at moved
  cases t with
  | none =>
      obtain ⟨queue, urgent⟩ := Mailbox.get_eq_none got
      have empty : m.get.2.queue.length + m.get.2.urgent.toList.length = 0 := by
        simpa [queue, urgent] using moved
      simp [FusionPc.remaining, empty]
  | some t =>
      simp only [FusionPc.remaining, Option.map_some, Option.toList_some, List.length_singleton]
        at moved ⊢
      omega

theorem Fused.getTarget (fused : Fused roomy w sent given m target) (pc : w.pc = .getTarget) :
    ∃ w' target', w.thread picture workMode targetNum = some w' ∧
      Fused roomy w' sent given m.get.2 target' ∧ GetsOn
      [.thread picture workMode targetNum] w w' m m.get.2 := by
  obtain rfl : target = none := by
    have here := fused.here
    simpa [pc, FusionPc.targetNode] using here.symm
  obtain ⟨t, algT, got, first, stored⟩ := fused.stored.get
  have passes := fused.passes.get
  have lossless roomy := (fused.lossless roomy).get fused.passes
  simp only [pc, FusionPc.unread, List.append_nil, first] at passes lossless
  refine ⟨{ w with algT, pc := .run (t.map Target.node) }, t, by simp [FusionWorld.thread, pc, got],
    ⟨by simpa using stored, rfl, passes, lossless, fused.typed, fused.used, fused.state, fused.acts,
      fun _ => FusionPc.noConfusion⟩,
    .call workMode targetNum rfl (fun _ => ?_) (fun _ _ => ?_) fun _ => ?_⟩
  · have few := Bool.toNat_le picture
    simp [pc, FusionPc.place]
    omega
  · rw [pc]
    exact get_remaining m first
  · simp [pc, FusionPc.untilEnd]

theorem Fused.runs (fused : Fused roomy w sent given m target) {targetNode : Option Nat}
    (pc : w.pc = .run targetNode) :
    ∃ w' given', w.thread picture workMode targetNum = some w' ∧
      Fused roomy w' sent given' m target ∧
      GetsOn [.thread picture workMode targetNum] w w' m m := by
  have here := fused.here
  have passes := fused.passes
  have lossless := fused.lossless
  simp only [pc, FusionPc.targetNode, FusionPc.unread] at here passes lossless
  obtain ⟨packages, whole⟩ := fused.targetPackOf pc
  let frame : AlgFrame := ⟨workMode, targetNum, target.map fun t => packagesOf t.pack⟩
  let call := aiAlgRun7 w.alg frame
  have readable : call.acts.all AlgAct.readable = true := by
    refine aiAlgRun7_readable w.alg fun targets there => ?_
    obtain ⟨t, held, rfl⟩ := Option.map_eq_some_iff.mp there
    exact whole t held
  refine ⟨{ w with
      pc := .destory targetNode
      alg := call.state
      frames := w.frames ++ [frame]
      acts := w.acts ++ call.acts },
    given ++ (target.map Target.pack).toList, ?_,
    ⟨fused.stored, here, ?_, ?_, fused.typed, ?_, ?_, ?_, fun _ => FusionPc.noConfusion⟩,
    .call workMode targetNum rfl (fun _ => ?_) (fun _ _ => ?_) fun _ => ?_⟩
  · simp only [FusionWorld.thread, pc, packages, Option.bind_some]
    exact if_pos readable
  · simpa [FusionPc.unread] using passes
  · simpa [FusionPc.unread] using lossless
  · cases target <;> simp [frame, fused.used]
  · simp only [stateAfter_concat, call, fused.state]
  · simp [aiAlgRuns_concat, call, fused.state, fused.acts]
  · have few := Bool.toNat_le picture
    simp [pc, FusionPc.place]
    omega
  · cases targetNode <;> simp only [pc, FusionPc.remaining]
    · split <;> omega
    · omega
  · simp [pc, FusionPc.untilEnd]

theorem Fused.destory (fused : Fused roomy w sent given m target) {targetNode : Option Nat}
    (pc : w.pc = .destory targetNode) :
    ∃ w', w.thread picture workMode targetNum = some w' ∧ Fused roomy w' sent given m none ∧
      GetsOn [.thread picture workMode targetNum] w w' m m := by
  have here := fused.here
  have passes := fused.passes
  have lossless := fused.lossless
  simp only [pc, FusionPc.targetNode, FusionPc.unread] at here passes lossless
  subst here
  have freed : ∃ algT, targetNodeDestory (target.map Target.node) w.algT = some algT ∧
      Stored algT m [] := by
    cases target with
    | none => exact ⟨w.algT, rfl, fused.stored⟩
    | some t => exact fused.stored.destory (i := 0) (by simp)
  obtain ⟨algT, freed, stored⟩ := freed
  refine ⟨{ w with algT, pc := .capture }, by simp [FusionWorld.thread, pc, freed],
    ⟨stored, rfl, passes, lossless, fused.typed, fused.used, fused.state, fused.acts,
      fun _ => FusionPc.noConfusion⟩,
    .call workMode targetNum rfl (fun _ => ?_) (fun _ _ => ?_) fun _ => ?_⟩
  · have few := Bool.toNat_le picture
    simp [pc, FusionPc.place]
    omega
  · simp [pc, FusionPc.remaining]
  · simp [pc, FusionPc.untilEnd]

theorem Fused.thread (fused : Fused roomy w sent given m target) (picture : Bool)
    (workMode targetNum : UInt32) :
    ∃ w' given' m' target', w.thread picture workMode targetNum = some w' ∧
      Fused roomy w' sent given' m' target' ∧ GetsOn
      [.thread picture workMode targetNum] w w' m m' := by
  cases pc : w.pc with
  | capture =>
      obtain ⟨w', called, fused', on⟩ := fused.capture pc picture workMode targetNum
      exact ⟨w', given, m, target, called, fused', on⟩
  | getTarget =>
      obtain ⟨w', target', called, fused', on⟩ := fused.getTarget pc
      exact ⟨w', given, _, target', called, fused', on⟩
  | run targetNode =>
      obtain ⟨w', given', called, fused', on⟩ := fused.runs pc
      exact ⟨w', given', m, target, called, fused', on⟩
  | destory targetNode =>
      obtain ⟨w', called, fused', on⟩ := fused.destory pc
      exact ⟨w', given, m, none, called, fused', on⟩
  | ended =>
      have released : w.release ≠ false := fun going => fused.going going pc
      exact ⟨w, given, m, target, by simp [FusionWorld.thread, pc], fused,
        .call workMode targetNum rfl (fun going => absurd going released)
          (fun _ going => absurd going released) fun _ => by simp [pc, FusionPc.untilEnd]⟩

end Steps

/-! ## Runs -/

/-- What the task's thread hands over with this event. -/
def FusionEvent.pack : FusionEvent → Option (List UInt8)
  | .handle _ _ pack => some pack
  | _ => none

def handledPacks (events : List FusionEvent) : List (List UInt8) :=
  events.filterMap FusionEvent.pack

@[simp] theorem handledPacks_append (fs more : List FusionEvent) :
    handledPacks (fs ++ more) = handledPacks fs ++ handledPacks more := by
  simp [handledPacks]

/-- The packages `ai_alg_run7` has been called with. -/
def FusionWorld.offered (w : FusionWorld) : List TrackInfoPackages :=
  w.frames.filterMap AlgFrame.targets

def TrackInfoPackages.fromUser (t : TrackInfoPackages) : Bool :=
  t.trackPackType == trackInfoFromUser

/-- The packages that are handed over, those of devices. -/
def devicePackages (packs : List (List UInt8)) : List TrackInfoPackages :=
  (packs.map TrackInfoPackages.ofBlock).filter (!·.fromUser)

def userPackages (packs : List (List UInt8)) : List TrackInfoPackages :=
  (packs.map TrackInfoPackages.ofBlock).filter TrackInfoPackages.fromUser

/-- What a run has come to. `ai_alg_run7` was called as its schedule asks, with packages that
    had been handed over. -/
structure Guided (fuel : Nat) (events : List FusionEvent) (w : FusionWorld) : Prop where
  scheduled : w.acts = (aiAlgRuns AlgState.init w.frames).flatMap AlgStep.acts
  users : (w.offered.filter TrackInfoPackages.fromUser).Sublist (userPackages (handledPacks events))
  devices : (w.offered.filter (!·.fromUser)).Sublist (devicePackages (handledPacks events))
  /-- With every fourth call it is called once. -/
  round : .release ∉ events → events.countP FusionEvent.hasPicture ≤ 4 * w.frames.length + 2
  /-- Four calls after the release there is no thread. -/
  ends : ∀ before after, events = before ++ .release :: after →
    4 ≤ after.countP FusionEvent.isCall →
    w.pc = .ended
  waiting : AllSteps (FusionWorld.step fuel) Roomy FusionWorld.init events →
    ∃ waiting, waiting.length ≤ 5 ∧
      w.offered.filter (!·.fromUser) ++ waiting = devicePackages (handledPacks events)
  /-- If nothing more arrives, what waits is used within six rounds. -/
  drained : AllSteps (FusionWorld.step fuel) Roomy FusionWorld.init events → .release ∉ events →
    ∀ more : List FusionEvent, (∀ event ∈ more, event.hasPicture = true) → 24 ≤ more.length →
      ∃ w', more.foldlM (FusionWorld.step fuel) w = some w' ∧
        w'.offered.filter (!·.fromUser) = devicePackages (handledPacks events)

section Runs

variable {w : FusionWorld} {sent given : List TargetPack} {m : TargetMailbox}
  {target : Option Target}
  {fuel : Nat} {roomy : Prop} {event : FusionEvent} {events : List FusionEvent}

theorem Fused.step (fused : Fused roomy w sent given m target)
    (whole : ∀ pack ∈ event.pack, Whole pack)
    (room : roomy → ∀ w', w.step fuel event = some w' → Roomy w event w') (enough : 4 ≤ fuel) :
    ∃ w' given' m' target', w.step fuel event = some w' ∧
      Fused roomy w' (sent ++ (event.pack.map packOf).toList) given' m' target' ∧
      GetsOn [event] w w' m m' := by
  cases event with
  | thread picture workMode targetNum =>
      obtain ⟨w', given', m', target', called, fused', on⟩ :=
        fused.thread picture workMode targetNum
      exact ⟨w', given', m', target', called, by simpa [FusionEvent.pack] using fused', on⟩
  | handle nodeAt packAt pack =>
      obtain ⟨w', m', stepped, fused', on⟩ :=
        fused.handle nodeAt packAt (whole pack rfl) enough room
      exact ⟨w', given, m', target, stepped, by simpa [FusionEvent.pack] using fused', on⟩
  | release =>
      refine ⟨{ w with release := true }, given, m, target, rfl, ?_, .other rfl (by simp) rfl rfl⟩
      simp only [FusionEvent.pack, Option.map_none, Option.toList_none, List.append_nil]
      exact ⟨fused.stored, fused.here, fused.passes, fused.lossless, fused.typed, fused.used,
        fused.state, fused.acts, Bool.noConfusion⟩

theorem Fused.run (fused : Fused roomy w sent given m target)
    (whole : ∀ pack ∈ handledPacks events, Whole pack)
    (room : roomy → AllSteps (FusionWorld.step fuel) Roomy w events) (enough : 4 ≤ fuel) :
    ∃ w' given' m' target', events.foldlM (FusionWorld.step fuel) w = some w' ∧
      Fused roomy w' (sent ++ (handledPacks events).map packOf) given' m' target' ∧
      GetsOn events w w' m m' := by
  induction events generalizing w sent given m target with
  | nil => exact ⟨w, given, m, target, rfl, by simpa [handledPacks] using fused, .nil w m⟩
  | cons event events ih =>
      have packs : handledPacks (event :: events) = event.pack.toList ++ handledPacks events := by
        cases here : event.pack <;> simp [handledPacks, here]
      rw [packs] at whole
      obtain ⟨next, given', m', target', first, fused', near⟩ := fused.step
        (fun pack here => whole pack (by simp_all))
        (fun is w' stepped => (room is w' stepped).1) enough
      obtain ⟨w', given', m', target', rest, fused'', far⟩ :=
        ih fused' (fun pack member => whole pack (by simp [member])) fun is => (room is).tail first
      refine ⟨w', given', m', target', by simp [first, rest], ?_, near.append far⟩
      rw [packs]
      cases here : event.pack <;> simpa [here] using fused''

theorem filter_packages {packs : List TargetPack} (typed : ∀ p ∈ packs, Typed p) :
    (packs.map packagesOf).filter TrackInfoPackages.fromUser =
      (packs.filter isFromUser).map packagesOf ∧
      (packs.map packagesOf).filter (!·.fromUser) =
      (packs.filter (!isFromUser ·)).map packagesOf := by
  have same : ∀ p ∈ packs, (packagesOf p).fromUser = isFromUser p := fun p member => by
    simp [TrackInfoPackages.fromUser, isFromUser, (typed p member).2]
  constructor
  · rw [List.filter_map]
    exact congrArg (List.map packagesOf) (List.filter_congr fun p member => same p member)
  · rw [List.filter_map]
    exact congrArg (List.map packagesOf) (List.filter_congr fun p member => congrArg (!·)
      (same p member))

/-- Of users as well as of devices, what is used is part of what was sent. -/
theorem Fused.offered (fused : Fused roomy w sent given m target) :
    (w.offered.filter TrackInfoPackages.fromUser).Sublist
        ((sent.map packagesOf).filter TrackInfoPackages.fromUser) ∧
      (w.offered.filter (!·.fromUser)).Sublist ((sent.map packagesOf).filter (!·.fromUser)) := by
  have passes := fused.passes
  have taken : ∀ p ∈ given, Typed p := fun p member =>
    (fused.typed p (passes.taken_sent (by simp [member]))).1
  obtain ⟨user, device⟩ := filter_packages fun p member => (fused.typed p member).1
  obtain ⟨user', device'⟩ := filter_packages taken
  rw [FusionWorld.offered, fused.used, user, device, user', device']
  constructor
  · have front :
        (given.filter isFromUser).Sublist ((given ++ w.pc.unread target).filter isFromUser) := by
      simp
    exact ((front.trans (List.sublist_append_left _ _)).trans passes.first).map packagesOf
  · have front : (given.filter (!isFromUser ·)).Sublist
        ((given ++ w.pc.unread target).filter (!isFromUser ·)) := by simp
    exact ((front.trans (List.sublist_append_left _ _)).trans passes.rest).map packagesOf

/-- Where there always was room, what is not used yet is in the thread's hands or waits. -/
theorem Fused.waiting (fused : Fused roomy w sent given m target) (is : roomy) :
    w.offered.filter (!·.fromUser) ++
        ((w.pc.unread target).filter (!isFromUser ·) ++ m.queue).map packagesOf =
      (sent.map packagesOf).filter (!·.fromUser) := by
  have taken : ∀ p ∈ given, Typed p := fun p member =>
    (fused.typed p (fused.passes.taken_sent (by simp [member]))).1
  have lossless : (given ++ w.pc.unread target).filter (!isFromUser ·) ++ m.queue =
      sent.filter (!isFromUser ·) := fused.lossless is
  rw [List.filter_append, List.append_assoc] at lossless
  rw [FusionWorld.offered, fused.used, (filter_packages taken).2,
    (filter_packages fun p member => (fused.typed p member).1).2, ← List.map_append, lossless]

theorem waiting_le (pc : FusionPc) (target : Option Target) (m : TargetMailbox) :
    ((pc.unread target).filter (!isFromUser ·) ++ m.queue).length ≤ 5 := by
  have one : (pc.unread target).length ≤ 1 := by
    unfold FusionPc.unread
    split
    · cases target <;> simp
    · simp
  have part := List.length_filter_le (!isFromUser ·) (pc.unread target)
  have bounded := m.bounded
  rw [List.length_append]
  omega

/-! ### Nothing stays behind -/

theorem remaining_le (pc : FusionPc) (m : TargetMailbox) : pc.remaining m ≤ 21 := by
  have queue := m.bounded
  have urgent := m.urgent.length_toList_le
  cases pc with
  | run targetNode =>
      cases targetNode <;> simp only [FusionPc.remaining]
      · split <;> omega
      · omega
  | capture | getTarget | destory | ended =>
      simp only [FusionPc.remaining]
      omega

theorem Fused.nothing (fused : Fused roomy w sent given m target) (going : w.release = false)
    (none : w.pc.remaining m = 0) : w.pc.unread target = [] ∧ m.queue = [] := by
  have here := fused.here
  have empty : m.queue.length + m.urgent.toList.length = 0 → m.queue = [] := fun no =>
    List.length_eq_zero_iff.mp (by omega)
  cases pc : w.pc with
  | ended => exact absurd pc (fused.going going)
  | run targetNode =>
      rw [pc] at none here
      cases targetNode with
      | some => simp [FusionPc.remaining] at none
      | none =>
          obtain rfl : target = .none := Option.map_eq_none_iff.mp here.symm
          simp only [FusionPc.remaining] at none
          split at none
          · exact ⟨rfl, empty ‹_›⟩
          · omega
  | capture | getTarget | destory =>
      simp only [pc, FusionPc.remaining] at none
      exact ⟨rfl, empty (by omega)⟩

theorem handledPacks_calls {more : List FusionEvent}
    (pictures : ∀ event ∈ more, event.hasPicture = true) :
    handledPacks more = [] :=
  List.filterMap_eq_nil_iff.mpr fun event member => by
    have picture := pictures event member
    cases event with
    | thread => rfl
    | handle | release => cases picture

theorem roomy_calls {more : List FusionEvent} (pictures : ∀ event ∈ more, event.hasPicture = true) :
    AllSteps (FusionWorld.step fuel) Roomy w more := by
  induction more generalizing w with
  | nil => trivial
  | cons event more ih =>
      intro w' stepped
      refine ⟨fun nodeAt packAt pack handed => ?_, ih fun event member => pictures event
        (by simp [member])⟩
      subst handed
      exact absurd (pictures _ List.mem_cons_self) Bool.false_ne_true

theorem Fused.drains (fused : Fused True w sent given m target) (going : w.release = false)
    {more : List FusionEvent} (pictures : ∀ event ∈ more, event.hasPicture = true)
    (rounds : 24 ≤ more.length) (enough : 4 ≤ fuel) :
    ∃ w', more.foldlM (FusionWorld.step fuel) w = some w' ∧
      w'.offered.filter (!·.fromUser) = (sent.map packagesOf).filter (!·.fromUser) := by
  have none := handledPacks_calls pictures
  obtain ⟨w', given', m', target', ran, fused', on⟩ :=
    fused.run (by simp [none]) (fun _ => roomy_calls pictures) enough
  rw [none, List.map_nil, List.append_nil] at fused'
  have goesOn : w'.release = false := by
    by_contra released
    rcases on.release.mp (by simpa using released) with before | member
    · simp [going] at before
    · exact absurd (pictures _ member) Bool.false_ne_true
  have left := remaining_le w.pc m
  have emptier := on.emptier goesOn pictures
  obtain ⟨unread, queue⟩ := fused'.nothing goesOn (by omega)
  refine ⟨w', ran, ?_⟩
  simpa [unread, queue] using fused'.waiting trivial

theorem Fused.ends (whole : ∀ pack ∈ handledPacks events, Whole pack) (enough : 4 ≤ fuel)
    (ran : events.foldlM (FusionWorld.step fuel) FusionWorld.init = some w)
    {before after : List FusionEvent}
    (released : events = before ++ .release :: after)
    (calls : 4 ≤ after.countP FusionEvent.isCall) :
    w.pc = .ended := by
  have apart : events = (before ++ [.release]) ++ after := by simp [released]
  rw [apart, handledPacks_append] at whole
  rw [apart, List.foldlM_append] at ran
  obtain ⟨told, first, rest⟩ := Option.bind_eq_some_iff.mp ran
  have front : ∀ pack ∈ handledPacks (before ++ [.release]), Whole pack := fun pack member =>
    whole pack (List.mem_append_left _ member)
  have back : ∀ pack ∈ handledPacks after, Whole pack := fun pack member =>
    whole pack (List.mem_append_right _ member)
  obtain ⟨w₁, given₁, m₁, target₁, ran₁, fused₁, on₁⟩ :=
    (fused_init False).run front False.elim enough
  obtain rfl : told = w₁ := Option.some.inj (first.symm.trans ran₁)
  obtain ⟨w₂, given₂, m₂, target₂, ran₂, -, on₂⟩ := fused₁.run back False.elim enough
  obtain rfl : w = w₂ := Option.some.inj (rest.symm.trans ran₂)
  have ending := on₂.ending (on₁.release.mpr (.inr (by simp)))
  have four := told.pc.untilEnd_le
  have passed : w.pc.untilEnd = 0 := by omega
  cases pc : w.pc with
  | ended => rfl
  | capture | getTarget | run | destory => simp [pc, FusionPc.untilEnd] at passed

theorem guided (whole : ∀ pack ∈ handledPacks events, Whole pack) (enough : 4 ≤ fuel)
    (ran : events.foldlM (FusionWorld.step fuel) FusionWorld.init = some w) :
    Guided fuel events w := by
  obtain ⟨w', given, m, target, ran', fused, on⟩ := (fused_init _).run whole id enough
  obtain rfl : w = w' := Option.some.inj (ran.symm.trans ran')
  rw [List.nil_append] at fused
  obtain ⟨user, device⟩ := fused.offered
  have waiting := fused.waiting
  rw [packagesOf_packOf] at user device waiting
  have going (unreleased : .release ∉ events) : w.release = false := by
    by_contra released
    exact unreleased ((on.release.mp (by simpa using released)).resolve_left Bool.false_ne_true)
  refine ⟨fused.acts, user, device, fun unreleased => ?_, fun before after => ?_, fun room => ?_,
    fun room unreleased more pictures rounds => ?_⟩
  · have round := on.round (going unreleased)
    have place := w.pc.place_le
    have start : FusionWorld.init.frames.length = 0 ∧ FusionWorld.init.pc.place = 1 := ⟨rfl, rfl⟩
    omega
  · exact Fused.ends whole enough ran
  · exact ⟨_, by simpa using waiting_le w.pc target m, waiting room⟩
  · obtain ⟨w₁, given₁, m₁, target₁, ran₁, fused₁, -⟩ :=
      (fused_init True).run whole (fun _ => room) enough
    obtain rfl : w = w₁ := Option.some.inj (ran.symm.trans ran₁)
    obtain ⟨w', further, all⟩ := fused₁.drains (going unreleased) pictures rounds enough
    rw [List.nil_append, packagesOf_packOf] at all
    exact ⟨w', further, all⟩

end Runs

/-- Whatever the task's thread puts into the store and whenever it does, if each message is
    whole the thread goes on, without using a block that is not allocated or reading behind
    one, until it is told to end. -/
theorem fusionThread_guides {fuel : Nat} {events : List FusionEvent}
    (whole : ∀ pack ∈ handledPacks events, Whole pack) :
    ∃ w, events.foldlM (FusionWorld.step (4 + fuel)) FusionWorld.init = some w ∧
      Guided (4 + fuel) events w := by
  have enough := Nat.le_add_right 4 fuel
  obtain ⟨w, -, -, -, ran, -⟩ := (fused_init False).run whole False.elim enough
  exact ⟨w, ran, guided whole enough ran⟩

instance (pack : List UInt8) : Decidable (Whole pack) :=
  inferInstanceAs (Decidable (_ ∧ ∀ act ∈ _, _ = true))

/-- A remote identification with one drone, and a radar's package with none. -/
def remoteIdPack : List UInt8 :=
  [1, 0, 0, 0] ++ List.replicate 25 0 ++ [1] ++ [0, 77, 97, 118, 105, 99] ++
    List.replicate (alinkDroneIdItemsSize - 6) 0

def radarPack : List UInt8 := [0, 0, 0, 0] ++ List.replicate 5 0

/-- Both arrive, the second one while the thread has the first one, and the thread comes round
    twice and is told to end. -/
def twoRounds : List FusionEvent :=
  [.thread true 0 0, .handle (some 0) (some 0) remoteIdPack, .thread true 0 0, .thread true 0 0,
    .handle (some 1) (some 1) radarPack, .thread true 0 0, .thread true 0 0, .thread true 0 0,
    .thread true 2 1, .release, .thread true 0 0, .thread true 0 0]

theorem fusionThread_guides_two :
    ∃ w, twoRounds.foldlM (FusionWorld.step (4 + 0)) FusionWorld.init = some w ∧
      Guided (4 + 0) twoRounds w :=
  fusionThread_guides (by decide +kernel)

/-- A remote identification of five bytes ends before the number of its items. -/
example : ¬ Whole [1, 0, 0, 0, 0] := by decide +kernel

end PtzAgx.Algs
