import PtzAgx.Algs.AlgDelivery
import PtzAgx.Algs.FusionThread

/-! # From the connections to the guides

The connections' threads, the task's thread and the thread that guides, interleaved
call by call: `mtargets_handle` is `algs_handle_multiple_targets`, which the task's
thread calls before it looks at its queue again. The first thing `alg_uninit` does is
to ask the thread that guides to end. It waits for no thread, as it knows the threads
only from a copy made before there were any, and has the task deleted, which goes on
for itself. The last thing it does is to destroy the store's mutex. Up to that call
everything is modelled, nothing behind it.
-/

namespace PtzAgx.Algs

open Alink

structure PipelineWorld where
  task : AlgWorld
  fusion : FusionWorld

/-- A step of the task's world, with the memory there is for a target, or the next
    call of the thread that guides. -/
inductive PipelineEvent where
  | task (event : AlgEvent) (nodeAt packAt : Option Nat)
  | fusion (picture : Bool) (workMode targetNum : UInt32)
  deriving Repr, DecidableEq

def PipelineWorld.init (psModule mq : Nat) : PipelineWorld :=
  ⟨loadMultipleTargetsAlgs psModule mq, FusionWorld.init⟩

/-- `alg_uninit` is behind `pthread_mutex_destroy`. -/
def MainPc.destroyed : MainPc → Bool
  | .serving | .algUninit | .deleting | .radarNetworkRelease => false
  | .commonUninit | .returned => true

def AlgEvent.release : AlgEvent → List FusionEvent
  | .main _ => [.release]
  | _ => []

/-- What the store and the thread that guides get to know of a step of the task's world. -/
def handedOver (event : AlgEvent) (w w' : AlgWorld) (nodeAt packAt : Option Nat) :
    List FusionEvent :=
  event.release ++ (w'.handled.drop w.handled.length).map (FusionEvent.handle nodeAt packAt)

/-- What is not possible does not happen. -/
def PipelineWorld.step (fuel : Nat) (w : PipelineWorld) : PipelineEvent → Option PipelineWorld
  | .task event nodeAt packAt =>
      match w.task.step event with
      | none => some w
      | some task =>
          if task.main.destroyed then some w
          else
            ((handedOver event w.task task nodeAt packAt).foldlM
              (FusionWorld.step fuel) w.fusion).map
              (PipelineWorld.mk task)
  | .fusion picture workMode targetNum =>
      (w.fusion.thread picture workMode targetNum).map (PipelineWorld.mk w.task)

/-! ## What is asked of a run -/

def PipelineEvent.ofTask : PipelineEvent → Option AlgEvent
  | .task event _ _ => some event
  | .fusion .. => none

def taskEvents (events : List PipelineEvent) : List AlgEvent :=
  events.filterMap PipelineEvent.ofTask

/-- The next call of the thread that guides. -/
def PipelineEvent.ofFusion : PipelineEvent → Option FusionEvent
  | .task .. => none
  | .fusion picture workMode targetNum => some (.thread picture workMode targetNum)

def fusionCalls (events : List PipelineEvent) : List FusionEvent :=
  events.filterMap PipelineEvent.ofFusion

/-- Every message that is dispatched holds what the guides read of it. -/
def WholeMessages (events : List AlgEvent) : Prop :=
  ∀ i, ∀ pack ∈ dispatched i events, Whole pack

/-- The frames keep clear of the end of the task. -/
def Clear (w : PipelineWorld) (event : PipelineEvent) (_ : PipelineWorld) : Prop :=
  ∀ e nodeAt packAt task, event = .task e nodeAt packAt → w.task.step e = some task →
    KeepsClear w.task e task

/-- There is room in the store for what the task's thread puts there. -/
def Room (w : PipelineWorld) (event : PipelineEvent) (w' : PipelineWorld) : Prop :=
  ∀ e nodeAt packAt, event = .task e nodeAt packAt → w'.task.handled ≠ w.task.handled →
    w.fusion.HasRoom nodeAt packAt

/-! ## A run of both -/

/-- The run is one of the task's world and one of the thread that guides, and what the
    task's thread handed over in the one it was called with in the other. -/
structure Piped (psModule mq fuel : Nat) (events : List PipelineEvent) (ts : List AlgEvent)
    (fs : List FusionEvent) (w : PipelineWorld) : Prop where
  ran : events.foldlM (PipelineWorld.step fuel) (PipelineWorld.init psModule mq) = some w
  possible : ts.Sublist (taskEvents events)
  task : ts.foldlM AlgWorld.step (loadMultipleTargetsAlgs psModule mq) = some w.task
  fusion : fs.foldlM (FusionWorld.step fuel) FusionWorld.init = some w.fusion
  handed : handledPacks fs = w.task.handled
  calls : fs.filter FusionEvent.isCall = fusionCalls events
  told : .release ∈ fs ↔ ∃ memory, .main memory ∈ ts
  roomy : AllSteps (PipelineWorld.step fuel) Room (PipelineWorld.init psModule mq) events →
    AllSteps (FusionWorld.step fuel) Roomy FusionWorld.init fs
  calm : Calm mq w.task
  undestroyed : w.task.main.destroyed = false

/-- What a run has come to. -/
structure Relayed (psModule mq fuel : Nat) (events : List PipelineEvent) (ts : List AlgEvent)
    (log : List (Nat × List UInt8)) (fs : List FusionEvent) (w : PipelineWorld) : Prop where
  possible : ts.Sublist (taskEvents events)
  task : ts.foldlM AlgWorld.step (loadMultipleTargetsAlgs psModule mq) = some w.task
  /-- Nothing was used that had been freed. -/
  sound : w.task.ruined = false
  /-- Of each connection, what got into the queue is the beginning of what it dispatched. -/
  arrived : ∀ i, arrivals i log <+: dispatched i ts
  received : w.task.handled <+: log.map Prod.snd
  /-- While the queue is open nothing is lost. -/
  waiting : ∀ queue, w.task.mqs mq = some queue →
    log.map Prod.snd = w.task.handled ++ queue.filterMap SysportTaskFunc.message ∧
      ∀ i, dispatched i ts = arrivals i log ++ (w.task.calls (.link i)).pending
  /-- The task's thread goes on with what waits. -/
  next : ∀ psFunc queue pack, w.task.thread = .mqReceive → w.task.mqs mq = some (psFunc :: queue) →
    psFunc.message = some pack →
    ∃ task, w.task.step .thread = some task ∧ task.handled = w.task.handled ++ [pack]
  /-- The store and the thread that guides are in the way of nothing. -/
  follows : ∀ event task nodeAt packAt, w.task.step event = some task →
    task.main.destroyed = false →
    ∃ fusion, w.step fuel (.task event nodeAt packAt) = some ⟨task, fusion⟩
  handed : handledPacks fs = w.task.handled
  calls : fs.filter FusionEvent.isCall = fusionCalls events
  told : .release ∈ fs ↔ ∃ memory, .main memory ∈ ts
  roomy : AllSteps (PipelineWorld.step fuel) Room (PipelineWorld.init psModule mq) events →
    AllSteps (FusionWorld.step fuel) Roomy FusionWorld.init fs
  guided : Guided fuel fs w.fusion

section Runs

variable {psModule mq fuel : Nat} {events : List PipelineEvent} {event : PipelineEvent}
  {ts : List AlgEvent} {fs : List FusionEvent} {t : AlgEvent} {w : PipelineWorld}
  {task task' : AlgWorld} {nodeAt packAt : Option Nat} {caller : AlgCaller} {memory : Bool}

@[simp] theorem taskEvents_task (event : AlgEvent) :
    taskEvents (events ++ [.task event nodeAt packAt]) = taskEvents events ++ [event] := by
  simp [taskEvents, PipelineEvent.ofTask]

@[simp] theorem taskEvents_fusion (picture : Bool) (workMode targetNum : UInt32) :
    taskEvents (events ++ [.fusion picture workMode targetNum]) = taskEvents events := by
  simp [taskEvents, List.filterMap_cons, PipelineEvent.ofTask]

@[simp] theorem fusionCalls_task (event : AlgEvent) :
    fusionCalls (events ++ [.task event nodeAt packAt]) = fusionCalls events := by
  simp [fusionCalls, List.filterMap_cons, PipelineEvent.ofFusion]

@[simp] theorem fusionCalls_fusion (picture : Bool) (workMode targetNum : UInt32) :
    fusionCalls (events ++ [.fusion picture workMode targetNum]) =
      fusionCalls events ++ [.thread picture workMode targetNum] := by
  simp [fusionCalls, PipelineEvent.ofFusion]

theorem piped_init (psModule mq fuel : Nat) :
    Piped psModule mq fuel [] [] [] (PipelineWorld.init psModule mq) where
  ran := rfl
  possible := List.Sublist.refl []
  task := rfl
  fusion := rfl
  handed := rfl
  calls := rfl
  told := by simp
  roomy _ := trivial
  calm := ⟨algInv_start psModule mq, rfl, TaskPc.noConfusion⟩
  undestroyed := rfl

/-! ### What a step of the task's world hands over -/

theorem AlgWorld.mqSend_handled {psFunc : SysportTaskFunc}
    (sent : task.mqSend mq psFunc = some task') :
    task'.handled = task.handled := by
  obtain ⟨-, rfl⟩ | ⟨queue, -, rfl⟩ := AlgWorld.mqSend_cases sent <;> rfl

theorem AlgWorld.sysportTaskFunc_handled (called : task.sysportTaskFunc caller = some task') :
    task'.handled = task.handled := by
  unfold AlgWorld.sysportTaskFunc at called
  split at called
  · cases called
  · split at called
    · cases called
      exact task.return'_handled caller
    · split at called
      · cases called
        rfl
      · cases called
        rfl
      · obtain ⟨next, sent, rfl⟩ := Option.map_eq_some_iff.mp called
        rw [AlgWorld.return'_handled, AlgWorld.mqSend_handled sent]
      · cases called

theorem AlgWorld.mainStep_handled (went : task.mainStep memory = some task') :
    task'.handled = task.handled := by
  unfold AlgWorld.mainStep at went
  split at went
  · cases went
    rfl
  · cases went
    split <;> rfl
  all_goals
    cases went
    try rfl

theorem AlgBase.thread_handled (base : AlgBase mq task)
    (went : task.sysportTaskPthread = some task') :
    task'.handled = task.handled ∨ ∃ psFunc queue pack, task.mqs mq = some (psFunc :: queue) ∧
      psFunc.message = some pack ∧ task'.handled = task.handled ++ [pack] := by
  unfold AlgWorld.sysportTaskPthread at went
  cases here : task.thread with
  | ended => simp [base.freed here] at went
  | mqReceive =>
      simp only [base.liveAt here TaskPc.noConfusion, here] at went
      split at went
      · next psFunc queue opened =>
        cases went
        cases ends : psFunc.pvFunc with
        | none => exact .inl rfl
        | some fn =>
            cases fn
            exact .inr ⟨psFunc, queue, psFunc.acInfo,
              opened, by simp [SysportTaskFunc.message, ends], rfl⟩
      · cases went
  | mqClose | mqUnlink =>
      simp only [base.liveAt here TaskPc.noConfusion, here, Option.some.injEq] at went
      exact .inl (went ▸ rfl)
  | free =>
      simp only [base.liveAt here TaskPc.noConfusion, here] at went
      obtain ⟨modules, -, rfl⟩ := Option.map_eq_some_iff.mp went
      exact .inl rfl

theorem AlgBase.step_handled (base : AlgBase mq task) (stepped : task.step t = some task') :
    (task'.handled = task.handled ∧
      ∀ nodeAt packAt, handedOver t task task' nodeAt packAt = t.release) ∨
      t = .thread ∧ ∃ pack, task'.handled = task.handled ++ [pack] ∧
        ∀ nodeAt packAt, handedOver t task task' nodeAt packAt = [.handle nodeAt packAt pack] := by
  have none (same : task'.handled = task.handled) (nodeAt packAt : Option Nat) :
      handedOver t task task' nodeAt packAt = t.release := by
    simp [handedOver, same]
  have taken := (AlgWorld.step_event stepped).2
  cases t with
  | dispatch i pack memory =>
      obtain ⟨-, rfl⟩ := AlgWorld.step_dispatch stepped
      have same : (task.msgSendToAlg i pack memory).handled = task.handled := by
        unfold AlgWorld.msgSendToAlg
        split <;> rfl
      exact .inl ⟨same, none same⟩
  | call caller =>
      have same := AlgWorld.sysportTaskFunc_handled taken
      exact .inl ⟨same, none same⟩
  | main memory =>
      have same := AlgWorld.mainStep_handled taken
      exact .inl ⟨same, none same⟩
  | thread =>
      rcases base.thread_handled taken with same | ⟨psFunc, queue, pack, -, -, grown⟩
      · exact .inl ⟨same, none same⟩
      · exact .inr ⟨rfl, pack, grown,
          fun nodeAt packAt => by simp [handedOver, AlgEvent.release, grown]⟩

@[simp] theorem handledPacks_release (event : AlgEvent) : handledPacks event.release = [] := by
  cases event <;> rfl

theorem AlgBase.handledPacks_handedOver (base : AlgBase mq task)
    (stepped : task.step t = some task')
    (nodeAt packAt : Option Nat) :
    task.handled ++ handledPacks (handedOver t task task' nodeAt packAt) = task'.handled := by
  rcases base.step_handled stepped with ⟨same, passed⟩ | ⟨-, pack, grown, passed⟩
  · simp [passed, same]
  · simp [passed, grown, handledPacks, FusionEvent.pack]

theorem AlgBase.handedOver_told (base : AlgBase mq task) (stepped : task.step t = some task')
    (nodeAt packAt : Option Nat) :
    (handedOver t task task' nodeAt packAt).filter FusionEvent.isCall = [] ∧
      (.release ∈ handedOver t task task' nodeAt packAt ↔ ∃ memory, t = .main memory) := by
  rcases base.step_handled stepped with ⟨-, passed⟩ | ⟨rfl, pack, -, passed⟩
  · rw [passed]
    cases t <;> simp [AlgEvent.release, FusionEvent.isCall]
  · rw [passed]
    simp [FusionEvent.isCall]

/-- Where there is room for what is handed over, there is in the store. -/
theorem AlgBase.handedOver_roomy (base : AlgBase mq task) (stepped : task.step t = some task')
    {fusion : FusionWorld} (room : task'.handled ≠ task.handled → fusion.HasRoom nodeAt packAt) :
    AllSteps (FusionWorld.step fuel) Roomy fusion (handedOver t task task' nodeAt packAt) := by
  rcases base.step_handled stepped with ⟨-, passed⟩ | ⟨-, pack, grown, passed⟩
  · rw [passed]
    cases t with
    | main => exact fun _ _ => ⟨fun _ _ _ => FusionEvent.noConfusion, trivial⟩
    | dispatch | call | thread => trivial
  · rw [passed]
    intro fusion' _
    refine ⟨fun nodeAt' packAt' pack' same => ?_, trivial⟩
    cases same
    exact room (by simp [grown])

/-! ### What is dispatched is whole -/

theorem WholeMessages.sublist {part : List AlgEvent} (whole : WholeMessages ts)
    (sub : part.Sublist ts) :
    WholeMessages part :=
  fun i _ member => whole i _ ((sub.filterMap _).subset member)

/-- What the handler is called with some connection dispatched. -/
theorem WholeMessages.handled (whole : WholeMessages ts)
    (ran : ts.foldlM AlgWorld.step (loadMultipleTargetsAlgs psModule mq) = some task) :
    ∀ pack ∈ task.handled, Whole pack := by
  intro pack member
  obtain ⟨log, delivered⟩ := Delivered.run ran
  obtain ⟨⟨i, pack'⟩, arrived, rfl⟩ := List.mem_map.mp (delivered.handled.subset member)
  refine whole i pack' ((delivered.arrived i).subset ?_)
  exact List.mem_filterMap.mpr ⟨_, arrived, if_pos rfl⟩

/-! ### Steps -/

/-- The store and the thread that guides go on whatever the task's thread hands over. -/
theorem Piped.fusionGoesOn (piped : Piped psModule mq fuel events ts fs w) (enough : 4 ≤ fuel)
    (more : List FusionEvent) (whole : ∀ pack ∈ w.task.handled ++ handledPacks more, Whole pack) :
    ∃ fusion, more.foldlM (FusionWorld.step fuel) w.fusion = some fusion := by
  rw [← piped.handed, ← handledPacks_append] at whole
  obtain ⟨fusion, -, -, -, ran, -⟩ := (fused_init False).run whole False.elim enough
  exact ⟨fusion, by simpa [piped.fusion] using ran⟩

theorem Piped.follows (piped : Piped psModule mq fuel events ts fs w) (enough : 4 ≤ fuel)
    (whole : WholeMessages ts) (stepped : w.task.step t = some task)
    (undestroyed : task.main.destroyed = false) (nodeAt packAt : Option Nat) :
    ∃ fusion, (handedOver t w.task task nodeAt packAt).foldlM (FusionWorld.step fuel) w.fusion =
        some fusion ∧
      w.step fuel (.task t nodeAt packAt) = some ⟨task, fusion⟩ := by
  have base := piped.calm.toAlgBase
  have before := whole.handled piped.task
  have after : ∀ pack ∈ task.handled, Whole pack := by
    rcases base.step_handled stepped with ⟨same, -⟩ | ⟨rfl, -⟩
    · rwa [same]
    · have same i : dispatched i (ts ++ [.thread]) = dispatched i ts := by
        simp [AlgEvent.dispatches]
      have longer : WholeMessages (ts ++ [.thread]) := fun i pack member =>
        whole i pack (by rwa [same] at member)
      have ran : (ts ++ [AlgEvent.thread]).foldlM AlgWorld.step
        (loadMultipleTargetsAlgs psModule mq) =
          some task := by
        simp [piped.task, stepped]
      exact longer.handled ran
  rw [← base.handledPacks_handedOver stepped nodeAt packAt] at after
  obtain ⟨fusion, ran⟩ := piped.fusionGoesOn enough _ after
  exact ⟨fusion, ran, by simp [PipelineWorld.step, stepped, undestroyed, ran]⟩

theorem Piped.fusionStep (piped : Piped psModule mq fuel events ts fs w) (enough : 4 ≤ fuel)
    (whole : WholeMessages ts) (picture : Bool) (workMode targetNum : UInt32) :
    ∃ w', Piped psModule mq fuel (events ++ [.fusion picture workMode targetNum]) ts
      (fs ++ [.thread picture workMode targetNum]) w' := by
  have none : handledPacks [.thread picture workMode targetNum] = [] := rfl
  have before := whole.handled piped.task
  obtain ⟨fusion, once⟩ := piped.fusionGoesOn enough [.thread picture workMode targetNum]
    (by simpa [none] using before)
  have called : w.fusion.thread picture workMode targetNum = some fusion := by
    simpa [FusionWorld.step] using once
  refine ⟨⟨w.task, fusion⟩, ?_, by simpa using piped.possible, piped.task, ?_, ?_, ?_, ?_,
    fun room => ?_, piped.calm, piped.undestroyed⟩
  · simp [piped.ran, PipelineWorld.step, called]
  · simp [piped.fusion, FusionWorld.step, called]
  · simp [none, piped.handed]
  · simp [piped.calls, FusionEvent.isCall]
  · rw [← piped.told, List.mem_append, List.mem_singleton]
    exact ⟨(·.resolve_right FusionEvent.noConfusion), .inl⟩
  · exact (piped.roomy room.front).andThen piped.fusion fun _ _ =>
      ⟨fun _ _ _ => FusionEvent.noConfusion, trivial⟩

theorem Piped.skip (piped : Piped psModule mq fuel events ts fs w)
    (stays : w.step fuel (.task t nodeAt packAt) = some w) :
    Piped psModule mq fuel (events ++ [.task t nodeAt packAt]) ts fs w where
  ran := by simp [piped.ran, stays]
  possible := by simpa using piped.possible.trans (List.sublist_append_left _ _)
  task := piped.task
  fusion := piped.fusion
  handed := piped.handed
  calls := by simpa using piped.calls
  told := piped.told
  roomy room := piped.roomy room.front
  calm := piped.calm
  undestroyed := piped.undestroyed

theorem Piped.taskStep (piped : Piped psModule mq fuel events ts fs w) (enough : 4 ≤ fuel)
    (whole : WholeMessages ts) (stepped : w.task.step t = some task)
    (undestroyed : task.main.destroyed = false)
    (clear : ∀ w', w.step fuel (.task t nodeAt packAt) = some w' →
      Clear w (.task t nodeAt packAt) w') :
    ∃ w', Piped psModule mq fuel (events ++ [.task t nodeAt packAt]) (ts ++ [t])
      (fs ++ handedOver t w.task task nodeAt packAt) w' := by
  have base := piped.calm.toAlgBase
  obtain ⟨fusion, passed, once⟩ := piped.follows enough whole stepped undestroyed nodeAt packAt
  have handed := base.handledPacks_handedOver stepped nodeAt packAt
  obtain ⟨noCalls, told⟩ := base.handedOver_told stepped nodeAt packAt
  have keeps := clear _ once t nodeAt packAt task rfl stepped
  refine ⟨⟨task, fusion⟩, by simp [piped.ran, once], by simpa using piped.possible,
    by simp [piped.task, stepped], by simp [piped.fusion, passed], ?_, ?_, ?_, fun room => ?_,
    (piped.calm.step stepped keeps).1, undestroyed⟩
  · rw [handledPacks_append, piped.handed, handed]
  · rw [List.filter_append, noCalls, List.append_nil, piped.calls, fusionCalls_task]
  · rw [List.mem_append, piped.told, told]
    simp [exists_or, eq_comm (a := t)]
  · have here := room.last piped.ran once t nodeAt packAt rfl
    exact (piped.roomy room.front).andThen piped.fusion (base.handedOver_roomy stepped here)

theorem Piped.step (piped : Piped psModule mq fuel events ts fs w) (enough : 4 ≤ fuel)
    (whole : WholeMessages ts)
    (clear : ∀ w', w.step fuel event = some w' → Clear w event w') :
    ∃ w' ts' fs', Piped psModule mq fuel (events ++ [event]) ts' fs' w' := by
  cases event with
  | fusion picture workMode targetNum =>
      obtain ⟨w', piped'⟩ := piped.fusionStep enough whole picture workMode targetNum
      exact ⟨w', ts, _, piped'⟩
  | task t nodeAt packAt =>
      cases stepped : w.task.step t with
      | none => exact ⟨w, ts, fs, piped.skip (by simp [PipelineWorld.step, stepped])⟩
      | some task =>
          cases undestroyed : task.main.destroyed with
          | true =>
            exact ⟨w, ts, fs, piped.skip (by simp [PipelineWorld.step, stepped, undestroyed])⟩
          | false =>
              obtain ⟨w', piped'⟩ := piped.taskStep enough whole stepped undestroyed clear
              exact ⟨w', _, _, piped'⟩

theorem Piped.run (psModule mq : Nat) (enough : 4 ≤ fuel)
    (whole : WholeMessages (taskEvents events))
    (clear : AllSteps (PipelineWorld.step fuel) Clear (PipelineWorld.init psModule mq) events) :
    ∃ w ts fs, Piped psModule mq fuel events ts fs w := by
  induction events using List.reverseRecOn with
  | nil => exact ⟨_, [], [], piped_init psModule mq fuel⟩
  | append_singleton events event ih =>
      have earlier : WholeMessages (taskEvents events) := whole.sublist (by simp [taskEvents])
      obtain ⟨w, ts, fs, piped⟩ := ih earlier clear.front
      exact piped.step enough (earlier.sublist piped.possible) fun w' stepped =>
        clear.last piped.ran stepped

/-! ### What a run comes to -/

theorem AlgBase.receives (base : AlgBase mq task) (running : task.main ≠ .returned)
    (receiving : task.thread = .mqReceive) {psFunc : SysportTaskFunc} {queue : List SysportTaskFunc}
    {pack : List UInt8} (opened : task.mqs mq = some (psFunc :: queue))
    (message : psFunc.message = some pack) :
    ∃ task', task.step .thread = some task' ∧ task'.handled = task.handled ++ [pack] := by
  have live := base.liveAt receiving TaskPc.noConfusion
  unfold SysportTaskFunc.message at message
  cases ends : psFunc.pvFunc with
  | none => simp [ends] at message
  | some fn =>
      cases fn
      obtain rfl : psFunc.acInfo = pack := by simpa [ends] using message
      exact ⟨_, by
        simp only [AlgWorld.step, if_neg running, AlgWorld.sysportTaskPthread, live, receiving,
        opened, ends]; rfl, rfl⟩

theorem Piped.relayed (piped : Piped psModule mq fuel events ts fs w) (enough : 4 ≤ fuel)
    (whole : WholeMessages ts) : ∃ log, Relayed psModule mq fuel events ts log fs w := by
  obtain ⟨log, delivered⟩ := Delivered.run piped.task
  have handed := whole.handled piped.task
  rw [← piped.handed] at handed
  have running : w.task.main ≠ .returned := fun returned => by
    have undestroyed := piped.undestroyed
    simp [returned, MainPc.destroyed] at undestroyed
  refine ⟨log, piped.possible, piped.task, piped.calm.sound, delivered.arrived, delivered.handled,
    fun queue opened => ⟨delivered.waiting queue opened, delivered.underway (by simp [opened])⟩,
    fun _ _ _ receiving => piped.calm.receives running receiving,
    fun t task nodeAt packAt stepped undestroyed => ?_, piped.handed, piped.calls, piped.told,
    piped.roomy, guided handed enough piped.fusion⟩
  obtain ⟨fusion, -, once⟩ := piped.follows enough whole stepped undestroyed nodeAt packAt
  exact ⟨fusion, once⟩

end Runs

/-- However the connections, the task, the thread that guides and `main` up to the end of
    `alg_uninit` are interleaved, the run goes on if the messages are whole and keep clear
    of the end of the task, and what is guided by is what the connections dispatched. -/
theorem pipeline_guides (psModule mq : Nat) {fuel : Nat} {events : List PipelineEvent}
    (whole : WholeMessages (taskEvents events))
    (clear : AllSteps (PipelineWorld.step (4 + fuel)) Clear
      (PipelineWorld.init psModule mq) events) :
    ∃ w ts log fs,
      events.foldlM (PipelineWorld.step (4 + fuel)) (PipelineWorld.init psModule mq) = some w ∧
        Relayed psModule mq (4 + fuel) events ts log fs w := by
  have enough := Nat.le_add_right 4 fuel
  obtain ⟨w, ts, fs, piped⟩ := Piped.run psModule mq enough whole clear
  obtain ⟨log, relayed⟩ := piped.relayed enough (whole.sublist piped.possible)
  exact ⟨w, ts, log, fs, piped.ran, relayed⟩

/-- What an event makes of the task's world. -/
def AlgWorld.advance (task : AlgWorld) : PipelineEvent → AlgWorld
  | .task event _ _ =>
      match task.step event with
      | none => task
      | some next => if next.main.destroyed then task else next
  | .fusion .. => task

theorem PipelineWorld.step_task {fuel : Nat} {w w' : PipelineWorld} {event : PipelineEvent}
    (stepped : w.step fuel event = some w') : w'.task = w.task.advance event := by
  cases event with
  | fusion picture workMode targetNum =>
      obtain ⟨fusion, -, rfl⟩ := Option.map_eq_some_iff.mp stepped
      rfl
  | task event nodeAt packAt =>
      simp only [PipelineWorld.step, AlgWorld.advance] at stepped ⊢
      cases next : w.task.step event with
      | none =>
          rw [next] at stepped
          exact congrArg PipelineWorld.task (Option.some.inj stepped).symm
      | some task =>
          simp only [next] at stepped ⊢
          split at stepped
          · cases stepped
            exact (if_pos ‹_›).symm
          · obtain ⟨fusion, -, rfl⟩ := Option.map_eq_some_iff.mp stepped
            exact (if_neg ‹_›).symm

theorem keepsClear_early {task task' : AlgWorld} {t : AlgEvent} (receiving : task.thread ≠ .free)
    (running : task.thread ≠ .ended) : KeepsClear task t task' :=
  ⟨fun free => absurd free receiving, fun ended => absurd ended running⟩

/-- A remote identification becomes what the camera is guided by, and the application ends:
    the task takes the deletion, closes its queue and frees its module while `alg_uninit`
    still runs, and what a connection dispatches then finds no memory. -/
def toTheEnd : List PipelineEvent :=
  [.task (.dispatch 0 remoteIdPack true) none none, .task (.call (.link 0)) none none,
    .task (.call (.link 0)) none none, .task .thread (some 0) (some 0), .fusion true 0 0,
    .fusion true 0 0, .fusion true 0 0, .task (.main true) none none, .task (.main true) none none,
    .task (.call .main) none none, .task (.call .main) none none, .task .thread none none,
    .fusion true 0 0, .task .thread none none, .task .thread none none, .task .thread none none,
    .fusion true 0 0, .task (.dispatch 0 radarPack false) none none]

example : (toTheEnd.foldl AlgWorld.advance (loadMultipleTargetsAlgs 0 0)).thread = .ended := by
  decide +kernel

/-- What the steps are asked depends on the task's world alone. -/
theorem clear_of_task {fuel : Nat} {w : PipelineWorld} {events : List PipelineEvent}
    (keeps : ∀ before t nodeAt packAt after next,
      events = before ++ .task t nodeAt packAt :: after →
      KeepsClear (before.foldl AlgWorld.advance w.task) t next) :
    AllSteps (PipelineWorld.step fuel) Clear w events := by
  induction events generalizing w with
  | nil => trivial
  | cons event events ih =>
      intro w' stepped
      refine ⟨fun t nodeAt packAt task same _ => keeps [] t nodeAt packAt events task
        (by simp [same]), ih ?_⟩
      rintro before t nodeAt packAt after next rfl
      rw [PipelineWorld.step_task stepped]
      exact keeps (event :: before) t nodeAt packAt after next rfl

theorem toTheEnd_clear :
    AllSteps (PipelineWorld.step (4 + 0)) Clear (PipelineWorld.init 0 0) toTheEnd := by
  have early : ∀ n < 15,
      let task := (toTheEnd.take n).foldl AlgWorld.advance (loadMultipleTargetsAlgs 0 0)
      task.thread ≠ .free ∧ task.thread ≠ .ended := by decide +kernel
  refine clear_of_task fun before t nodeAt packAt after next here => ?_
  have front : before = toTheEnd.take before.length := by simp [here]
  have event : toTheEnd[before.length]? = some (.task t nodeAt packAt) := by simp [here]
  have bound : before.length < 18 := (List.getElem?_eq_some_iff.mp event).1
  rw [front]
  by_cases sooner : before.length < 15
  · exact keepsClear_early (early _ sooner).1 (early _ sooner).2
  · generalize before.length = n at *
    obtain rfl | rfl | rfl : n = 15 ∨ n = 16 ∨ n = 17 := by omega
    · have freeing : ((toTheEnd.take 15).foldl AlgWorld.advance
          (loadMultipleTargetsAlgs 0 0)).thread = .free := by decide +kernel
      refine ⟨fun _ _ i => ?_, fun ended => absurd (freeing.symm.trans ended) TaskPc.noConfusion⟩
      cases i <;> rfl
    · simp [toTheEnd] at event
    · obtain ⟨rfl, -⟩ : .dispatch 0 radarPack false = t ∧ _ := by simpa [toTheEnd] using event
      exact ⟨fun _ => AlgEvent.noConfusion, fun _ i pack same => by cases same⟩

theorem pipeline_guides_toTheEnd :
    ∃ w ts log fs,
      toTheEnd.foldlM (PipelineWorld.step (4 + 0)) (PipelineWorld.init 0 0) = some w ∧
        Relayed 0 0 (4 + 0) toTheEnd ts log fs w := by
  refine pipeline_guides 0 0 (fun i pack member => ?_) toTheEnd_clear
  have same : pack = remoteIdPack := by
    cases i <;> simp [dispatched, toTheEnd, taskEvents, List.filterMap_cons, PipelineEvent.ofTask,
      AlgEvent.dispatches] at member
    exact member
  rw [same]
  decide +kernel

end PtzAgx.Algs
