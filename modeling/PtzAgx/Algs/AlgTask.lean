import PtzAgx.Lib.Alloc
import PtzAgx.Lib.Steps

/-! # The algorithm task and its end

Frames are handed to the algorithm through the message queue of a task. When the
application ends, `main` has the task deleted, which is a message like any other,
and closes the radar connections afterwards; the connections to C2 are not closed
at all. What the threads do is interleaved call by call.
-/

namespace PtzAgx.Algs

open Alloc

/-- The functions a message can have called; `NULL` ends the task. -/
inductive TaskFn where
  | algThreadHandler
  deriving Repr, DecidableEq

structure SysportTaskFunc where
  pvFunc : Option TaskFn
  acInfo : List UInt8
  deriving Repr, DecidableEq

/-- `sysport_task_module_t`, as far as it is read through the handle of the task. -/
structure SysportTaskModule where
  mq : Nat
  deriving Repr, DecidableEq

def sysportTaskMsgSize : Nat := 10

/-- Who calls `sysport_task_func`: `main` for the deletion, the thread of a
    connection for a frame. -/
inductive AlgCaller where
  | main
  | link (i : Nat)
  deriving Repr, DecidableEq

/-- How far such a call is. -/
inductive CallPc where
  | idle
  /-- Behind `sysport_task_malloc`. -/
  | malloced (acInfo : List UInt8)
  /-- Behind `mq_getattr` of `sysport_task_func`. -/
  | sending (psFunc : SysportTaskFunc)
  deriving Repr, DecidableEq

/-- `sysport_task_pthread`. -/
inductive TaskPc where
  | mqReceive
  | mqClose
  | mqUnlink
  | free
  | ended
  deriving Repr, DecidableEq

inductive MainPc where
  | serving
  | algUninit
  | deleting
  | radarNetworkRelease
  | commonUninit
  | returned
  deriving Repr, DecidableEq

structure AlgWorld where
  /-- Of `alg_obj`. -/
  pvalgtask : Option Nat
  modules : Heap SysportTaskModule
  mqs : Heap (List SysportTaskFunc)
  /-- The argument of the task's thread. -/
  psModule : Nat
  thread : TaskPc
  main : MainPc
  calls : AlgCaller → CallPc
  /-- What `mtargets_handle` was given. -/
  handled : List (List UInt8)
  /-- What `msg_send_to_alg` returned, and to whom. -/
  returned : List (Nat × Int)
  /-- A module was used that had been freed. -/
  ruined : Bool

/-- As `load_multiple_targets_algs` leaves it, with the places of the module and the
    queue. -/
def loadMultipleTargetsAlgs (psModule mq : Nat) : AlgWorld where
  pvalgtask := some psModule
  modules := Function.update (fun _ => none) psModule (some ⟨mq⟩)
  mqs := Function.update (fun _ => none) mq (some [])
  psModule
  thread := .mqReceive
  main := .serving
  calls := fun _ => .idle
  handled := []
  returned := []
  ruined := false

/-- The connection of a thread dispatches a frame, a call goes on, the task's thread
    goes on, or `main` does. `memory` says whether `sysport_task_malloc` finds any. -/
inductive AlgEvent where
  | dispatch (i : Nat) (pack : List UInt8) (memory : Bool)
  | call (caller : AlgCaller)
  | thread
  | main (memory : Bool)
  deriving Repr, DecidableEq

def sysportTaskMalloc (pvModule : Option Nat) (memory : Bool) (acInfo : List UInt8) :
    Option (List UInt8) :=
  if pvModule.isSome && memory then some acInfo else none

namespace AlgWorld

def setCall (w : AlgWorld) (caller : AlgCaller) (pc : CallPc) : AlgWorld :=
  { w with calls := Function.update w.calls caller pc }

/-- `msg_send_to_alg` up to `sysport_task_func`. -/
def msgSendToAlg (w : AlgWorld) (i : Nat) (pack : List UInt8) (memory : Bool) : AlgWorld :=
  match sysportTaskMalloc w.pvalgtask memory pack with
  | none => { w with returned := w.returned ++ [(i, -1)] }
  | some pvInfo => w.setCall (.link i) (.malloced pvInfo)

/-- `sysport_task_func` has returned. What it returned is not looked at. -/
def return' (w : AlgWorld) (caller : AlgCaller) : AlgWorld :=
  match caller with
  | .main => { w.setCall .main .idle with main := .radarNetworkRelease }
  | .link i => { w.setCall (.link i) .idle with returned := w.returned ++ [(i, 0)] }

def pvFunc : AlgCaller → Option TaskFn
  | .main => none
  | .link _ => some .algThreadHandler

/-- `mq_send`, which waits while the queue is full and fails when it is closed. -/
def mqSend (w : AlgWorld) (mq : Nat) (psFunc : SysportTaskFunc) : Option AlgWorld :=
  match w.mqs mq with
  | none => some w
  | some queue =>
      if queue.length < sysportTaskMsgSize then
        some { w with mqs := Function.update w.mqs mq (some (queue ++ [psFunc])) }
      else none

/-- The next call of a `sysport_task_func`, either of which reads `psModule->mq`. -/
def sysportTaskFunc (w : AlgWorld) (caller : AlgCaller) : Option AlgWorld :=
  match w.calls caller with
  | .idle => none
  | pc =>
      match w.pvalgtask with
      | none => some (w.return' caller)
      | some pvModule =>
          match w.modules pvModule, pc with
          | none, _ => some { w with ruined := true }
          | some _, .malloced acInfo => some (w.setCall caller (.sending ⟨pvFunc caller, acInfo⟩))
          | some psModule, .sending psFunc =>
            (w.mqSend psModule.mq psFunc).map fun w => w.return' caller
          | some _, .idle => none

/-- The next call of `sysport_task_pthread`. -/
def sysportTaskPthread (w : AlgWorld) : Option AlgWorld :=
  match w.modules w.psModule with
  | none => none
  | some psModule =>
      match w.thread with
      | .mqReceive =>
          match w.mqs psModule.mq with
          | some (psFunc :: queue) =>
              let w := { w with mqs := Function.update w.mqs psModule.mq (some queue) }
              some (match psFunc.pvFunc with
                | none => { w with thread := .mqClose }
                | some .algThreadHandler => { w with handled := w.handled ++ [psFunc.acInfo] })
          | _ => none
      | .mqClose =>
        some { w with mqs := Function.update w.mqs psModule.mq none, thread := .mqUnlink }
      | .mqUnlink => some { w with thread := .free }
      | .free =>
        (Alloc.free w.psModule w.modules).map fun modules => { w with modules, thread := .ended }
      | .ended => none

/-- `main`, from the end of its loop on. -/
def mainStep (w : AlgWorld) (memory : Bool) : Option AlgWorld :=
  match w.main with
  | .serving => some { w with main := .algUninit }
  | .algUninit =>
      -- `unload_multiple_targets_algs` and `sysport_task_delete`. The handle stays as it is.
      some (match sysportTaskMalloc w.pvalgtask memory [] with
        | none => { w with main := .radarNetworkRelease }
        | some pvInfo => { w.setCall .main (.malloced pvInfo) with main := .deleting })
  | .deleting => none
  | .radarNetworkRelease => some { w with main := .commonUninit }
  | .commonUninit => some { w with main := .returned }
  | .returned => none

/-- When `main` has returned there are no threads any more. -/
def step (w : AlgWorld) (event : AlgEvent) : Option AlgWorld :=
  if w.main = .returned then none
  else
    match event with
    | .dispatch i pack memory =>
      if w.calls (.link i) = .idle then some (w.msgSendToAlg i pack memory) else none
    | .call caller => w.sysportTaskFunc caller
    | .thread => w.sysportTaskPthread
    | .main memory => w.mainStep memory

end AlgWorld

/-! ## What every step keeps -/

/-- `main` has had the deletion message sent, or never will. -/
def MainPc.Deleted (pc : MainPc) : Prop := pc ≠ .serving ∧ pc ≠ .algUninit ∧ pc ≠ .deleting

/-- The deletion message is on its way to the thread, or has arrived. -/
def AlgWorld.Deleting (w : AlgWorld) (mq : Nat) : Prop :=
  w.thread ≠ .mqReceive ∨ ∃ queue, w.mqs mq = some queue ∧ ∃ psFunc ∈ queue, psFunc.pvFunc = none

/-- The handle is never taken back, and the module lives as long as its thread. -/
structure AlgBase (mq : Nat) (w : AlgWorld) : Prop where
  handle : w.pvalgtask = some w.psModule
  live : w.thread ≠ .ended → w.modules w.psModule = some ⟨mq⟩
  freed : w.thread = .ended → w.modules w.psModule = none
  quiet : w.main ≠ .deleting → w.calls .main = .idle
  links : ∀ i psFunc, w.calls (.link i) = .sending psFunc → psFunc.pvFunc = some .algThreadHandler

/-- Only `main` deletes the task, and once. -/
structure AlgInv (mq : Nat) (w : AlgWorld) : Prop extends AlgBase mq w where
  deleted : w.Deleting mq → w.main.Deleted

section Keep

variable {mq psModule i : Nat} {w w' : AlgWorld} {caller : AlgCaller} {pack : List UInt8}
  {memory : Bool}
  {event : AlgEvent} {psFunc : SysportTaskFunc}

@[simp] theorem AlgWorld.setCall_self (w : AlgWorld) (caller : AlgCaller) (pc : CallPc) :
    (w.setCall caller pc).calls caller = pc := Function.update_self _ _ _

theorem AlgWorld.setCall_of_ne {other : AlgCaller} (different : other ≠ caller) (w : AlgWorld)
    (pc : CallPc) :
    (w.setCall caller pc).calls other = w.calls other := Function.update_of_ne different _ _

@[simp] theorem AlgWorld.return'_thread (w : AlgWorld) (caller : AlgCaller) :
    (w.return' caller).thread = w.thread := by
  cases caller <;> rfl

@[simp] theorem AlgWorld.return'_ruined (w : AlgWorld) (caller : AlgCaller) :
    (w.return' caller).ruined = w.ruined := by
  cases caller <;> rfl

theorem AlgWorld.mqSend_frame (sent : w.mqSend mq psFunc = some w') :
    w'.thread = w.thread ∧ w'.ruined = w.ruined := by
  unfold mqSend at sent
  split at sent
  · cases sent
    exact ⟨rfl, rfl⟩
  · split at sent
    · cases sent
      exact ⟨rfl, rfl⟩
    · cases sent

theorem algInv_start (psModule mq : Nat) : AlgInv mq (loadMultipleTargetsAlgs psModule mq) where
  handle := rfl
  live := by simp [loadMultipleTargetsAlgs]
  freed := by simp [loadMultipleTargetsAlgs]
  quiet := fun _ => rfl
  links := by simp [loadMultipleTargetsAlgs]
  deleted := by simp [loadMultipleTargetsAlgs, AlgWorld.Deleting]

theorem AlgBase.setCall (base : AlgBase mq w) {pc : CallPc}
    (own : caller = .main → w.main = .deleting ∨ pc = .idle)
    (named : ∀ i psFunc, caller = .link i → pc = .sending psFunc →
      psFunc.pvFunc = some .algThreadHandler) :
    AlgBase mq (w.setCall caller pc) := by
  refine ⟨base.handle, base.live, base.freed, ?_, ?_⟩
  · intro other
    by_cases mine : .main = caller
    · subst mine
      rw [AlgWorld.setCall_self]
      exact (own rfl).resolve_left other
    · rw [AlgWorld.setCall_of_ne mine]
      exact base.quiet other
  · intro i psFunc sending
    by_cases mine : .link i = caller
    · subst mine
      rw [AlgWorld.setCall_self] at sending
      exact named i psFunc rfl sending
    · rw [AlgWorld.setCall_of_ne mine] at sending
      exact base.links i psFunc sending

theorem AlgBase.returns (base : AlgBase mq w) (caller : AlgCaller) :
    AlgBase mq (w.return' caller) := by
  have idle : AlgBase mq (w.setCall caller .idle) :=
    base.setCall (fun _ => .inr rfl) (fun _ _ _ => CallPc.noConfusion)
  cases caller with
  | main =>
    exact ⟨idle.handle, idle.live, idle.freed, fun _ => w.setCall_self .main .idle, idle.links⟩
  | link i => exact ⟨idle.handle, idle.live, idle.freed, idle.quiet, idle.links⟩

theorem AlgInv.returns (inv : AlgInv mq w) (caller : AlgCaller) : AlgInv mq (w.return' caller) := by
  refine ⟨inv.toAlgBase.returns caller, ?_⟩
  cases caller with
  | main => simp [MainPc.Deleted, AlgWorld.return']
  | link i => exact inv.deleted

theorem AlgInv.msgSendToAlg (inv : AlgInv mq w) (i : Nat) (pack : List UInt8) (memory : Bool) :
    AlgInv mq (w.msgSendToAlg i pack memory) := by
  unfold AlgWorld.msgSendToAlg
  split
  · exact ⟨⟨inv.handle, inv.live, inv.freed, inv.quiet, inv.links⟩, inv.deleted⟩
  · exact ⟨inv.toAlgBase.setCall AlgCaller.noConfusion fun _ _ _ => CallPc.noConfusion, inv.deleted⟩

/-- A frame's message does not end the task. -/
theorem AlgInv.mqSend (inv : AlgInv mq w)
    (named : ∀ i, caller = .link i → psFunc.pvFunc = some .algThreadHandler)
    (sent : w.mqSend mq psFunc = some w') : AlgInv mq (w'.return' caller) := by
  unfold AlgWorld.mqSend at sent
  split at sent
  · obtain rfl := Option.some.inj sent
    exact inv.returns caller
  · next queue opened =>
    split at sent
    · obtain rfl := Option.some.inj sent
      have base :
          AlgBase mq { w with mqs := Function.update w.mqs mq (some (queue ++ [psFunc])) } :=
        ⟨inv.handle, inv.live, inv.freed, inv.quiet, inv.links⟩
      refine ⟨base.returns caller, ?_⟩
      cases caller with
      | main => simp [MainPc.Deleted, AlgWorld.return']
      | link i =>
          rintro (thread | ⟨longer, here, psFunc', member, ends⟩)
          · exact inv.deleted (.inl thread)
          · obtain rfl : queue ++ [psFunc] = longer := by
              exact Option.some.inj ((Function.update_self mq _ w.mqs).symm.trans here)
            rcases List.mem_append.mp member with earlier | last
            · exact inv.deleted (.inr ⟨queue, opened, psFunc', earlier, ends⟩)
            · rw [List.mem_singleton.mp last, named i rfl] at ends
              cases ends
    · cases sent

theorem AlgInv.sysportTaskFunc_live (inv : AlgInv mq w) (running : w.thread ≠ .ended)
    (called : w.sysportTaskFunc caller = some w') :
    AlgInv mq w' ∧ w'.thread = w.thread ∧ w'.ruined = w.ruined := by
  unfold AlgWorld.sysportTaskFunc at called
  cases pc : w.calls caller with
  | idle => simp [pc] at called
  | malloced acInfo =>
      simp only [pc, inv.handle, inv.live running, Option.some.injEq] at called
      subst called
      refine ⟨⟨inv.toAlgBase.setCall ?_ ?_, inv.deleted⟩, rfl, rfl⟩
      · rintro rfl
        by_cases deleting : w.main = .deleting
        · exact .inl deleting
        · rw [inv.quiet deleting] at pc
          cases pc
      · rintro i psFunc rfl same
        cases same
        rfl
  | sending psFunc =>
      simp only [pc, inv.handle, inv.live running] at called
      obtain ⟨next, sent, rfl⟩ := Option.map_eq_some_iff.mp called
      refine ⟨inv.mqSend ?_ sent, ?_⟩
      · rintro i rfl
        exact inv.links i psFunc pc
      · rw [AlgWorld.return'_thread, AlgWorld.return'_ruined]
        exact AlgWorld.mqSend_frame sent

/-- A call that goes on behind the end of the task ruins the world. -/
theorem AlgInv.sysportTaskFunc_freed (inv : AlgInv mq w) (gone : w.thread = .ended)
    (pending : w.calls caller ≠ .idle) :
    w.sysportTaskFunc caller = some { w with ruined := true } := by
  unfold AlgWorld.sysportTaskFunc
  cases pc : w.calls caller with
  | idle => exact absurd pc pending
  | malloced acInfo => simp only [inv.handle, inv.freed gone]
  | sending psFunc => simp only [inv.handle, inv.freed gone]

theorem AlgBase.liveAt (base : AlgBase mq w) {thread : TaskPc} (here : w.thread = thread)
    (running : thread ≠ .ended) : w.modules w.psModule = some ⟨mq⟩ :=
  base.live (by rwa [here])

theorem AlgBase.quietAt (base : AlgBase mq w) {main : MainPc} (here : w.main = main)
    (other : main ≠ .deleting) :
    w.calls .main = .idle :=
  base.quiet (by rwa [here])

theorem AlgBase.goesOn (base : AlgBase mq w) (live : w.modules w.psModule = some ⟨mq⟩)
    {thread : TaskPc}
    (running : thread ≠ .ended) (mqs : Heap (List SysportTaskFunc)) (handled : List (List UInt8)) :
    AlgBase mq { w with mqs, thread, handled } :=
  ⟨base.handle, fun _ => live, fun ended => absurd ended running, base.quiet, base.links⟩

theorem AlgBase.proceeds (base : AlgBase mq w) (quiet : w.calls .main = .idle) (main : MainPc) :
    AlgBase mq { w with main } :=
  ⟨base.handle, base.live, base.freed, fun _ => quiet, base.links⟩

/-- Once the thread has left its loop the deletion has been sent. -/
theorem AlgInv.left (inv : AlgInv mq w) {thread : TaskPc} (here : w.thread = thread)
    (behind : thread ≠ .mqReceive) : w.main.Deleted :=
  inv.deleted (.inl (by rwa [here]))

theorem AlgInv.sysportTaskPthread (inv : AlgInv mq w) (went : w.sysportTaskPthread = some w') :
    AlgInv mq w' ∧ w'.ruined = w.ruined ∧ w'.calls = w.calls ∧ w'.main = w.main ∧
      (w'.thread = .ended ↔ w.thread = .free) := by
  unfold AlgWorld.sysportTaskPthread at went
  cases here : w.thread with
  | ended => simp [inv.freed here] at went
  | mqReceive =>
      have live := inv.liveAt here TaskPc.noConfusion
      simp only [live, here] at went
      split at went
      · next psFunc queue opened =>
        obtain rfl := Option.some.inj went
        cases ends : psFunc.pvFunc with
        | none =>
            have deleted :=
              inv.deleted (.inr ⟨psFunc :: queue, opened, psFunc, List.mem_cons_self, ends⟩)
            exact ⟨⟨inv.goesOn live TaskPc.noConfusion _ _, fun _ => deleted⟩, rfl, rfl,
              rfl, by simp⟩
        | some fn =>
            cases fn
            refine ⟨⟨inv.goesOn live TaskPc.noConfusion _ _, ?_⟩, rfl, rfl, rfl, by simp⟩
            rintro (thread | ⟨rest, now, later, member, ends⟩)
            · exact absurd rfl thread
            · obtain rfl : queue = rest :=
                Option.some.inj ((Function.update_self _ _ w.mqs).symm.trans now)
              exact inv.deleted (.inr ⟨_, opened, later, List.mem_cons_of_mem psFunc member, ends⟩)
      · cases went
  | mqClose =>
      have live := inv.liveAt here TaskPc.noConfusion
      simp only [live, here, Option.some.injEq] at went
      subst went
      exact ⟨⟨inv.goesOn live TaskPc.noConfusion _ _, fun _ => inv.left here TaskPc.noConfusion⟩,
        rfl, rfl, rfl, by simp⟩
  | mqUnlink =>
      have live := inv.liveAt here TaskPc.noConfusion
      simp only [live, here, Option.some.injEq] at went
      subst went
      exact ⟨⟨inv.goesOn live TaskPc.noConfusion _ _, fun _ => inv.left here TaskPc.noConfusion⟩,
        rfl, rfl, rfl, by simp⟩
  | free =>
      have live := inv.liveAt here TaskPc.noConfusion
      simp only [live, here, free_live live, Option.map_some, Option.some.injEq] at went
      subst went
      refine ⟨⟨⟨inv.handle, ?_, ?_, inv.quiet, inv.links⟩,
        fun _ => inv.left here TaskPc.noConfusion⟩, rfl, rfl, rfl, by simp⟩
      · exact fun running => absurd rfl running
      · exact fun _ => Function.update_self _ _ _

theorem AlgInv.mainStep (inv : AlgInv mq w) (went : w.mainStep memory = some w') :
    AlgInv mq w' ∧ w'.thread = w.thread ∧ w'.ruined = w.ruined ∧ ∀ i,
      w'.calls (.link i) = w.calls (.link i) := by
  unfold AlgWorld.mainStep at went
  cases here : w.main with
  | serving =>
      have quiet := inv.quietAt here MainPc.noConfusion
      simp only [here, Option.some.injEq] at went
      subst went
      refine ⟨⟨inv.proceeds quiet _, fun deleting => ?_⟩, rfl, rfl, fun _ => rfl⟩
      exact absurd here (inv.deleted deleting).1
  | algUninit =>
      have quiet := inv.quietAt here MainPc.noConfusion
      have undeleted (deleting : w.Deleting mq) : False := (inv.deleted deleting).2.1 here
      simp only [here, Option.some.injEq] at went
      subst went
      split
      · exact ⟨⟨inv.proceeds quiet _, fun deleting => (undeleted deleting).elim⟩, rfl, rfl,
          fun _ => rfl⟩
      · next pvInfo found =>
        have others (i : Nat) :
            (w.setCall .main (.malloced pvInfo)).calls (.link i) = w.calls (.link i) :=
          w.setCall_of_ne AlgCaller.noConfusion _
        refine ⟨⟨⟨inv.handle, inv.live, inv.freed, fun other => absurd rfl other, ?_⟩,
          fun deleting => ?_⟩, rfl, rfl, others⟩
        · intro i psFunc sending
          exact inv.links i psFunc ((others i).symm.trans sending)
        · exact (undeleted deleting).elim
  | deleting => simp [here] at went
  | radarNetworkRelease =>
      have quiet := inv.quietAt here MainPc.noConfusion
      simp only [here, Option.some.injEq] at went
      subst went
      exact ⟨⟨inv.proceeds quiet _, fun _ => by simp [MainPc.Deleted]⟩, rfl, rfl, fun _ => rfl⟩
  | commonUninit =>
      have quiet := inv.quietAt here MainPc.noConfusion
      simp only [here, Option.some.injEq] at went
      subst went
      exact ⟨⟨inv.proceeds quiet _, fun _ => by simp [MainPc.Deleted]⟩, rfl, rfl, fun _ => rfl⟩
  | returned => simp [here] at went

theorem AlgWorld.msgSendToAlg_refused (w : AlgWorld) (i : Nat) (pack : List UInt8) :
    w.msgSendToAlg i pack false = { w with returned := w.returned ++ [(i, -1)] } := by
  simp only [AlgWorld.msgSendToAlg, sysportTaskMalloc, Bool.and_false, Bool.false_eq_true, if_false]

theorem AlgBase.msgSendToAlg_accepted (base : AlgBase mq w) (i : Nat) (pack : List UInt8) :
    w.msgSendToAlg i pack true = w.setCall (.link i) (.malloced pack) := by
  simp only [AlgWorld.msgSendToAlg, sysportTaskMalloc, base.handle, Option.isSome_some,
    Bool.and_true, if_true]

theorem AlgWorld.step_event (stepped : w.step event = some w') :
    w.main ≠ .returned ∧ (match event with
      | .dispatch i pack memory => w' = w.msgSendToAlg i pack memory
      | .call caller => w.sysportTaskFunc caller = some w'
      | .thread => w.sysportTaskPthread = some w'
      | .main memory => w.mainStep memory = some w') := by
  unfold step at stepped
  split at stepped
  · cases stepped
  · next running =>
    refine ⟨running, ?_⟩
    cases event with
    | dispatch i pack memory =>
        simp only at stepped
        split at stepped
        · exact (Option.some.inj stepped).symm
        · cases stepped
    | call caller => exact stepped
    | thread => exact stepped
    | main memory => exact stepped

theorem AlgInv.step (inv : AlgInv mq w) (stepped : w.step event = some w') : AlgInv mq w' := by
  have taken := (AlgWorld.step_event stepped).2
  cases event with
  | dispatch i pack memory =>
      obtain rfl : w' = w.msgSendToAlg i pack memory := taken
      exact inv.msgSendToAlg i pack memory
  | call caller =>
      by_cases gone : w.thread = .ended
      · by_cases idle : w.calls caller = .idle
        · have called : w.sysportTaskFunc caller = some w' := taken
          simp [AlgWorld.sysportTaskFunc, idle] at called
        · obtain rfl := Option.some.inj ((inv.sysportTaskFunc_freed gone idle).symm.trans taken)
          exact ⟨⟨inv.handle, inv.live, inv.freed, inv.quiet, inv.links⟩, inv.deleted⟩
      · exact (inv.sysportTaskFunc_live gone taken).1
  | thread => exact (inv.sysportTaskPthread taken).1
  | main memory => exact (inv.mainStep taken).1

end Keep

/-! ## Behind the end of the task -/

/-- Nobody uses the module when it has been freed, and `msg_send_to_alg` fails then. -/
def EndsSafely (w : AlgWorld) (event : AlgEvent) (w' : AlgWorld) : Prop :=
  w'.ruined = false ∧
    (w.thread = .ended → ∀ i pack memory, event = .dispatch i pack memory →
      w'.returned = w.returned ++ [(i, -1)])

/-- No frame is on its way to the task when that frees its module, and none for
    which there is memory follows. -/
def KeepsClear (w : AlgWorld) (event : AlgEvent) (_ : AlgWorld) : Prop :=
  (w.thread = .free → event = .thread → ∀ i, w.calls (.link i) = .idle) ∧
    (w.thread = .ended → ∀ i pack, event ≠ .dispatch i pack true)

/-- The task and its callers, as long as the frames keep clear. -/
structure Calm (mq : Nat) (w : AlgWorld) : Prop extends AlgInv mq w where
  sound : w.ruined = false
  clear : w.thread = .ended → ∀ i, w.calls (.link i) = .idle

section Ends

variable {mq : Nat} {w w' : AlgWorld} {event : AlgEvent} {events : List AlgEvent}

theorem Calm.idle (calm : Calm mq w) (gone : w.thread = .ended) (caller : AlgCaller) :
    w.calls caller = .idle := by
  cases caller with
  | main =>
      exact calm.quiet (calm.left gone TaskPc.noConfusion).2.2
  | link i => exact calm.clear gone i

theorem Calm.step (calm : Calm mq w) (stepped : w.step event = some w')
    (clear : KeepsClear w event w') :
    Calm mq w' ∧ EndsSafely w event w' := by
  have inv := calm.toAlgInv.step stepped
  have taken := (AlgWorld.step_event stepped).2
  cases event with
  | dispatch i pack memory =>
      obtain rfl : w' = w.msgSendToAlg i pack memory := taken
      cases memory with
      | false =>
          rw [AlgWorld.msgSendToAlg_refused] at inv ⊢
          refine ⟨⟨inv, calm.sound, calm.clear⟩, calm.sound, fun _ j pack' memory same => ?_⟩
          cases same
          rfl
      | true =>
          rw [calm.msgSendToAlg_accepted] at inv ⊢
          have running : w.thread ≠ .ended := fun gone => clear.2 gone i pack rfl
          exact ⟨⟨inv, calm.sound, fun gone => absurd gone running⟩, calm.sound,
            fun gone => absurd gone running⟩
  | call caller =>
      by_cases gone : w.thread = .ended
      · have called : w.sysportTaskFunc caller = some w' := taken
        simp [AlgWorld.sysportTaskFunc, calm.idle gone caller] at called
      · obtain ⟨-, thread, sound⟩ := calm.sysportTaskFunc_live gone taken
        refine ⟨⟨inv, sound.trans calm.sound, fun gone' => absurd (thread.symm.trans gone') gone⟩,
          sound.trans calm.sound, fun gone' => absurd gone' gone⟩
  | thread =>
      obtain ⟨-, sound, calls, -, frees⟩ := calm.toAlgInv.sysportTaskPthread taken
      refine ⟨⟨inv, sound.trans calm.sound, fun gone i => ?_⟩, sound.trans calm.sound,
        fun _ _ _ _ => AlgEvent.noConfusion⟩
      rw [calls]
      exact clear.1 (frees.mp gone) rfl i
  | main memory =>
      obtain ⟨-, thread, sound, links⟩ := calm.toAlgInv.mainStep taken
      refine ⟨⟨inv, sound.trans calm.sound, fun gone i => ?_⟩, sound.trans calm.sound,
        fun _ _ _ _ => AlgEvent.noConfusion⟩
      rw [links]
      exact calm.clear (thread.symm.trans gone) i

/-- A step that does not keep clear is wrong itself, or the next one can be. -/
theorem AlgInv.keepsClear (inv : AlgInv mq w) (stepped : w.step event = some w')
    (safe : ∀ pending : List AlgCaller,
      AllSteps AlgWorld.step EndsSafely w ([event] ++ pending.map .call)) :
    KeepsClear w event w' := by
  obtain ⟨running, taken⟩ := AlgWorld.step_event stepped
  constructor
  · rintro freeing rfl i
    by_contra pending
    obtain ⟨inv', -, calls, main, frees⟩ := inv.sysportTaskPthread taken
    rw [← calls] at pending
    have ruins : w'.step (.call (.link i)) = some { w' with ruined := true } := by
      rw [AlgWorld.step, if_neg (main ▸ running)]
      exact inv'.sysportTaskFunc_freed (frees.mpr freeing) pending
    exact Bool.noConfusion (((safe [.link i]).tail stepped _ ruins).1.1)
  · rintro gone i pack rfl
    obtain rfl : w' = w.msgSendToAlg i pack true := taken
    have failed := ((safe []) _ stepped).1.2 gone i pack true rfl
    rw [inv.msgSendToAlg_accepted] at failed
    have lengths := congrArg List.length failed
    simp [AlgWorld.setCall] at lengths

theorem keepsClear_calls (w : AlgWorld) (pending : List AlgCaller) :
    AllSteps AlgWorld.step KeepsClear w (pending.map .call) := by
  induction pending generalizing w with
  | nil => trivial
  | cons caller pending ih =>
      intro w' _
      exact ⟨⟨fun _ => AlgEvent.noConfusion, fun _ _ _ => AlgEvent.noConfusion⟩, ih w'⟩

theorem Calm.safe (calm : Calm mq w) (clear : AllSteps AlgWorld.step KeepsClear w events) :
    AllSteps AlgWorld.step EndsSafely w events :=
  clear.of_invariant calm fun _ _ _ calm stepped clear => calm.step stepped clear

theorem AlgInv.clear (inv : AlgInv mq w)
    (safe : ∀ before, before <+: events → ∀ pending : List AlgCaller,
      AllSteps AlgWorld.step EndsSafely w (before ++ pending.map .call)) :
    AllSteps AlgWorld.step KeepsClear w events := by
  induction events generalizing w with
  | nil => trivial
  | cons event events ih =>
      intro w' stepped
      refine ⟨inv.keepsClear stepped (safe [event] ⟨events, rfl⟩), ih (inv.step stepped) ?_⟩
      intro before part pending
      have longer := safe (event :: before) (List.cons_prefix_cons.mpr ⟨rfl, part⟩) pending
      exact longer.tail stepped

end Ends

/-- However the calls on their way go on at any point of a run, nobody uses the
    freed module, exactly when every step of the run keeps clear of it. -/
theorem msgSendToAlg_safe_iff (psModule mq : Nat) (events : List AlgEvent) :
    (∀ before, before <+: events → ∀ pending : List AlgCaller,
        AllSteps AlgWorld.step EndsSafely (loadMultipleTargetsAlgs psModule mq) (before ++
          pending.map .call)) ↔
      AllSteps AlgWorld.step KeepsClear (loadMultipleTargetsAlgs psModule mq) events := by
  have start := algInv_start psModule mq
  constructor
  · exact start.clear
  · rintro clear before ⟨rest, rfl⟩ pending
    have calm : Calm mq (loadMultipleTargetsAlgs psModule mq) := ⟨start, rfl, TaskPc.noConfusion⟩
    exact calm.safe (clear.front.append fun w => keepsClear_calls w pending)

/-- The task is deleted and ends, and then a radar reports something. -/
def lateFrame : List AlgEvent :=
  [.main true, .main true, .call .main, .call .main, .thread, .thread, .thread, .thread,
    .dispatch 0 [1] true]

/-- Its report gets as far as the module that has been freed. -/
theorem msgSendToAlg_lateFrame :
    ¬ AllSteps AlgWorld.step EndsSafely (loadMultipleTargetsAlgs 0 0)
      (lateFrame ++ [.call (.link 0)]) := by
  intro safe
  have sound := (safe.last rfl rfl).1
  exact Bool.noConfusion sound

end PtzAgx.Algs
