import PtzAgx.Algs.AlgTask

/-! # What the algorithm task receives

Each connection's thread hands its messages to the task one after the other, and
the task's thread takes them from the queue. Whatever happens in which order, the
task receives a merge of what the connections dispatched.
-/

namespace PtzAgx.Algs

open Alloc

/-- The message a connection hands over with this event, if there is memory for it. -/
def AlgEvent.dispatches (i : Nat) : AlgEvent → Option (List UInt8)
  | .dispatch j pack true => if j = i then some pack else none
  | _ => none

def dispatched (i : Nat) (events : List AlgEvent) : List (List UInt8) :=
  events.filterMap (AlgEvent.dispatches i)

/-- What a call has still to send. -/
def CallPc.pending : CallPc → List (List UInt8)
  | .idle => []
  | .malloced acInfo => [acInfo]
  | .sending psFunc => [psFunc.acInfo]

/-- What the task's thread calls the handler with. -/
def SysportTaskFunc.message (psFunc : SysportTaskFunc) : Option (List UInt8) :=
  psFunc.pvFunc.map fun _ => psFunc.acInfo

/-- The messages of one connection in a log of arrivals. -/
def arrivals (i : Nat) (log : List (Nat × List UInt8)) : List (List UInt8) :=
  log.filterMap fun arrival => if arrival.1 = i then some arrival.2 else none

/-- `log` has what got into the queue so far. While the queue is open, the handler was
    called with all of it but what waits there, and all that was dispatched is in it
    but for the calls on their way. -/
structure Delivered (mq : Nat) (events : List AlgEvent) (log : List (Nat × List UInt8))
    (w : AlgWorld) : Prop where
  handled : w.handled <+: log.map Prod.snd
  arrived : ∀ i, arrivals i log <+: dispatched i events
  deletes : ∀ psFunc, w.calls .main = .sending psFunc → psFunc.pvFunc = none
  waiting : ∀ queue, w.mqs mq = some queue → log.map Prod.snd = w.handled ++
    queue.filterMap SysportTaskFunc.message
  underway : w.mqs mq ≠ none → ∀ i, dispatched i events = arrivals i log ++
    (w.calls (.link i)).pending

section Steps

variable {mq psModule i j : Nat} {w w' : AlgWorld} {caller : AlgCaller} {pack : List UInt8}
  {memory : Bool}
  {event : AlgEvent} {events : List AlgEvent} {log : List (Nat × List UInt8)}
  {psFunc : SysportTaskFunc}

@[simp] theorem dispatched_concat :
    dispatched i (events ++ [event]) = dispatched i events ++ (event.dispatches i).toList := by
  simp only [dispatched, List.filterMap_append, List.filterMap_cons, List.filterMap_nil]
  cases event.dispatches i <;> rfl

@[simp] theorem arrivals_concat :
    arrivals i (log ++ [(j, pack)]) = arrivals i log ++ if j = i then [pack] else [] := by
  by_cases same : j = i <;> simp [arrivals, same]

theorem AlgWorld.step_dispatch (stepped : w.step (.dispatch i pack memory) = some w') :
    w.calls (.link i) = .idle ∧ w' = w.msgSendToAlg i pack memory := by
  unfold step at stepped
  split at stepped
  · cases stepped
  · simp only [Option.ite_none_right_eq_some, Option.some.injEq] at stepped
    exact ⟨stepped.1, stepped.2.symm⟩

theorem delivered_start (psModule mq : Nat) :
    Delivered mq [] [] (loadMultipleTargetsAlgs psModule mq) where
  handled := List.prefix_rfl
  arrived _ := List.prefix_rfl
  deletes _ sending := nomatch sending
  waiting queue opened := by
    obtain rfl : [] = queue := by simpa [loadMultipleTargetsAlgs] using opened
    rfl
  underway _ _ := rfl

theorem Delivered.frame (delivered : Delivered mq events log w)
    (nothing : ∀ i, event.dispatches i = none)
    (handled : w'.handled = w.handled) (mqs : w'.mqs = w.mqs)
    (pending : ∀ i, (w'.calls (.link i)).pending = (w.calls (.link i)).pending)
    (deletes : ∀ psFunc, w'.calls .main = .sending psFunc → psFunc.pvFunc = none) :
    Delivered mq (events ++ [event]) log w' where
  handled := by simpa [handled] using delivered.handled
  arrived i := by simpa [nothing i] using delivered.arrived i
  deletes := deletes
  waiting := by simpa [handled, mqs] using delivered.waiting
  underway := by simpa [nothing, mqs, pending] using delivered.underway

theorem Delivered.dispatch (delivered : Delivered mq events log w) (base : AlgBase mq w)
    (idle : w.calls (.link i) = .idle) :
    Delivered mq (events ++ [.dispatch i pack memory]) log (w.msgSendToAlg i pack memory) := by
  cases memory with
  | false =>
      rw [w.msgSendToAlg_refused]
      exact delivered.frame (fun _ => rfl) rfl rfl (fun _ => rfl) delivered.deletes
  | true =>
      rw [base.msgSendToAlg_accepted]
      refine ⟨delivered.handled, fun k => ?_, fun psFunc sending => ?_, delivered.waiting,
        fun opened k => ?_⟩
      · rw [dispatched_concat]
        exact (delivered.arrived k).trans (List.prefix_append _ _)
      · rw [AlgWorld.setCall_of_ne AlgCaller.noConfusion] at sending
        exact delivered.deletes psFunc sending
      · have before := delivered.underway opened k
        by_cases here : i = k
        · subst here
          simp [before, idle, CallPc.pending, AlgEvent.dispatches]
        · have other : AlgCaller.link k ≠ .link i := by simpa using Ne.symm here
          simp [before, AlgWorld.setCall_of_ne other, AlgEvent.dispatches, here]

@[simp] theorem AlgWorld.return'_mqs (w : AlgWorld) (caller : AlgCaller) :
    (w.return' caller).mqs = w.mqs := by
  cases caller <;> rfl

@[simp] theorem AlgWorld.return'_handled (w : AlgWorld) (caller : AlgCaller) :
    (w.return' caller).handled = w.handled := by
  cases caller <;> rfl

@[simp] theorem AlgWorld.return'_calls (w : AlgWorld) (caller : AlgCaller) :
    (w.return' caller).calls = Function.update w.calls caller .idle := by
  cases caller <;> rfl

theorem AlgWorld.mqSend_cases (sent : w.mqSend mq psFunc = some w') :
    (w.mqs mq = none ∧ w' = w) ∨
      ∃ queue, w.mqs mq = some queue ∧
      w' = { w with mqs := Function.update w.mqs mq (some (queue ++ [psFunc])) } := by
  unfold mqSend at sent
  cases opened : w.mqs mq with
  | none => simp_all
  | some queue =>
      simp only [opened, Option.ite_none_right_eq_some, Option.some.injEq] at sent
      exact .inr ⟨queue, rfl, sent.2.symm⟩

theorem Delivered.late (delivered : Delivered mq events log w) (closed : w.mqs mq = none)
    (caller : AlgCaller) :
    Delivered mq (events ++ [.call caller]) log (w.return' caller) where
  handled := by simpa using delivered.handled
  arrived i := by simpa [AlgEvent.dispatches] using delivered.arrived i
  deletes psFunc sending := by
    cases caller with
    | main => simp at sending
    | link i => exact delivered.deletes psFunc (by simpa using sending)
  waiting queue opened := by simp [closed] at opened
  underway opened := by simp [closed] at opened

/-- The deletion is no message for the handler. -/
theorem Delivered.sendMain (delivered : Delivered mq events log w) {queue : List SysportTaskFunc}
    (opened : w.mqs mq = some queue) (deletes : psFunc.pvFunc = none) :
    Delivered mq (events ++ [.call .main]) log
      (AlgWorld.return' { w with mqs := Function.update w.mqs mq (some (queue ++ [psFunc])) } .main)
      where
  handled := by simpa using delivered.handled
  arrived i := by simpa [AlgEvent.dispatches] using delivered.arrived i
  deletes psFunc sending := by simp at sending
  waiting longer now := by
    obtain rfl : queue ++ [psFunc] = longer := by simpa using now
    simp [delivered.waiting queue opened, SysportTaskFunc.message, deletes]
  underway _ i := by
    have before := delivered.underway (by simp [opened]) i
    simpa [AlgEvent.dispatches] using before

theorem Delivered.sendLink (delivered : Delivered mq events log w) {queue : List SysportTaskFunc}
    (opened : w.mqs mq = some queue) (pc : w.calls (.link i) = .sending psFunc)
    (named : psFunc.pvFunc = some .algThreadHandler) :
    Delivered mq (events ++ [.call (.link i)]) (log ++ [(i, psFunc.acInfo)])
      (AlgWorld.return' { w with mqs := Function.update w.mqs mq (some (queue ++ [psFunc])) }
        (.link i)) where
  handled := by
    rw [List.map_append, AlgWorld.return'_handled]
    exact delivered.handled.trans (List.prefix_append _ _)
  arrived k := by
    have before := delivered.underway (by simp [opened]) k
    by_cases here : i = k
    · subst here
      simp [before, pc, CallPc.pending, AlgEvent.dispatches]
    · simp [before, AlgEvent.dispatches, here]
  deletes other sending := delivered.deletes other (by simpa using sending)
  waiting longer now := by
    obtain rfl : queue ++ [psFunc] = longer := by simpa using now
    simp [delivered.waiting queue opened, SysportTaskFunc.message, named]
  underway _ k := by
    have before := delivered.underway (by simp [opened]) k
    by_cases here : i = k
    · subst here
      simp [before, pc, CallPc.pending, AlgEvent.dispatches]
    · have other : AlgCaller.link k ≠ .link i := by simpa using Ne.symm here
      simp [before, AlgEvent.dispatches, here, Function.update_of_ne other]

theorem Delivered.send (delivered : Delivered mq events log w)
    (pc : w.calls caller = .sending psFunc)
    (named : ∀ i, caller = .link i → psFunc.pvFunc = some .algThreadHandler)
    (sent : w.mqSend mq psFunc = some w') :
    ∃ log, Delivered mq (events ++ [.call caller]) log (w'.return' caller) := by
  obtain ⟨closed, rfl⟩ | ⟨queue, opened, rfl⟩ := AlgWorld.mqSend_cases sent
  · exact ⟨log, delivered.late closed caller⟩
  · cases caller with
    | main => exact ⟨log, delivered.sendMain opened (delivered.deletes psFunc pc)⟩
    | link i => exact ⟨_, delivered.sendLink opened pc (named i rfl)⟩

theorem Delivered.call (delivered : Delivered mq events log w) (base : AlgBase mq w)
    (called : w.sysportTaskFunc caller = some w') :
    ∃ log, Delivered mq (events ++ [.call caller]) log w' := by
  unfold AlgWorld.sysportTaskFunc at called
  cases pc : w.calls caller with
  | idle => simp [pc] at called
  | malloced acInfo =>
      simp only [pc, base.handle] at called
      cases module : w.modules w.psModule with
      | none =>
          simp only [module, Option.some.injEq] at called
          subst called
          exact ⟨log, delivered.frame (fun _ => rfl) rfl rfl (fun _ => rfl) delivered.deletes⟩
      | some psModule =>
          simp only [module, Option.some.injEq] at called
          subst called
          refine ⟨log, delivered.frame (fun _ => rfl) rfl rfl (fun i => ?_)
            fun psFunc sending => ?_⟩
          · by_cases here : AlgCaller.link i = caller
            · subst here
              simp [pc, CallPc.pending]
            · rw [AlgWorld.setCall_of_ne here]
          · by_cases here : AlgCaller.main = caller
            · subst here
              simp only [AlgWorld.setCall_self, CallPc.sending.injEq] at sending
              subst sending
              rfl
            · rw [AlgWorld.setCall_of_ne here] at sending
              exact delivered.deletes psFunc sending
  | sending psFunc =>
      simp only [pc, base.handle] at called
      cases module : w.modules w.psModule with
      | none =>
          simp only [module, Option.some.injEq] at called
          subst called
          exact ⟨log, delivered.frame (fun _ => rfl) rfl rfl (fun _ => rfl) delivered.deletes⟩
      | some psModule =>
          have running : w.thread ≠ .ended := fun ended => by simp [base.freed ended] at module
          obtain rfl : ⟨mq⟩ = psModule := Option.some.inj ((base.live running).symm.trans module)
          simp only [module] at called
          obtain ⟨next, sent, rfl⟩ := Option.map_eq_some_iff.mp called
          exact delivered.send pc (fun i mine => base.links i psFunc (mine ▸ pc)) sent

theorem Delivered.thread (delivered : Delivered mq events log w) (base : AlgBase mq w)
    (went : w.sysportTaskPthread = some w') : Delivered mq (events ++ [.thread]) log w' := by
  unfold AlgWorld.sysportTaskPthread at went
  cases here : w.thread with
  | ended => simp [base.freed here] at went
  | mqReceive =>
      simp only [base.liveAt here TaskPc.noConfusion, here] at went
      cases opened : w.mqs mq with
      | none => simp [opened] at went
      | some queue =>
          cases queue with
          | nil => simp [opened] at went
          | cons psFunc queue =>
              simp only [opened, Option.some.injEq] at went
              subst went
              have waiting := delivered.waiting _ opened
              have underway := delivered.underway (by simp [opened])
              cases ends : psFunc.pvFunc with
              | none =>
                  refine ⟨delivered.handled, by simpa [AlgEvent.dispatches] using delivered.arrived,
                    delivered.deletes, fun rest now => ?_,
                    fun _ => by simpa [AlgEvent.dispatches] using underway⟩
                  obtain rfl : queue = rest := by simpa using now
                  simpa [SysportTaskFunc.message, ends] using waiting
              | some fn =>
                  cases fn
                  have taken : log.map Prod.snd = (w.handled ++ [psFunc.acInfo]) ++
                      queue.filterMap SysportTaskFunc.message := by
                    simpa [SysportTaskFunc.message, ends] using waiting
                  refine ⟨?_, by simpa [AlgEvent.dispatches] using delivered.arrived,
                    delivered.deletes, fun rest now => ?_,
                    fun _ => by simpa [AlgEvent.dispatches] using underway⟩
                  · rw [taken]
                    exact List.prefix_append _ _
                  · obtain rfl : queue = rest := by simpa using now
                    exact taken
  | mqClose =>
      simp only [base.liveAt here TaskPc.noConfusion, here, Option.some.injEq] at went
      subst went
      refine ⟨delivered.handled, by simpa [AlgEvent.dispatches] using delivered.arrived,
        delivered.deletes, ?_, ?_⟩
      · simp
      · simp
  | mqUnlink =>
      simp only [base.liveAt here TaskPc.noConfusion, here, Option.some.injEq] at went
      subst went
      exact delivered.frame (fun _ => rfl) rfl rfl (fun _ => rfl) delivered.deletes
  | free =>
      have live := base.liveAt here TaskPc.noConfusion
      simp only [live, here, free_live live, Option.map_some, Option.some.injEq] at went
      subst went
      exact delivered.frame (fun _ => rfl) rfl rfl (fun _ => rfl) delivered.deletes

/-- `main` sends nothing itself but begins the call of the deletion. -/
theorem Delivered.main (delivered : Delivered mq events log w)
    (went : w.mainStep memory = some w') :
    Delivered mq (events ++ [.main memory]) log w' := by
  unfold AlgWorld.mainStep at went
  cases here : w.main with
  | algUninit =>
      simp only [here, Option.some.injEq] at went
      subst went
      split
      · exact delivered.frame (fun _ => rfl) rfl rfl (fun _ => rfl) delivered.deletes
      · refine delivered.frame (fun _ => rfl) rfl rfl (fun i => ?_) fun psFunc sending => ?_
        · simp [AlgWorld.setCall_of_ne]
        · simp at sending
  | deleting | returned => simp [here] at went
  | serving | radarNetworkRelease | commonUninit =>
      simp only [here, Option.some.injEq] at went
      subst went
      exact delivered.frame (fun _ => rfl) rfl rfl (fun _ => rfl) delivered.deletes

theorem Delivered.step (delivered : Delivered mq events log w) (base : AlgBase mq w)
    (stepped : w.step event = some w') :
    ∃ log, Delivered mq (events ++ [event]) log w' := by
  have taken := (AlgWorld.step_event stepped).2
  cases event with
  | dispatch i pack memory =>
      obtain ⟨idle, rfl⟩ := AlgWorld.step_dispatch stepped
      exact ⟨log, delivered.dispatch base idle⟩
  | call caller => exact delivered.call base taken
  | thread => exact ⟨log, delivered.thread base taken⟩
  | main memory => exact ⟨log, delivered.main taken⟩

theorem Delivered.run
    (ran : events.foldlM AlgWorld.step (loadMultipleTargetsAlgs psModule mq) = some w) :
    ∃ log, Delivered mq events log w := by
  have history : AlgInv mq w ∧ ∃ log, Delivered mq events log w := by
    refine foldlM_history (H := fun events w => AlgInv mq w ∧ ∃ log, Delivered mq events log w)
      ⟨algInv_start psModule mq, [], delivered_start psModule mq⟩ ?_ ran
    rintro before s event s' ⟨inv, log, delivered⟩ stepped
    exact ⟨inv.step stepped, delivered.step inv.toAlgBase stepped⟩
  exact history.2

end Steps

/-- In every run the handler is called with the beginning of a merge of what the
    connections dispatched: nothing twice, nothing changed and each connection's messages
    in their order. While the queue is open nothing is lost: what is missing waits in the
    queue or in a call on its way. -/
theorem algTask_delivers {psModule mq : Nat} {events : List AlgEvent} {w : AlgWorld}
    (ran : events.foldlM AlgWorld.step (loadMultipleTargetsAlgs psModule mq) = some w) :
    ∃ log : List (Nat × List UInt8), w.handled <+: log.map Prod.snd ∧
      (∀ i, arrivals i log <+: dispatched i events) ∧
      ∀ queue, w.mqs mq = some queue → log.map Prod.snd = w.handled ++
      queue.filterMap SysportTaskFunc.message ∧
        ∀ i, dispatched i events = arrivals i log ++ (w.calls (.link i)).pending := by
  obtain ⟨log, delivered⟩ := Delivered.run ran
  refine ⟨log, delivered.handled, delivered.arrived,
    fun queue opened => ⟨delivered.waiting queue opened, ?_⟩⟩
  exact delivered.underway (by simp [opened])

/-- Two connections send at once, and the task's thread takes one of their messages. -/
def twoSenders : List AlgEvent :=
  [.dispatch 0 [1] true, .dispatch 1 [2] true, .call (.link 1), .call (.link 0), .call (.link 1),
    .call (.link 0), .thread]

theorem algTask_delivers_two :
    ∃ w, twoSenders.foldlM AlgWorld.step (loadMultipleTargetsAlgs 0 0) = some w ∧
    ∃ log : List (Nat × List UInt8), w.handled <+: log.map Prod.snd ∧
      (∀ i, arrivals i log <+: dispatched i twoSenders) ∧
      ∀ queue, w.mqs 0 = some queue → log.map Prod.snd = w.handled ++
      queue.filterMap SysportTaskFunc.message ∧
        ∀ i, dispatched i twoSenders = arrivals i log ++ (w.calls (.link i)).pending :=
  ⟨_, rfl, algTask_delivers
    (show twoSenders.foldlM AlgWorld.step (loadMultipleTargetsAlgs 0 0) = some _ from rfl)⟩

end PtzAgx.Algs
