import Mathlib.Data.List.DropRight
import PtzAgx.EthLink.TcpClients

/-! # The task of a client

A client connects, serves the connection and connects again, until somebody closes
it or until connecting has failed as often as it may. The outcomes of its calls come
one after another, and `tcp_client_close` of other threads in between.
-/

namespace PtzAgx.EthLink

/-! ## The task -/

inductive TcpClientCall where
  | connect
  | data
  | disconnect
  | delete
  deriving Repr, DecidableEq

/-- `tcp_client_cbk_t`: the callbacks that are not `NULL`. -/
structure TcpClientCbk where
  pvCbkConnect : Bool
  pvCbkData : Bool
  pvCbkDisconnect : Bool
  pvCbkDelete : Bool

/-- `sCbk` of `eth_link_create_tcp_client_list`. -/
def ethLinkClientCbk : TcpClientCbk := ⟨true, true, true, true⟩

/-- What the task is about to learn. -/
inductive TcpClientPc where
  /-- Whether `bFlagClose` is set, at the head of the outer loop. -/
  | head
  | connect
  /-- What `socket` returns for another attempt. -/
  | socket
  | select
  /-- In `pv_cbk_data`, which receives as often as it likes. -/
  | cbkData
  /-- `recv` for want of a `pv_cbk_data`. -/
  | recv
  | ended
  deriving Repr, DecidableEq

/-- `tcp_client_t`, and `uConnectCount` of its task. -/
structure TcpClientTask where
  pc : TcpClientPc
  bFlagInit : Bool
  bFlagConnect : Bool
  bFlagClose : Bool
  iSocket : Int
  uConnectCount : UInt32
  /-- How many threads in `tcp_client_close` have seen the connection and are about to
      set `bFlagClose`. -/
  closing : Nat
  deriving Repr, DecidableEq

/-- As `tcp_client_create` leaves it. -/
def tcpClientCreate (iSocket : Int) : TcpClientTask where
  pc := .head
  bFlagInit := true
  bFlagConnect := false
  bFlagClose := false
  iSocket
  uConnectCount := 0
  closing := 0

/-- The outcome of a call, a look at `bFlagClose`, the end of `pv_cbk_data`, or one of
    the two halves of `tcp_client_close` in another thread. -/
inductive TcpClientEvent where
  | head
  | connect (ret : Int)
  | socket (ret : Int)
  | select (ret : Int) (ebadf isSet : Bool)
  | recv (ret : Int)
  | dataReturns
  | closeTests
  | closeSets
  deriving Repr, DecidableEq

namespace TcpClientTask

variable (cbk : TcpClientCbk) (wConnectTime : UInt16)

/-- What follows the outer loop. -/
def exit (psClient : TcpClientTask) : TcpClientTask × List TcpClientCall :=
  ({ psClient with pc := .ended, iSocket := -1, bFlagInit := false, bFlagClose := false },
    if cbk.pvCbkDelete then [.delete] else [])

/-- What follows the inner loop. -/
def disconnect (psClient : TcpClientTask) : TcpClientTask × List TcpClientCall :=
  ({ psClient with pc := .head, bFlagConnect := false },
    if cbk.pvCbkDisconnect then [.disconnect] else [])

/-- The end of the inner loop's body. -/
def checkClose (psClient : TcpClientTask) : TcpClientTask × List TcpClientCall :=
  if psClient.bFlagClose then disconnect cbk psClient else ({ psClient with pc := .select }, [])

/-- `connect` failed. -/
def notConnected (psClient : TcpClientTask) : TcpClientTask × List TcpClientCall :=
  if wConnectTime ≠ 0 then
    let psClient := { psClient with uConnectCount := psClient.uConnectCount + 1 }
    if wConnectTime.toUInt32 ≤ psClient.uConnectCount then exit cbk psClient
    else ({ psClient with pc := .socket }, [])
  else ({ psClient with pc := .socket }, [])

def connected (psClient : TcpClientTask) : TcpClientTask × List TcpClientCall :=
  ({ psClient with bFlagConnect := true, uConnectCount := 0, pc := .select },
    if cbk.pvCbkConnect then [.connect] else [])

/-- `tcp_client_recv`, with what `recv` returned. -/
def tcpClientRecv (ret : Int) (psClient : TcpClientTask) : TcpClientTask :=
  if 0 ≥ ret then { psClient with bFlagConnect := false } else psClient

/-- The task goes on from what it waits for to the next such place. -/
def step (psClient : TcpClientTask) (event : TcpClientEvent) :
    Option (TcpClientTask × List TcpClientCall) :=
  match psClient.pc, event with
  | .ended, _ => none
  | _, .closeTests =>
    some (if psClient.bFlagConnect then { psClient with closing := psClient.closing + 1 }
      else psClient, [])
  | _, .closeSets =>
      if psClient.closing = 0 then none
      else some ({ psClient with closing := psClient.closing - 1, bFlagClose := true }, [])
  | .head, .head =>
    some (if psClient.bFlagClose then psClient.exit cbk else ({ psClient with pc := .connect }, []))
  | .connect, .connect ret =>
      some (if ret < 0 then psClient.notConnected cbk wConnectTime else psClient.connected cbk)
  | .socket, .socket ret => some ({ psClient with iSocket := ret, pc := .head }, [])
  | .select, .select ret ebadf isSet =>
      some (if 0 < ret then
          if isSet then
            if cbk.pvCbkData then ({ psClient with pc := .cbkData }, [.data])
              else ({ psClient with pc := .recv }, [])
          else psClient.checkClose cbk
        else if 0 > ret ∧ ebadf ∧ isSet then psClient.disconnect cbk
        else psClient.checkClose cbk)
  | .cbkData, .recv ret => some (psClient.tcpClientRecv ret, [])
  | .cbkData, .dataReturns =>
    some (if psClient.bFlagConnect then psClient.checkClose cbk else psClient.disconnect cbk)
  | .recv, .recv ret =>
      let psClient := psClient.tcpClientRecv ret
      some (if 0 ≥ ret then psClient.disconnect cbk
        else if psClient.bFlagConnect then psClient.checkClose cbk else psClient.disconnect cbk)
  | _, _ => none

end TcpClientTask

/-- A task with the callbacks it made. -/
structure ClientRun where
  psClient : TcpClientTask
  calls : List TcpClientCall
  deriving Repr, DecidableEq

def ClientRun.start (iSocket : Int) : ClientRun := ⟨tcpClientCreate iSocket, []⟩

def ClientRun.step (cbk : TcpClientCbk) (wConnectTime : UInt16) (r : ClientRun)
    (event : TcpClientEvent) :
    Option ClientRun :=
  (r.psClient.step cbk wConnectTime event).map fun (psClient, calls) => ⟨psClient, r.calls ++ calls⟩

/-! ## What a step can do -/

/-- Between connections, during one, and when the task has ended. -/
inductive ClientPhase where
  | waiting
  | connected
  | ended
  deriving DecidableEq

def TcpClientPc.phase : TcpClientPc → ClientPhase
  | .head | .connect | .socket => .waiting
  | .select | .cbkData | .recv => .connected
  | .ended => .ended

/-- The outcome of `connect`, if the event is one. -/
def TcpClientEvent.connectRet : TcpClientEvent → Option Int
  | .connect ret => some ret
  | _ => none

/-- How a task with all callbacks goes on: from which phase to which, with which
    callback, and what becomes of the counter. -/
inductive ClientMoves (wConnectTime : UInt16) (psClient : TcpClientTask) :
    TcpClientEvent → TcpClientTask × List TcpClientCall → Prop where
  | stays (event : TcpClientEvent) (next : TcpClientTask) :
      event.connectRet = none → psClient.pc ≠ .ended →
      next.pc.phase = psClient.pc.phase → next.uConnectCount = psClient.uConnectCount →
      (next.bFlagClose = true → psClient.bFlagClose = true ∨ event = .closeSets) →
      ClientMoves wConnectTime psClient event (next, [])
  | data (event : TcpClientEvent) : event.connectRet = none → psClient.pc.phase = .connected →
      ClientMoves wConnectTime psClient event ({ psClient with pc := .cbkData }, [.data])
  | disconnects (event : TcpClientEvent) (next : TcpClientTask) : event.connectRet = none →
      psClient.pc.phase = .connected → next.pc = .head →
      next.uConnectCount = psClient.uConnectCount →
      next.bFlagClose = psClient.bFlagClose → ClientMoves wConnectTime psClient event
      (next, [.disconnect])
  | connects (ret : Int) : 0 ≤ ret → psClient.pc = .connect →
      ClientMoves wConnectTime psClient (.connect ret) (psClient.connected ethLinkClientCbk)
  | fails (ret : Int) (next : TcpClientTask) :
      ret < 0 → psClient.pc = .connect → next.pc = .socket →
      (wConnectTime ≠ 0 → next.uConnectCount = psClient.uConnectCount + 1 ∧
        next.uConnectCount < wConnectTime.toUInt32) →
      next.bFlagClose = psClient.bFlagClose → ClientMoves wConnectTime psClient
      (.connect ret) (next, [])
  | closes (next : TcpClientTask) : psClient.pc = .head → psClient.bFlagClose = true →
      next.pc = .ended →
      ClientMoves wConnectTime psClient .head (next, [.delete])
  | givesUp (ret : Int) (next : TcpClientTask) :
      ret < 0 → psClient.pc = .connect → wConnectTime ≠ 0 →
      wConnectTime.toUInt32 ≤ psClient.uConnectCount + 1 → next.pc = .ended →
      next.bFlagClose = false →
      ClientMoves wConnectTime psClient (.connect ret) (next, [.delete])

section Moves

variable {wConnectTime : UInt16} {psClient : TcpClientTask} {event : TcpClientEvent}
  {result : TcpClientTask × List TcpClientCall}

theorem checkClose_moves {task : TcpClientTask} (own : event.connectRet = none)
    (during : psClient.pc.phase = .connected)
    (counts : task.uConnectCount = psClient.uConnectCount)
    (flag : task.bFlagClose = psClient.bFlagClose) :
    ClientMoves wConnectTime psClient event (task.checkClose ethLinkClientCbk) := by
  unfold TcpClientTask.checkClose
  split
  · exact .disconnects event _ own during rfl counts flag
  · refine .stays event _ own ?_ during.symm counts ?_
    · intro gone
      rw [gone] at during
      cases during
    · intro set
      exact .inl (flag ▸ set)

theorem notConnected_moves {ret : Int} (failed : ret < 0) (here : psClient.pc = .connect) :
    ClientMoves wConnectTime psClient (.connect ret)
      (psClient.notConnected ethLinkClientCbk wConnectTime) := by
  unfold TcpClientTask.notConnected
  by_cases limited : wConnectTime ≠ 0
  · rw [if_pos limited]
    by_cases reached : wConnectTime.toUInt32 ≤ psClient.uConnectCount + 1
    · rw [if_pos reached]
      exact .givesUp ret _ failed here limited reached rfl rfl
    · rw [if_neg reached]
      exact .fails ret _ failed here rfl (fun _ => ⟨rfl, UInt32.not_le.mp reached⟩) rfl
  · rw [if_neg limited]
    exact .fails ret _ failed here rfl (fun bounded => absurd bounded limited) rfl

theorem closeTests_moves (running : psClient.pc ≠ .ended)
    (stepped : psClient.step ethLinkClientCbk wConnectTime .closeTests = some result) :
    ClientMoves wConnectTime psClient .closeTests result := by
  simp only [TcpClientTask.step, Option.some.injEq] at stepped
  subst stepped
  refine .stays .closeTests _ rfl running ?_ ?_ ?_
  · simp only [apply_ite TcpClientTask.pc, ite_self]
  · simp only [apply_ite TcpClientTask.uConnectCount, ite_self]
  · simp only [apply_ite TcpClientTask.bFlagClose, ite_self]
    exact .inl

theorem closeSets_moves (running : psClient.pc ≠ .ended)
    (stepped : psClient.step ethLinkClientCbk wConnectTime .closeSets = some result) :
    ClientMoves wConnectTime psClient .closeSets result := by
  simp only [TcpClientTask.step, Option.ite_none_left_eq_some, Option.some.injEq] at stepped
  obtain ⟨-, rfl⟩ := stepped
  exact .stays .closeSets _ rfl running rfl rfl fun _ => .inr rfl

theorem head_moves (here : psClient.pc = .head)
    (stepped : psClient.step ethLinkClientCbk wConnectTime .head = some result) :
    ClientMoves wConnectTime psClient .head result := by
  simp only [TcpClientTask.step, here, Option.some.injEq] at stepped
  subst stepped
  split
  · next close => exact .closes _ here close rfl
  · refine .stays .head _ rfl ?_ ?_ rfl .inl
    · rw [here]
      exact TcpClientPc.noConfusion
    · rw [here]
      rfl

theorem connect_moves {ret : Int} (here : psClient.pc = .connect)
    (stepped : psClient.step ethLinkClientCbk wConnectTime (.connect ret) = some result) :
    ClientMoves wConnectTime psClient (.connect ret) result := by
  simp only [TcpClientTask.step, here, Option.some.injEq] at stepped
  subst stepped
  split
  · next failed => exact notConnected_moves failed here
  · next connected => exact .connects ret (Int.not_lt.mp connected) here

theorem socket_moves {ret : Int} (here : psClient.pc = .socket)
    (stepped : psClient.step ethLinkClientCbk wConnectTime (.socket ret) = some result) :
    ClientMoves wConnectTime psClient (.socket ret) result := by
  simp only [TcpClientTask.step, here, Option.some.injEq] at stepped
  subst stepped
  refine .stays (.socket ret) _ rfl ?_ ?_ rfl .inl
  · rw [here]
    exact TcpClientPc.noConfusion
  · rw [here]
    rfl

theorem select_moves {ret : Int} {ebadf isSet : Bool} (here : psClient.pc = .select)
    (stepped : psClient.step ethLinkClientCbk wConnectTime (.select ret ebadf isSet) =
      some result) :
    ClientMoves wConnectTime psClient (.select ret ebadf isSet) result := by
  have during : psClient.pc.phase = .connected := congrArg TcpClientPc.phase here
  simp only [TcpClientTask.step, here, Option.some.injEq] at stepped
  subst stepped
  split
  · split
    · exact .data (.select ret ebadf isSet) rfl during
    · exact checkClose_moves rfl during rfl rfl
  · split
    · exact .disconnects (.select ret ebadf isSet) _ rfl during rfl rfl rfl
    · exact checkClose_moves rfl during rfl rfl

theorem dataReturns_moves (here : psClient.pc = .cbkData)
    (stepped : psClient.step ethLinkClientCbk wConnectTime .dataReturns = some result) :
    ClientMoves wConnectTime psClient .dataReturns result := by
  have during : psClient.pc.phase = .connected := congrArg TcpClientPc.phase here
  simp only [TcpClientTask.step, here, Option.some.injEq] at stepped
  subst stepped
  split
  · exact checkClose_moves rfl during rfl rfl
  · exact .disconnects .dataReturns _ rfl during rfl rfl rfl

@[simp] theorem tcpClientRecv_pc (ret : Int) : (psClient.tcpClientRecv ret).pc = psClient.pc := by
  simp only [TcpClientTask.tcpClientRecv, apply_ite TcpClientTask.pc, ite_self]

@[simp] theorem tcpClientRecv_uConnectCount (ret : Int) :
    (psClient.tcpClientRecv ret).uConnectCount = psClient.uConnectCount := by
  simp only [TcpClientTask.tcpClientRecv, apply_ite TcpClientTask.uConnectCount, ite_self]

@[simp] theorem tcpClientRecv_bFlagClose (ret : Int) :
    (psClient.tcpClientRecv ret).bFlagClose = psClient.bFlagClose := by
  simp only [TcpClientTask.tcpClientRecv, apply_ite TcpClientTask.bFlagClose, ite_self]

theorem cbkDataRecv_moves {ret : Int} (here : psClient.pc = .cbkData)
    (stepped : psClient.step ethLinkClientCbk wConnectTime (.recv ret) = some result) :
    ClientMoves wConnectTime psClient (.recv ret) result := by
  simp only [TcpClientTask.step, here, Option.some.injEq] at stepped
  subst stepped
  refine .stays (.recv ret) _ rfl ?_ (by simp) (by simp) (by simp)
  rw [here]
  exact TcpClientPc.noConfusion

theorem recv_moves {ret : Int} (here : psClient.pc = .recv)
    (stepped : psClient.step ethLinkClientCbk wConnectTime (.recv ret) = some result) :
    ClientMoves wConnectTime psClient (.recv ret) result := by
  have during : psClient.pc.phase = .connected := congrArg TcpClientPc.phase here
  simp only [TcpClientTask.step, here, Option.some.injEq] at stepped
  subst stepped
  split
  · exact .disconnects (.recv ret) _ rfl during rfl (tcpClientRecv_uConnectCount ret)
      (tcpClientRecv_bFlagClose ret)
  · split
    · exact checkClose_moves rfl during (tcpClientRecv_uConnectCount ret)
        (tcpClientRecv_bFlagClose ret)
    · exact .disconnects (.recv ret) _ rfl during rfl (tcpClientRecv_uConnectCount ret)
        (tcpClientRecv_bFlagClose ret)

/-- One case for each place a task can be in; what it is not about to learn does not happen. -/
theorem step_moves (stepped : psClient.step ethLinkClientCbk wConnectTime event = some result) :
    ClientMoves wConnectTime psClient event result := by
  have evaluated := stepped
  unfold TcpClientTask.step at evaluated
  split at evaluated
  case h_1 => cases evaluated
  case h_2 running => exact closeTests_moves running stepped
  case h_3 running => exact closeSets_moves running stepped
  case h_4 here => exact head_moves here stepped
  case h_5 here => exact connect_moves here stepped
  case h_6 here => exact socket_moves here stepped
  case h_7 here => exact select_moves here stepped
  case h_8 here => exact cbkDataRecv_moves here stepped
  case h_9 here => exact dataReturns_moves here stepped
  case h_10 here => exact recv_moves here stepped
  case h_11 => cases evaluated

end Moves

/-! ## The life of a client -/

/-- Connections one after another, each with the number of times data came. -/
def connections (ns : List Nat) : List TcpClientCall :=
  ns.flatMap fun n => .connect :: List.replicate n .data ++ [.disconnect]

/-- The callbacks of a client from its start to its end. -/
def LifeCycle (calls : List TcpClientCall) : Prop := ∃ ns, calls = connections ns ++ [.delete]

/-- The callbacks made up to a phase. -/
def ClientPhase.Made (calls : List TcpClientCall) : ClientPhase → Prop
  | .waiting => ∃ ns, calls = connections ns
  | .connected => ∃ ns n, calls = connections ns ++ .connect :: List.replicate n .data
  | .ended => LifeCycle calls

/-- How many times connecting has failed since it last succeeded. -/
def failedConnects (events : List TcpClientEvent) : Nat :=
  ((events.filterMap TcpClientEvent.connectRet).rtakeWhile fun ret => ret < 0).length

/-- What holds of a client after these events. -/
structure ClientGoes (wConnectTime : UInt16) (events : List TcpClientEvent) (r : ClientRun) :
    Prop where
  calls : r.psClient.pc.phase.Made r.calls
  counted : wConnectTime ≠ 0 → r.psClient.pc ≠ .ended →
    r.psClient.uConnectCount.toNat = failedConnects events ∧
    failedConnects events < wConnectTime.toNat
  flag : r.psClient.bFlagClose = true → .closeSets ∈ events
  closed : wConnectTime = 0 → r.psClient.pc = .ended → .closeSets ∈ events

section Life

variable {wConnectTime : UInt16} {events : List TcpClientEvent} {event : TcpClientEvent}
  {r r' : ClientRun}
  {psClient : TcpClientTask} {result : TcpClientTask × List TcpClientCall}
  {calls : List TcpClientCall}
  {phase : ClientPhase}

theorem connections_concat (ns : List Nat) (n : Nat) :
    connections (ns ++ [n]) = connections ns ++ .connect :: List.replicate n .data ++
      [.disconnect] := by
  simp [connections]

theorem ClientPhase.Made.completes (made : phase.Made calls) :
    ∃ whole, LifeCycle whole ∧ calls <+: whole := by
  cases phase with
  | waiting =>
      obtain ⟨ns, rfl⟩ := made
      exact ⟨connections ns ++ [.delete], ⟨ns, rfl⟩, List.prefix_append _ _⟩
  | connected =>
      obtain ⟨ns, n, rfl⟩ := made
      refine ⟨connections (ns ++ [n]) ++ [.delete], ⟨ns ++ [n], rfl⟩, ?_⟩
      rw [connections_concat, List.append_assoc]
      exact List.prefix_append _ _
  | ended => exact ⟨calls, made, List.prefix_rfl⟩

theorem failedConnects_other (own : event.connectRet = none) :
    failedConnects (events ++ [event]) = failedConnects events := by
  unfold failedConnects
  rw [List.filterMap_append, List.filterMap_cons_none own, List.filterMap_nil, List.append_nil]

theorem failedConnects_connect (ret : Int) :
    failedConnects (events ++ [.connect ret]) =
      if ret < 0 then failedConnects events + 1 else 0 := by
  unfold failedConnects
  have outcome : [TcpClientEvent.connect ret].filterMap TcpClientEvent.connectRet = [ret] := rfl
  rw [List.filterMap_append, outcome]
  by_cases failed : ret < 0 <;> simp [failed]

theorem phase_eq_ended {pc : TcpClientPc} : pc.phase = .ended ↔ pc = .ended := by
  cases pc <;> decide

theorem ClientMoves.made (moves : ClientMoves wConnectTime psClient event result)
    (made : psClient.pc.phase.Made calls) :
    result.1.pc.phase.Made (calls ++ result.2) := by
  cases moves with
  | stays event next own running same =>
      rw [same, List.append_nil]
      exact made
  | data event own during =>
      rw [during] at made
      obtain ⟨ns, n, rfl⟩ := made
      refine ⟨ns, n + 1, ?_⟩
      rw [List.replicate_succ', List.append_assoc, List.cons_append]
  | disconnects event next own during back =>
      rw [during] at made
      obtain ⟨ns, n, rfl⟩ := made
      rw [back]
      exact ⟨ns ++ [n], (connections_concat ns n).symm⟩
  | connects ret established here =>
      rw [here] at made
      obtain ⟨ns, rfl⟩ := made
      exact ⟨ns, 0, rfl⟩
  | fails ret next failed here again =>
      rw [here] at made
      rw [again, List.append_nil]
      exact made
  | closes next here close gone =>
      rw [here] at made
      obtain ⟨ns, rfl⟩ := made
      rw [gone]
      exact ⟨ns, rfl⟩
  | givesUp ret next failed here limited reached gone =>
      rw [here] at made
      obtain ⟨ns, rfl⟩ := made
      rw [gone]
      exact ⟨ns, rfl⟩

theorem count_succ {uConnectCount : UInt32} (below : uConnectCount.toNat < wConnectTime.toNat) :
    (uConnectCount + 1).toNat = uConnectCount.toNat + 1 := by
  have limit := wConnectTime.toNat_lt
  rw [UInt32.toNat_add]
  exact Nat.mod_eq_of_lt (by simp; omega)

theorem ClientMoves.counted (moves : ClientMoves wConnectTime psClient event result)
    (limited : wConnectTime ≠ 0)
    (counts : psClient.uConnectCount.toNat = failedConnects events)
    (below : failedConnects events < wConnectTime.toNat) (running : result.1.pc ≠ .ended) :
    result.1.uConnectCount.toNat = failedConnects (events ++ [event]) ∧
      failedConnects (events ++ [event]) < wConnectTime.toNat := by
  cases moves with
  | stays event next own going same kept =>
      rw [failedConnects_other own, kept]
      exact ⟨counts, below⟩
  | data event own during =>
      rw [failedConnects_other own]
      exact ⟨counts, below⟩
  | disconnects event next own during back kept =>
      rw [failedConnects_other own, kept]
      exact ⟨counts, below⟩
  | connects ret established here =>
      rw [failedConnects_connect, if_neg (Int.not_lt.mpr established)]
      exact ⟨rfl, Nat.zero_lt_of_lt below⟩
  | fails ret next failed here again kept =>
      obtain ⟨up, room⟩ := kept limited
      have one := count_succ (counts ▸ below)
      rw [UInt32.lt_iff_toNat_lt, up, one, counts, UInt16.toNat_toUInt32] at room
      rw [failedConnects_connect, if_pos failed, up, one, counts]
      exact ⟨rfl, room⟩
  | closes next here close gone => exact absurd gone running
  | givesUp ret next failed here bounded reached gone => exact absurd gone running

theorem ClientMoves.ended (moves : ClientMoves wConnectTime psClient event result)
    (ended : result.1.pc = .ended)
    (counts : wConnectTime ≠ 0 →
      psClient.uConnectCount.toNat = failedConnects events ∧
      failedConnects events < wConnectTime.toNat) :
    (event = .head ∧ psClient.bFlagClose = true) ∨
      (wConnectTime ≠ 0 ∧ (∃ ret < 0, event = .connect ret) ∧
        failedConnects (events ++ [event]) = wConnectTime.toNat) := by
  cases moves with
  | stays event next own going same =>
      rw [ended] at same
      exact absurd (phase_eq_ended.mp same.symm) going
  | data event own during => cases ended
  | disconnects event next own during back =>
      rw [back] at ended
      cases ended
  | connects ret established here => cases ended
  | fails ret next failed here again =>
      rw [again] at ended
      cases ended
  | closes next here close gone => exact .inl ⟨rfl, close⟩
  | givesUp ret next failed here limited reached gone =>
      obtain ⟨counted, below⟩ := counts limited
      have one := count_succ (counted ▸ below)
      rw [UInt32.le_iff_toNat_le, one, counted, UInt16.toNat_toUInt32] at reached
      refine .inr ⟨limited, ⟨ret, failed, rfl⟩, ?_⟩
      rw [failedConnects_connect, if_pos failed]
      exact Nat.le_antisymm below reached

theorem ClientMoves.flag (moves : ClientMoves wConnectTime psClient event result)
    (set : result.1.bFlagClose = true) : psClient.bFlagClose = true ∨ event = .closeSets := by
  cases moves with
  | stays event next own going same kept flag => exact flag set
  | data event own during => exact .inl set
  | disconnects event next own during back kept flag => exact .inl (flag ▸ set)
  | connects ret established here => exact .inl set
  | fails ret next failed here again kept flag => exact .inl (flag ▸ set)
  | closes next here close gone => exact .inl close
  | givesUp ret next failed here limited reached gone clear =>
      rw [clear] at set
      cases set

theorem ClientMoves.running (moves : ClientMoves wConnectTime psClient event result) :
    psClient.pc ≠ .ended := by
  cases moves with
  | stays event next own going => exact going
  | data event own during | disconnects event next own during =>
      intro gone
      rw [gone] at during
      cases during
  | connects ret established here | fails ret next failed here | closes next here
  | givesUp ret next failed here =>
      rw [here]
      exact TcpClientPc.noConfusion

theorem ClientGoes.step (goes : ClientGoes wConnectTime events r)
    (stepped : r.step ethLinkClientCbk wConnectTime event = some r') :
    ClientGoes wConnectTime (events ++ [event]) r' := by
  obtain ⟨result, taken, rfl⟩ := Option.map_eq_some_iff.mp stepped
  have moves := step_moves taken
  have counts := fun limited => goes.counted limited moves.running
  constructor
  case calls => exact moves.made goes.calls
  case counted =>
    intro limited running
    obtain ⟨counted, below⟩ := counts limited
    exact moves.counted limited counted below running
  case flag =>
    intro set
    rcases moves.flag set with before | rfl
    · exact List.mem_append_left [event] (goes.flag before)
    · exact List.mem_append_right events List.mem_cons_self
  case closed =>
    intro unlimited gone
    rcases moves.ended gone counts with ⟨-, set⟩ | ⟨limited, -⟩
    · exact List.mem_append_left [event] (goes.flag set)
    · exact absurd unlimited limited

theorem ClientGoes.run {later : List TcpClientEvent} (goes : ClientGoes wConnectTime events r)
    (ran : later.foldlM (ClientRun.step ethLinkClientCbk wConnectTime) r = some r') :
    ClientGoes wConnectTime (events ++ later) r' := by
  induction later generalizing events r with
  | nil =>
      obtain rfl := Option.some.inj ran
      rwa [List.append_nil]
  | cons event later ih =>
      obtain ⟨next, stepped, rest⟩ := Option.bind_eq_some_iff.mp ran
      have further := ih (goes.step stepped) rest
      rwa [List.append_assoc] at further

theorem ClientGoes.start (wConnectTime : UInt16) (iSocket : Int) :
    ClientGoes wConnectTime [] (ClientRun.start iSocket) where
  calls := ⟨[], rfl⟩
  counted limited _ := ⟨rfl, Nat.pos_of_ne_zero fun zero => limited (UInt16.toNat_inj.mp zero)⟩
  flag set := nomatch set
  closed _ gone := nomatch gone

end Life

/-- Every run of a client with all callbacks: what it calls, what ends it, and that
    without a limit only a request to close does. -/
theorem tcpClientTask_lifeCycle (wConnectTime : UInt16) (iSocket : Int)
    (events : List TcpClientEvent) (r : ClientRun)
    (ran : events.foldlM (ClientRun.step ethLinkClientCbk wConnectTime) (ClientRun.start iSocket) =
      some r) :
    (∃ whole, LifeCycle whole ∧ r.calls <+: whole) ∧
      (∀ last after, r.step ethLinkClientCbk wConnectTime last = some after →
        after.psClient.pc = .ended →
        (last = .head ∧ r.psClient.bFlagClose = true) ∨
          (wConnectTime ≠ 0 ∧ (∃ ret < 0, last = .connect ret) ∧
            failedConnects (events ++ [last]) = wConnectTime.toNat)) ∧
      (wConnectTime = 0 → r.psClient.pc = .ended → .closeSets ∈ events) := by
  have goes := (ClientGoes.start wConnectTime iSocket).run ran
  refine ⟨goes.calls.completes, ?_, goes.closed⟩
  intro last after stepped ended
  obtain ⟨result, taken, rfl⟩ := Option.map_eq_some_iff.mp stepped
  have moves := step_moves taken
  exact moves.ended ended fun limited => goes.counted limited moves.running

/-- A connection with data is lost, and connecting fails twice after it. -/
def lostAndGivenUp : List TcpClientEvent :=
  [.head, .connect (-1), .socket 4, .head, .connect 0, .select 1 false true, .recv 8, .recv 0,
    .dataReturns, .head, .connect (-1), .socket 5, .head, .connect (-1)]

theorem tcpClientTask_lifeCycle_lost :
    ∃ r, lostAndGivenUp.foldlM (ClientRun.step ethLinkClientCbk 2) (ClientRun.start 3) = some r ∧
      r.calls = [.connect, .data, .disconnect, .delete] ∧
      (∃ whole, LifeCycle whole ∧ r.calls <+: whole) :=
  ⟨_, rfl, rfl, (tcpClientTask_lifeCycle 2 3 lostAndGivenUp _ rfl).1⟩

end PtzAgx.EthLink
