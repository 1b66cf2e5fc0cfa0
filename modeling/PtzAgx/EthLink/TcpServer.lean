import Mathlib.Data.List.Pairwise
import PtzAgx.EthLink.ServerRegistry

/-! # The task of a server

A server for radars waits for one connection, serves it and ends. What the task
learns from the system are the outcomes of its calls, one after another; other
threads may ask for the connection to be closed, announce devices and end
servers of their own in between.
-/

namespace PtzAgx.EthLink

open Alloc Bytes

/-! ## The callbacks -/

inductive TcpServerCall where
  | connect
  | data
  | disconnect
  | delete
  deriving Repr, DecidableEq

/-- `tcp_server_cbk_t`: the callbacks that are not `NULL`. -/
structure TcpServerCbk where
  pvCbkConnect : Bool
  pvCbkData : Bool
  pvCbkDisconnect : Bool
  pvCbkDelete : Bool

/-- `sCbk` of `eth_link_create_tcp_server_list`. -/
def ethLinkServerCbk : TcpServerCbk := ⟨true, true, true, true⟩

/-- The callbacks of an entry, as far as the registry is concerned. What the user
    of the connection does in them is his business. -/
def ethLinkSocketCbk (psList : Nat) (psEthList : EthLinkList) : TcpServerCall → Option EthLinkList
  | .connect | .data | .disconnect => some psEthList
  | .delete =>
      (ethLinkDelTcpServerList serverListFuel psList psEthList.servers).map fun servers =>
        { psEthList with servers }

/-! ## The task -/

/-- The call whose outcome the task waits for. -/
inductive TcpServerPc where
  | socket
  | bind
  | listen
  /-- `select` of `accept_timeout`. -/
  | acceptSelect
  | accept
  | select
  /-- In `pv_cbk_data`, which receives as often as it likes. -/
  | cbkData
  /-- `recv` for want of a `pv_cbk_data`. -/
  | recv
  | getsockopt
  | ended
  deriving Repr, DecidableEq

/-- `tcp_server_t`, and `uConnectCount` of its task. -/
structure TcpServerTask where
  pc : TcpServerPc
  bFlagInit : Bool
  bFlagConnect : Bool
  bFlagClose : Bool
  iSocket : Int
  clientFd : Int
  uConnectCount : UInt32

/-- As `tcp_server_create` leaves it. -/
def tcpServerCreate : TcpServerTask where
  pc := .socket
  bFlagInit := true
  bFlagConnect := false
  bFlagClose := false
  iSocket := 0
  clientFd := 0
  uConnectCount := 0

/-- The outcome of a call, the end of `pv_cbk_data`, or `tcp_server_close` of another
    thread. -/
inductive TcpServerEvent where
  | socket (ret : Int)
  | bind (ret : Int)
  | listen (ret : Int)
  | acceptSelect (ret : Int) (eintr : Bool)
  | accept (ret : Int)
  | select (ret : Int) (isSet : Bool)
  | recv (ret : Int)
  | dataReturns
  | getsockopt (tcpiState : UInt8)
  | close

def tcpEstablished : UInt8 := 1
def tcpListen : UInt8 := 10

namespace TcpServerTask

variable (cbk : TcpServerCbk) (wConnectTime : UInt16)

/-- `return NULL`. -/
def giveUp (psserver : TcpServerTask) : TcpServerTask × List TcpServerCall :=
  ({ psserver with pc := .ended }, [])

/-- What follows the outer loop. -/
def exit (psserver : TcpServerTask) : TcpServerTask × List TcpServerCall :=
  ({ psserver with
      pc := .ended, clientFd := -1, iSocket := -1, bFlagInit := false, bFlagClose := false },
    if cbk.pvCbkDelete then [.delete] else [])

/-- What follows the inner loop. -/
def disconnect (psserver : TcpServerTask) : TcpServerTask × List TcpServerCall :=
  let (psserver, calls) := exit cbk { psserver with bFlagConnect := false }
  (psserver, (if cbk.pvCbkDisconnect then [.disconnect] else []) ++ calls)

/-- The end of the inner loop's body. -/
def checkClose (psserver : TcpServerTask) : TcpServerTask × List TcpServerCall :=
  if psserver.bFlagClose then disconnect cbk psserver else ({ psserver with pc := .select }, [])

/-- `psserver->client_fd < 0`. -/
def notAccepted (clientFd : Int) (psserver : TcpServerTask) : TcpServerTask × List TcpServerCall :=
  let psserver := { psserver with clientFd }
  if wConnectTime ≠ 0 then
    let psserver := { psserver with uConnectCount := psserver.uConnectCount + 1 }
    if wConnectTime.toUInt32 ≤ psserver.uConnectCount then exit cbk psserver
    else ({ psserver with pc := .acceptSelect }, [])
  else ({ psserver with pc := .acceptSelect }, [])

def accepted (clientFd : Int) (psserver : TcpServerTask) : TcpServerTask × List TcpServerCall :=
  ({ psserver with clientFd, bFlagConnect := true, uConnectCount := 0, pc := .select },
    if cbk.pvCbkConnect then [.connect] else [])

/-- `tcp_server_recv`, with what `recv` returned. -/
def tcpServerRecv (ret : Int) (psserver : TcpServerTask) : TcpServerTask :=
  if 0 ≥ ret then { psserver with bFlagConnect := false } else psserver

/-- The task goes on from the call it waits for to the next one. -/
def step (psserver : TcpServerTask) (event : TcpServerEvent) :
    Option (TcpServerTask × List TcpServerCall) :=
  match psserver.pc, event with
  | .ended, _ => none
  | _, .close =>
    some (if psserver.bFlagConnect then { psserver with bFlagClose := true } else psserver, [])
  | .socket, .socket ret =>
      let psserver := { psserver with iSocket := ret }
      some (if ret < 0 then psserver.giveUp else ({ psserver with pc := .bind }, []))
  | .bind, .bind ret =>
    some (if ret < 0 then psserver.giveUp else ({ psserver with pc := .listen }, []))
  | .listen, .listen ret =>
    some (if ret ≠ 0 then psserver.giveUp else ({ psserver with pc := .acceptSelect }, []))
  | .acceptSelect, .acceptSelect ret eintr =>
      some (if ret < 0 ∧ eintr then (psserver, [])
        else if ret = -1 ∨ ret = 0 then psserver.notAccepted cbk wConnectTime (-1)
        else ({ psserver with pc := .accept }, []))
  | .accept, .accept ret =>
      some (if ret < 0 then psserver.notAccepted cbk wConnectTime ret
        else psserver.accepted cbk ret)
  | .select, .select ret isSet =>
      if 0 < ret then
        let psserver := { psserver with uConnectCount := 0 }
        some (if isSet then
            if cbk.pvCbkData then ({ psserver with pc := .cbkData }, [.data])
              else ({ psserver with pc := .recv }, [])
          else psserver.checkClose cbk)
      else
        let psserver := { psserver with uConnectCount := psserver.uConnectCount + 1 }
        some (if wConnectTime.toUInt32 ≤ psserver.uConnectCount then psserver.disconnect cbk
          else ({ psserver with pc := .getsockopt }, []))
  | .cbkData, .recv ret => some (psserver.tcpServerRecv ret, [])
  | .cbkData, .dataReturns =>
    some (if psserver.bFlagConnect then psserver.checkClose cbk else psserver.disconnect cbk)
  | .recv, .recv ret =>
      let psserver := psserver.tcpServerRecv ret
      some (if 0 ≥ ret then psserver.disconnect cbk
        else if psserver.bFlagConnect then psserver.checkClose cbk else psserver.disconnect cbk)
  | .getsockopt, .getsockopt tcpiState =>
      some (if tcpiState = tcpEstablished ∨ tcpiState = tcpListen then psserver.checkClose cbk
        else psserver.disconnect cbk)
  | _, _ => none

end TcpServerTask

/-! ## Among other threads -/

/-- Something happens to the task, or another thread calls the registry. -/
inductive ServerEvent where
  | task (event : TcpServerEvent)
  | registry (call : RegistryCall)

/-- A task with the callbacks it made, and the registry, unless that was ruined. -/
structure ServerWorld where
  psserver : TcpServerTask
  calls : List TcpServerCall
  psEthList : Option EthLinkList

def ServerWorld.start (psEthList : EthLinkList) : ServerWorld :=
  ⟨tcpServerCreate, [], some psEthList⟩

/-- The call ends the server of that entry. -/
def RegistryCall.ends (psList : Nat) : RegistryCall → Bool
  | .add _ _ => false
  | .del other => other == psList

/-- Only its own task ends a server, and a run is over when the task is. -/
def ServerWorld.step (psList : Nat) (wConnectTime : UInt16) (w : ServerWorld) :
    ServerEvent → Option ServerWorld
  | .task event =>
      (w.psserver.step ethLinkServerCbk wConnectTime event).map fun (psserver, calls) =>
        { psserver
          calls := w.calls ++ calls
          psEthList := w.psEthList.bind fun psEthList =>
            calls.foldlM (ethLinkSocketCbk psList) psEthList }
  | .registry call =>
      if w.psserver.pc = .ended ∨ call.ends psList then none
      else some
        { w with psEthList := w.psEthList.bind fun psEthList => (call.run psEthList).map Prod.snd }

def ServerWorld.run (psList : Nat) (wConnectTime : UInt16) :
    List ServerEvent → ServerWorld → Option ServerWorld
  | [], w => some w
  | event :: events, w => (w.step psList wConnectTime event).bind (run psList wConnectTime events)

/-! ## How a task proceeds -/

/-- Before the connection, during it, and when the task has ended. -/
inductive ServerPhase where
  | waiting
  | connected
  | ended
  deriving DecidableEq

def TcpServerPc.phase : TcpServerPc → ServerPhase
  | .socket | .bind | .listen | .acceptSelect | .accept => .waiting
  | .select | .cbkData | .recv | .getsockopt => .connected
  | .ended => .ended

/-- The set-up calls did what they were to do. -/
def TcpServerEvent.Succeeds : TcpServerEvent → Prop
  | .socket ret | .bind ret => 0 ≤ ret
  | .listen ret => ret = 0
  | _ => True

/-- The callbacks made from one phase to the next. -/
inductive Proceeds : ServerPhase → List TcpServerCall → ServerPhase → Prop where
  | waits : Proceeds .waiting [] .waiting
  | connects : Proceeds .waiting [.connect] .connected
  | stays : Proceeds .connected [] .connected
  | data : Proceeds .connected [.data] .connected
  | unmet : Proceeds .waiting [.delete] .ended
  | disconnects : Proceeds .connected [.disconnect, .delete] .ended

/-- What a step leads to. A failed set-up ends the task without a callback. -/
def TcpServerEvent.Leads (event : TcpServerEvent) (phase : ServerPhase)
    (result : TcpServerTask × List TcpServerCall) : Prop :=
  (event.Succeeds ∧ Proceeds phase result.2 result.1.pc.phase) ∨
    (¬ event.Succeeds ∧ result.2 = [] ∧ result.1.pc.phase = .ended)

section Proceed

variable {psserver : TcpServerTask} {wConnectTime : UInt16} {event : TcpServerEvent}
  {phase : ServerPhase}
  {result : TcpServerTask × List TcpServerCall}

theorem Proceeds.stay (running : phase ≠ .ended) : Proceeds phase [] phase := by
  cases phase with
  | waiting => exact .waits
  | connected => exact .stays
  | ended => exact absurd rfl running

theorem checkClose_proceeds (psserver : TcpServerTask) :
    Proceeds .connected (psserver.checkClose ethLinkServerCbk).2
      (psserver.checkClose ethLinkServerCbk).1.pc.phase := by
  unfold TcpServerTask.checkClose
  split
  · exact .disconnects
  · exact .stays

theorem notAccepted_proceeds (wConnectTime : UInt16) (clientFd : Int) (psserver : TcpServerTask) :
    Proceeds .waiting (psserver.notAccepted ethLinkServerCbk wConnectTime clientFd).2
      (psserver.notAccepted ethLinkServerCbk wConnectTime clientFd).1.pc.phase := by
  simp only [TcpServerTask.notAccepted]
  split
  · split
    · exact .unmet
    · exact .waits
  · exact .waits

theorem setUp_leads {pc : TcpServerPc} {fails : Prop} [Decidable fails] {next task : TcpServerTask}
    (here : psserver.pc = pc) (waiting : pc.phase = .waiting) (succeeds : event.Succeeds ↔ ¬ fails)
    (goesOn : next.pc.phase = .waiting)
    (stepped : some (if fails then task.giveUp else (next, [])) = some result) :
    psserver.pc.phase ≠ .ended ∧ event.Leads psserver.pc.phase result := by
  obtain rfl := Option.some.inj stepped
  rw [here, waiting]
  refine ⟨ServerPhase.noConfusion, ?_⟩
  by_cases failed : fails
  · rw [if_pos failed]
    exact .inr ⟨fun good => succeeds.mp good failed, rfl, rfl⟩
  · rw [if_neg failed]
    refine .inl ⟨succeeds.mpr failed, ?_⟩
    rw [goesOn]
    exact .waits

theorem Proceeds.leads {pc : TcpServerPc} {next : TcpServerTask × List TcpServerCall}
    (here : psserver.pc = pc)
    (running : pc.phase ≠ .ended) (succeeds : event.Succeeds) (stepped : some next = some result)
    (proceeds : Proceeds pc.phase next.2 next.1.pc.phase) :
    psserver.pc.phase ≠ .ended ∧ event.Leads psserver.pc.phase result := by
  obtain rfl := Option.some.inj stepped
  rw [here]
  exact ⟨running, .inl ⟨succeeds, proceeds⟩⟩

theorem close_leads (running : psserver.pc ≠ .ended)
    (stepped : psserver.step ethLinkServerCbk wConnectTime .close = some result) :
    psserver.pc.phase ≠ .ended ∧ TcpServerEvent.close.Leads psserver.pc.phase result := by
  have going : psserver.pc.phase ≠ .ended := by
    intro gone
    cases pc : psserver.pc with
    | ended => exact running pc
    | _ => rw [pc] at gone; cases gone
  refine Proceeds.leads rfl going trivial (by simpa only [TcpServerTask.step] using stepped) ?_
  simp only [apply_ite TcpServerTask.pc, ite_self]
  exact .stay going

theorem acceptSelect_leads {ret : Int} {eintr : Bool} (here : psserver.pc = .acceptSelect)
    (stepped : psserver.step ethLinkServerCbk wConnectTime (.acceptSelect ret eintr) =
      some result) :
    psserver.pc.phase ≠ .ended ∧
      (TcpServerEvent.acceptSelect ret eintr).Leads psserver.pc.phase result := by
  simp only [TcpServerTask.step, here] at stepped
  refine Proceeds.leads here (by decide) trivial stepped ?_
  split
  · rw [here]
    exact .waits
  · split
    · exact notAccepted_proceeds wConnectTime (-1) psserver
    · exact .waits

theorem accept_leads {ret : Int} (here : psserver.pc = .accept)
    (stepped : psserver.step ethLinkServerCbk wConnectTime (.accept ret) = some result) :
    psserver.pc.phase ≠ .ended ∧ (TcpServerEvent.accept ret).Leads psserver.pc.phase result := by
  simp only [TcpServerTask.step, here] at stepped
  refine Proceeds.leads here (by decide) trivial stepped ?_
  split
  · exact notAccepted_proceeds wConnectTime ret psserver
  · exact .connects

theorem select_leads {ret : Int} {isSet : Bool} (here : psserver.pc = .select)
    (stepped : psserver.step ethLinkServerCbk wConnectTime (.select ret isSet) = some result) :
    psserver.pc.phase ≠ .ended ∧
      (TcpServerEvent.select ret isSet).Leads psserver.pc.phase result := by
  simp only [TcpServerTask.step, here] at stepped
  split at stepped
  · refine Proceeds.leads here (by decide) trivial stepped ?_
    split
    · exact .data
    · exact checkClose_proceeds _
  · refine Proceeds.leads here (by decide) trivial stepped ?_
    split
    · exact .disconnects
    · exact .stays

theorem cbkDataRecv_leads {ret : Int} (here : psserver.pc = .cbkData)
    (stepped : psserver.step ethLinkServerCbk wConnectTime (.recv ret) = some result) :
    psserver.pc.phase ≠ .ended ∧ (TcpServerEvent.recv ret).Leads psserver.pc.phase result := by
  simp only [TcpServerTask.step, here] at stepped
  refine Proceeds.leads here (by decide) trivial stepped ?_
  simp only [TcpServerTask.tcpServerRecv, apply_ite TcpServerTask.pc, ite_self, here]
  exact .stays

theorem recv_leads {ret : Int} (here : psserver.pc = .recv)
    (stepped : psserver.step ethLinkServerCbk wConnectTime (.recv ret) = some result) :
    psserver.pc.phase ≠ .ended ∧ (TcpServerEvent.recv ret).Leads psserver.pc.phase result := by
  simp only [TcpServerTask.step, here] at stepped
  refine Proceeds.leads here (by decide) trivial stepped ?_
  split
  · exact .disconnects
  · split
    · exact checkClose_proceeds _
    · exact .disconnects

theorem dataReturns_leads (here : psserver.pc = .cbkData)
    (stepped : psserver.step ethLinkServerCbk wConnectTime .dataReturns = some result) :
    psserver.pc.phase ≠ .ended ∧ TcpServerEvent.dataReturns.Leads psserver.pc.phase result := by
  simp only [TcpServerTask.step, here] at stepped
  refine Proceeds.leads here (by decide) trivial stepped ?_
  split
  · exact checkClose_proceeds psserver
  · exact .disconnects

theorem getsockopt_leads {tcpiState : UInt8} (here : psserver.pc = .getsockopt)
    (stepped : psserver.step ethLinkServerCbk wConnectTime (.getsockopt tcpiState) = some result) :
    psserver.pc.phase ≠ .ended ∧
      (TcpServerEvent.getsockopt tcpiState).Leads psserver.pc.phase result := by
  simp only [TcpServerTask.step, here] at stepped
  refine Proceeds.leads here (by decide) trivial stepped ?_
  split
  · exact checkClose_proceeds psserver
  · exact .disconnects

theorem listen_succeeds {ret : Int} : TcpServerEvent.Succeeds (.listen ret) ↔ ¬ ret ≠ 0 :=
  not_not.symm

/-- One case for each place a task can be in; what it does not wait for does not happen. -/
theorem step_leads (stepped : psserver.step ethLinkServerCbk wConnectTime event = some result) :
    psserver.pc.phase ≠ .ended ∧ event.Leads psserver.pc.phase result := by
  have evaluated := stepped
  unfold TcpServerTask.step at evaluated
  split at evaluated
  case h_1 => cases evaluated
  case h_2 running => exact close_leads running stepped
  case h_3 here => exact setUp_leads here rfl Int.not_lt.symm rfl evaluated
  case h_4 here => exact setUp_leads here rfl Int.not_lt.symm rfl evaluated
  case h_5 here => exact setUp_leads here rfl listen_succeeds rfl evaluated
  case h_6 here => exact acceptSelect_leads here stepped
  case h_7 here => exact accept_leads here stepped
  case h_8 here => exact select_leads here stepped
  case h_9 here => exact cbkDataRecv_leads here stepped
  case h_10 here => exact dataReturns_leads here stepped
  case h_11 here => exact recv_leads here stepped
  case h_12 here => exact getsockopt_leads here stepped
  case h_13 => cases evaluated

end Proceed

/-! ## What other threads leave alone -/

section Keep

variable {x : Nat} {t t' : TcpList TcpServer} {psEthList after : EthLinkList} {ret : Int}

theorem create_keeps {created : Option Nat} {a : Nat} {port : UInt16} (live : (t.entries x).isSome)
    (made : ethLinkCreateTcpServerList created port t = some (a, t')) : (t'.entries x).isSome := by
  obtain ⟨⟨c, entries⟩, allocated, same⟩ := Option.map_eq_some_iff.mp made
  cases same
  exact malloc_keeps live allocated

theorem nameServer_keeps {sn : Ptr UInt8} {a : Nat} (live : (t.entries x).isSome)
    (named : nameServer sn a t = some t') : (t'.entries x).isSome := by
  obtain ⟨entries, modified, rfl⟩ := Option.map_eq_some_iff.mp named
  exact modify_keeps live modified

theorem ethLinkAddToServers_keeps {sn : Ptr UInt8} {created : Option Nat}
    {registered : List (Nat × TcpServer)}
    {psList : Nat × TcpServer} (live : (psEthList.servers.entries x).isSome)
    (added : ethLinkAddToServers sn created registered psList psEthList = some (ret, after)) :
    (after.servers.entries x).isSome := by
  unfold ethLinkAddToServers at added
  simp only at added
  split at added
  · cases added
    exact live
  · split at added
    · obtain ⟨servers, named, same⟩ := Option.map_eq_some_iff.mp added
      cases same
      exact nameServer_keeps live named
    · split at added
      · split at added
        · cases added
          exact live
        · next psNext servers made =>
          obtain ⟨servers', named, same⟩ := Option.map_eq_some_iff.mp added
          cases same
          refine nameServer_keeps ?_ named
          have kept := create_keeps live made
          exact kept
      · cases added
        exact live

theorem ethLinkAddTcpServerList_keeps {sn : Ptr UInt8} {created : Option Nat}
    (live : (psEthList.servers.entries x).isSome)
    (added : ethLinkAddTcpServerList sn created psEthList = some (ret, after)) :
    (after.servers.entries x).isSome := by
  unfold ethLinkAddTcpServerList at added
  split at added
  · cases added
  · split at added
    · cases added
      exact live
    · next psList servers made =>
      obtain ⟨servers', named, same⟩ := Option.map_eq_some_iff.mp added
      cases same
      refine nameServer_keeps ?_ named
      have kept := create_keeps live made
      exact kept
  · exact ethLinkAddToServers_keeps live added

/-- No call but its own end frees the entry of a server. -/
theorem RegistryCall.run_keeps {call : RegistryCall} (live : (psEthList.servers.entries x).isSome)
    (other : call.ends x = false) (ran : call.run psEthList = some (ret, after)) :
    (after.servers.entries x).isSome := by
  cases call with
  | add sn created => exact ethLinkAddTcpServerList_keeps live ran
  | del psList =>
      have different : x ≠ psList := by
        rintro rfl
        simp [ends] at other
      rw [run] at ran
      split at ran
      · obtain ⟨servers, removed, same⟩ := Option.map_eq_some_iff.mp ran
        cases same
        obtain ⟨list, -, rest⟩ := Option.bind_eq_some_iff.mp removed
        obtain ⟨entries, freed, rfl⟩ := Option.map_eq_some_iff.mp rest
        exact free_keeps live different freed
      · cases ran
        exact live

end Keep

/-! ## How a server ends -/

/-- The callbacks of a server that ends as it should. -/
def Unregisters (calls : List TcpServerCall) : Prop :=
  calls = [.delete] ∨ ∃ n, calls = .connect :: List.replicate n .data ++ [.disconnect, .delete]

/-- The entry is gone, and its serial number is free. -/
def Released (psList : Nat) (before after : Option EthLinkList) : Prop :=
  ∃ l l' servers left, before = some l ∧ after = some l' ∧ l.servers.Lists servers ∧
    l'.servers.Lists left ∧
    left.Sublist servers ∧ l'.servers.entries psList = none ∧
    ∀ server, (psList, server) ∈ servers → ∀ e ∈ left, e.2.named (Ptr.ofList server.radarSn) = false

/-- The callbacks made up to a phase. -/
def CallsUpTo (calls : List TcpServerCall) : ServerPhase → Prop
  | .waiting => calls = []
  | .connected => ∃ n, calls = .connect :: List.replicate n .data
  | .ended => Unregisters calls

/-- A server whose task runs. -/
structure Going (psList : Nat) (w : ServerWorld) : Prop where
  running : w.psserver.pc.phase ≠ .ended
  calls : CallsUpTo w.calls w.psserver.pc.phase
  registry : ∃ l servers, w.psEthList = some l ∧ l.Holds servers ∧ Distinct servers ∧
    (l.servers.entries psList).isSome

def ServerEvent.Succeeds : ServerEvent → Prop
  | .task event => event.Succeeds
  | .registry _ => True

section End

variable {psList : Nat} {l : EthLinkList} {servers : List (Nat × TcpServer)}
  {phase phase' : ServerPhase}
  {before calls : List TcpServerCall} {w w' : ServerWorld} {event : ServerEvent}
  {events : List ServerEvent}
  {wConnectTime : UInt16}

theorem Unregisters.deletes (unregisters : Unregisters calls) : .delete ∈ calls := by
  rcases unregisters with rfl | ⟨n, rfl⟩
  · exact List.mem_cons_self
  · simp

theorem CallsUpTo.not_deleted (upTo : CallsUpTo calls phase) (running : phase ≠ .ended) :
    .delete ∉ calls := by
  cases phase with
  | waiting =>
      obtain rfl : calls = [] := upTo
      exact List.not_mem_nil
  | connected =>
      obtain ⟨n, rfl⟩ : ∃ n, calls = .connect :: List.replicate n .data := upTo
      simp
  | ended => exact absurd rfl running

theorem Proceeds.callsUpTo (proceeds : Proceeds phase calls phase')
    (upTo : CallsUpTo before phase) :
    CallsUpTo (before ++ calls) phase' := by
  cases proceeds with
  | waits => simpa [CallsUpTo] using upTo
  | connects =>
      obtain rfl : before = [] := upTo
      exact ⟨0, rfl⟩
  | stays => simpa [CallsUpTo] using upTo
  | data =>
      obtain ⟨n, rfl⟩ : ∃ n, before = .connect :: List.replicate n .data := upTo
      exact ⟨n + 1, by rw [List.replicate_succ', List.cons_append]⟩
  | unmet =>
      obtain rfl : before = [] := upTo
      exact .inl rfl
  | disconnects =>
      obtain ⟨n, rfl⟩ : ∃ n, before = .connect :: List.replicate n .data := upTo
      exact .inr ⟨n, rfl⟩

/-- Only `pv_cbk_delete` touches the registry, at the end. -/
theorem Proceeds.registry (proceeds : Proceeds phase calls phase') (psList : Nat)
    (l : EthLinkList) :
    calls.foldlM (ethLinkSocketCbk psList) l =
      if phase' = .ended then ethLinkSocketCbk psList l .delete else some l := by
  cases proceeds with
  | unmet => simp
  | disconnects => simp [ethLinkSocketCbk]
  | _ => rfl

theorem delete_releases (holds : l.Holds servers) (distinct : Distinct servers)
    (live : (l.servers.entries psList).isSome) :
    Released psList (some l) (ethLinkSocketCbk psList l .delete) := by
  obtain ⟨t', left, removed, lists, part⟩ := holds.lists.del live holds.few
  have freed := TcpList.del_frees removed
  have ran : ethLinkSocketCbk psList l .delete = some { l with servers := t' } :=
    congrArg (Option.map _) removed
  refine ⟨l, { l with servers := t' }, servers, left, rfl, ran, holds.lists, lists, part, freed, ?_⟩
  intro server listed e member
  have other : e ≠ (psList, server) := by
    rintro rfl
    exact lists.fresh freed (List.mem_map_of_mem member)
  have symm : Std.Symm fun a b : Nat × TcpServer => a.2.name ≠ b.2.name := ⟨fun _ _ => Ne.symm⟩
  have differ := distinct.names.forall (part.subset member) listed other
  exact Bool.eq_false_iff.mpr fun named => differ (TcpServer.named_iff.mp named)

theorem Going.step (going : Going psList w) (stepped : w.step psList wConnectTime event = some w') :
    (event.Succeeds ∧ Going psList w') ∨ (w'.psserver.pc.phase = .ended ∧
      ((event.Succeeds ∧ Unregisters w'.calls ∧ Released psList w.psEthList w'.psEthList) ∨
        (¬ event.Succeeds ∧ ¬ Unregisters w'.calls))) := by
  obtain ⟨l, servers, known, holds, distinct, live⟩ := going.registry
  cases event with
  | task event =>
      obtain ⟨⟨psserver, calls⟩, taken, rfl⟩ := Option.map_eq_some_iff.mp stepped
      obtain ⟨-, ⟨succeeds, proceeds⟩ | ⟨fails, silent, gone⟩⟩ := step_leads taken
      · have upTo := proceeds.callsUpTo going.calls
        have registry := proceeds.registry psList l
        simp only [known, Option.bind_some]
        by_cases gone : psserver.pc.phase = .ended
        · rw [gone] at upTo
          rw [if_pos gone] at registry
          refine .inr ⟨gone, .inl ⟨succeeds, upTo, ?_⟩⟩
          rw [registry]
          exact delete_releases holds distinct live
        · rw [if_neg gone] at registry
          exact .inl ⟨succeeds, gone, upTo, l, servers, registry, holds, distinct, live⟩
      · refine .inr ⟨gone, .inr ⟨fails, fun unregisters => ?_⟩⟩
        have deletes : .delete ∈ w.calls ++ calls := Unregisters.deletes unregisters
        have none' : calls = [] := silent
        rw [none', List.append_nil] at deletes
        exact going.calls.not_deleted going.running deletes
  | registry call =>
      rw [ServerWorld.step] at stepped
      split at stepped
      · cases stepped
      · next own =>
        obtain rfl := Option.some.inj stepped
        obtain ⟨ret, after, servers', ran, sound⟩ := call.run_sound holds distinct
        have other : call.ends psList = false := Bool.eq_false_iff.mpr (not_or.mp own).2
        have kept := RegistryCall.run_keeps live other ran
        refine .inl ⟨trivial, going.running, going.calls, after, servers', ?_, sound.after,
          sound.moves.distinct distinct, kept⟩
        simp only [known, Option.bind_some, ran, Option.map_some]

theorem phase_ended_iff {pc : TcpServerPc} : pc.phase = .ended ↔ pc = .ended := by
  cases pc <;> decide

theorem step_running (stepped : w.step psList wConnectTime event = some w') :
    w.psserver.pc ≠ .ended := by
  intro gone
  cases event with
  | task event =>
      obtain ⟨result, taken, -⟩ := Option.map_eq_some_iff.mp stepped
      exact (step_leads taken).1 (phase_ended_iff.mpr gone)
  | registry call => simp [ServerWorld.step, gone] at stepped

theorem Going.run (going : Going psList w) (ran : w.run psList wConnectTime events = some w')
    (running : w'.psserver.pc ≠ .ended) : Going psList w' ∧ ∀ event ∈ events, event.Succeeds := by
  induction events generalizing w with
  | nil =>
      obtain rfl := Option.some.inj ran
      exact ⟨going, fun event member => absurd member List.not_mem_nil⟩
  | cons event events ih =>
      obtain ⟨next, stepped, rest⟩ := Option.bind_eq_some_iff.mp ran
      rcases going.step stepped with ⟨succeeds, goes⟩ | ⟨gone, -⟩
      · obtain ⟨kept, later⟩ := ih goes rest
        exact ⟨kept, List.forall_mem_cons.mpr ⟨succeeds, later⟩⟩
      · cases events with
        | nil =>
            obtain rfl := Option.some.inj rest
            exact absurd (phase_ended_iff.mp gone) running
        | cons event events =>
            obtain ⟨more, further, -⟩ := Option.bind_eq_some_iff.mp rest
            exact absurd (phase_ended_iff.mp gone) (step_running further)

end End

/-- A server whose task ends has unregistered itself exactly when its socket could
    be set up: `socket`, `bind` and `listen` are the calls whose failure ends it otherwise. -/
theorem tcpServerTask_unregisters_iff (behind : Ptr UInt8) (created : Option Nat)
    (calls : List RegistryCall)
    (first psEthList : EthLinkList) (steps : List RegistryStep) (servers : List (Nat × TcpServer))
    (psList : Nat)
    (wConnectTime : UInt16) (events : List ServerEvent) (last : ServerEvent)
    (before after : ServerWorld)
    (registered : ethServerRegister behind created = some first)
    (reached : registryRun calls first = some (steps, psEthList))
    (lists : psEthList.servers.Lists servers)
    (listed : psList ∈ servers.map Prod.fst)
    (ran : (ServerWorld.start psEthList).run psList wConnectTime events = some before)
    (ends : before.step psList wConnectTime last = some after)
    (ended : after.psserver.pc = .ended) :
    (Unregisters after.calls ∧ Released psList before.psEthList after.psEthList) ↔
      ∀ event ∈ events ++ [last], event.Succeeds := by
  obtain ⟨ret, first', servers₁, registered', holds₁, announced⟩ :=
    ethServerRegister_announced behind created
  obtain rfl := Option.some.inj (registered.symm.trans registered')
  obtain ⟨steps', psEthList', servers', reached', holds, distinct, -⟩ :=
    registryRun_sound calls holds₁ (announced.distinct distinct_nil)
  rw [reached, Option.some.injEq, Prod.mk.injEq] at reached'
  obtain ⟨-, rfl⟩ := reached'
  obtain rfl := lists.unique holds.lists
  obtain ⟨e, member, rfl⟩ := List.mem_map.mp listed
  have live : (psEthList.servers.entries e.1).isSome := by rw [lists.contents e member]; rfl
  have going : Going e.1 (ServerWorld.start psEthList) :=
    ⟨ServerPhase.noConfusion, rfl, psEthList, servers, rfl, holds, distinct, live⟩
  obtain ⟨kept, earlier⟩ := going.run ran (step_running ends)
  rw [List.forall_mem_append, List.forall_mem_singleton]
  rcases kept.step ends with ⟨-, goes⟩ | ⟨-, ⟨succeeds, unregisters, released⟩ | ⟨fails, kept'⟩⟩
  · exact absurd (phase_ended_iff.mpr ended) goes.running
  · exact iff_of_true ⟨unregisters, released⟩ ⟨earlier, succeeds⟩
  · exact iff_of_false (fun both => kept' both.1) fun both => fails both.2

/-- The registry with its first server, at place 0. -/
def loneServer : EthLinkList := (ethServerRegister (fun _ => 0) (some 0)).getD EthLinkList.start

theorem loneServer_lists : ∃ server, loneServer.servers.Lists [(0, server)] := by
  refine ⟨⟨(initialSn fun _ => 0).read radarDeviceSnLen, agxDefaultPortHead⟩, ⟨rfl, rfl⟩, ?_⟩
  intro e member
  obtain rfl := List.mem_singleton.mp member
  rfl

/-- The sockets are set up, and no radar connects in time. -/
theorem tcpServerTask_unregisters_iff_unmet :
    ∃ before after, (ServerWorld.start loneServer).run 0 1
        [.task (.socket 3), .task (.bind 0), .task (.listen 0)] = some before ∧
      before.step 0 1 (.task (.acceptSelect 0 false)) = some after ∧
      ((Unregisters after.calls ∧ Released 0 before.psEthList after.psEthList) ↔
        ∀ event ∈ [.task (.socket 3), .task (.bind 0), .task (.listen 0)] ++
        [.task (.acceptSelect 0 false)],
          ServerEvent.Succeeds event) := by
  obtain ⟨server, lists⟩ := loneServer_lists
  exact ⟨_, _, rfl, rfl,
    tcpServerTask_unregisters_iff (fun _ => 0) (some 0) [] loneServer loneServer [] _ 0 1 _ _ _ _
    rfl rfl lists List.mem_cons_self rfl rfl rfl⟩

/-- When the port cannot be bound the task ends without a word, and the server
    stays registered. -/
theorem tcpServerTask_silent :
    ∃ before after, (ServerWorld.start loneServer).run 0 5 [.task (.socket 3)] = some before ∧
      before.step 0 5 (.task (.bind (-1))) = some after ∧ after.psserver.pc = .ended ∧
      ¬ Unregisters after.calls ∧ after.psEthList = some loneServer := by
  refine ⟨_, _, rfl, rfl, rfl, ?_, rfl⟩
  intro unregisters
  exact absurd unregisters.deletes List.not_mem_nil

end PtzAgx.EthLink
