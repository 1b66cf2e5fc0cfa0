import Mathlib.Data.List.Perm.Subperm
import Mathlib.Order.Bounds.Defs
import PtzAgx.EthLink.TcpList
import PtzAgx.Lib.CString

/-! # The servers for radars

`eth_link_server.c` announces one TCP server to every radar that looks for one.
A server that waits for a radar is registered under an initial name and renamed
when the first one turns up. The calls are serialised by the mutex of the list,
so a run is a sequence of them. The diagnostics are left out, and so is what
`eth_server_register` stores and no list operation reads.
-/

namespace PtzAgx.EthLink

open Alloc Bytes CString Intrusive

def agxDefaultPortHead : UInt16 := 8070
def agxMaxDefaultNum : Nat := 10
def radarDeviceSnLen : Nat := 32

/-- `NETPOTOCAL_INITILA_SN`, the characters of `sn_init`. -/
def netpotocalInitilaSn : List UInt8 := [0x73, 0x6E, 0x5F, 0x69, 0x6E, 0x69, 0x74]

/-- `eth_link_list_t`, with its list of servers. -/
structure EthLinkList where
  max : Nat
  curCon : UInt16
  serverBasicalPort : UInt16
  servers : TcpList TcpServer

/-- How far the loops go along a list. Lists have at most `max` entries. -/
def serverListFuel : Nat := agxMaxDefaultNum

def EthLinkList.walk (psEthList : EthLinkList) : Option (List (Nat × TcpServer)) :=
  psEthList.servers.walk serverListFuel psEthList.servers.list.head

/-- The loop of `get_unused_port`, with so many tries left. -/
def unusedPortFrom (psList : List (Nat × TcpServer)) : Nat → UInt16 → UInt16
  | 0, portSel => portSel
  | tries + 1, portSel =>
      if psList.any fun server => server.2.wlocalPort == portSel then unusedPortFrom psList tries
        (portSel + 1)
      else portSel

def getUnusedPort (psList : List (Nat × TcpServer)) (basicalPort : UInt16) : UInt16 :=
  unusedPortFrom psList 100 basicalPort

/-- `created` is where the new entry lies, or that no server could be created. -/
def ethLinkCreateTcpServerList (created : Option Nat) (wPort : UInt16) (t : TcpList TcpServer) :
    Option (Nat × TcpList TcpServer) :=
  (malloc created ⟨List.replicate radarDeviceSnLen 0, wPort⟩ t.entries).map fun (psList, entries) =>
    (psList, { list := { t.list with next := Function.update t.list.next psList none }, entries })

/-- `memcpy(psList->sserver.radar_sn, sn, RADAR_DEVICE_SN_LEN)`. -/
def nameServer (sn : Ptr UInt8) (psList : Nat) (t : TcpList TcpServer) :
    Option (TcpList TcpServer) :=
  (modify psList (fun server => { server with radarSn := sn.read radarDeviceSnLen }) t.entries).map
    fun entries =>
    { t with entries }

/-- `strncmp(psList->sserver.radar_sn, sn, RADAR_DEVICE_SN_LEN) == 0`. -/
def TcpServer.named (server : TcpServer) (sn : Ptr UInt8) : Bool :=
  strncmp radarDeviceSnLen (Ptr.ofList server.radarSn) sn == 0

/-- The name begins like the initial one. -/
def TcpServer.initial (server : TcpServer) : Bool :=
  strncmp netpotocalInitilaSn.length (Ptr.ofList server.radarSn)
    (Ptr.ofList netpotocalInitilaSn) == 0

/-- The branch for a list that has servers; `psList` is the last of them. -/
def ethLinkAddToServers (sn : Ptr UInt8) (created : Option Nat)
    (registered : List (Nat × TcpServer))
    (psList : Nat × TcpServer) (psEthList : EthLinkList) : Option (Int × EthLinkList) :=
  let uCount := registered.length
  if registered.any fun server => server.2.named sn then some (-1, psEthList)
  else if uCount = 1 ∧ psList.2.initial then
    -- `cur_con` is not touched here.
    (nameServer sn psList.1 psEthList.servers).map fun servers => (0, { psEthList with servers })
  else if psEthList.max > uCount then
    let psEthList :=
        { psEthList with curCon := getUnusedPort registered psEthList.serverBasicalPort }
    match ethLinkCreateTcpServerList created psEthList.curCon psEthList.servers with
    | none => some (-1, { psEthList with servers := psEthList.servers.hang psList.1 none })
    | some (psNext, servers) =>
        (nameServer sn psNext (servers.hang psList.1 (some psNext))).map fun servers =>
          (0, { psEthList with servers })
  else some (-1, psEthList)

/-- `sn` is what memory holds at the pointer. -/
def ethLinkAddTcpServerList (sn : Ptr UInt8) (created : Option Nat) (psEthList : EthLinkList) :
    Option (Int × EthLinkList) :=
  match psEthList.walk with
  | none => none
  | some [] =>
      match ethLinkCreateTcpServerList created psEthList.serverBasicalPort psEthList.servers with
      | none => some (-1, psEthList)
      | some (psList, servers) =>
          (nameServer sn psList
            { servers with list := { servers.list with head := some psList } }).map fun servers =>
            (0, { psEthList with servers, curCon := psEthList.serverBasicalPort })
  | some (first :: rest) =>
      ethLinkAddToServers sn created (first :: rest)
        ((first :: rest).getLast (List.cons_ne_nil first rest)) psEthList

/-- The initial name, with whatever lies behind its `NUL`. -/
def initialSn (behind : Ptr UInt8) : Ptr UInt8 := behind.store 0 (netpotocalInitilaSn ++ [0])

/-- A list without servers. -/
def EthLinkList.start : EthLinkList where
  max := agxMaxDefaultNum
  curCon := 0
  serverBasicalPort := agxDefaultPortHead
  servers := { list := { head := none, next := fun _ => none }, entries := fun _ => none }

/-- The first call, which makes the list. -/
def ethServerRegister (behind : Ptr UInt8) (created : Option Nat) : Option EthLinkList :=
  (ethLinkAddTcpServerList (initialSn behind) created EthLinkList.start).map Prod.snd

/-! ## Runs -/

/-- A device announces itself, or the thread of a server ends. -/
inductive RegistryCall where
  | add (sn : Ptr UInt8) (created : Option Nat)
  | del (psList : Nat)

/-- Only the threads of servers that there are can end. -/
def RegistryCall.run (psEthList : EthLinkList) : RegistryCall → Option (Int × EthLinkList)
  | .add sn created => ethLinkAddTcpServerList sn created psEthList
  | .del psList =>
      if (psEthList.servers.entries psList).isSome then
        (ethLinkDelTcpServerList serverListFuel psList psEthList.servers).map fun servers =>
          (0, { psEthList with servers })
      else some (0, psEthList)

/-- A call with the list before and after it and the value it returned. -/
structure RegistryStep where
  before : EthLinkList
  call : RegistryCall
  ret : Int
  after : EthLinkList

def registryRun : List RegistryCall → EthLinkList → Option (List RegistryStep × EthLinkList)
  | [], psEthList => some ([], psEthList)
  | call :: calls, psEthList =>
      (call.run psEthList).bind fun (ret, after) =>
        (registryRun calls after).map fun (steps, last) =>
          (⟨psEthList, call, ret, after⟩ :: steps, last)

/-! ## Names and ports -/

/-- The name of a server as `strncmp` sees it. -/
def TcpServer.name (server : TcpServer) : List UInt8 :=
  str radarDeviceSnLen (Ptr.ofList server.radarSn)

theorem TcpServer.named_iff {server : TcpServer} {sn : Ptr UInt8} :
    server.named sn = true ↔ server.name = str radarDeviceSnLen sn := by
  rw [named, beq_iff_eq, strncmp_eq_zero_iff, name]

theorem read_copy (sn : Ptr UInt8) {n k : Nat} (le : k ≤ n) :
    (Ptr.ofList (sn.read n)).read k = sn.read k :=
  Ptr.read_congr fun _ small => Ptr.ofList_read sn (Nat.lt_of_lt_of_le small le)

theorem TcpServer.name_copy (sn : Ptr UInt8) (wlocalPort : UInt16) :
    TcpServer.name ⟨sn.read radarDeviceSnLen, wlocalPort⟩ = str radarDeviceSnLen sn :=
  str_congr (read_copy sn (Nat.le_refl _))

/-- The search passes ports in use, one after the other, and stops at the first
    one that is not, or when its tries are used up. -/
theorem unusedPortFrom_passed (psList : List (Nat × TcpServer)) (tries : Nat) (portSel : UInt16) :
    ∃ k ≤ tries, unusedPortFrom psList tries portSel = portSel + UInt16.ofNat k ∧
      (∀ i < k, portSel + UInt16.ofNat i ∈ psList.map fun server => server.2.wlocalPort) ∧
      (unusedPortFrom psList tries portSel ∈ (psList.map fun server => server.2.wlocalPort) →
        k = tries) := by
  induction tries generalizing portSel with
  | zero =>
    exact ⟨0, Nat.le_refl 0, by simp [unusedPortFrom], fun i small => absurd small
      (Nat.not_lt_zero i), fun _ => rfl⟩
  | succ tries ih =>
      cases taken : psList.any fun server => server.2.wlocalPort == portSel with
      | true =>
          have here : portSel ∈ psList.map fun server => server.2.wlocalPort := by
            simpa [List.any_eq_true] using taken
          obtain ⟨k, le, found, passed, all⟩ := ih (portSel + 1)
          have next (i : Nat) : portSel + 1 + UInt16.ofNat i = portSel + UInt16.ofNat (i + 1) := by
            rw [UInt16.ofNat_add, UInt16.add_assoc, UInt16.add_comm 1]
            rfl
          rw [unusedPortFrom, if_pos taken]
          refine ⟨k + 1, Nat.succ_le_succ le, found.trans (next k), ?_, fun used => congrArg (· + 1)
            (all used)⟩
          intro i small
          cases i with
          | zero => simpa using here
          | succ i =>
              rw [← next i]
              exact passed i (Nat.lt_of_succ_lt_succ small)
      | false =>
          have free : portSel ∉ psList.map fun server => server.2.wlocalPort := by
            simpa [List.any_eq_false] using taken
          rw [unusedPortFrom, if_neg (Bool.eq_false_iff.mp taken)]
          exact ⟨0, Nat.zero_le _, by simp, fun i small => absurd small (Nat.not_lt_zero i),
            fun used => absurd used free⟩

theorem unusedPortFrom_used {psList : List (Nat × TcpServer)} {tries : Nat} {portSel : UInt16}
    (used : unusedPortFrom psList tries portSel ∈ psList.map fun server => server.2.wlocalPort) :
    ∀ i ≤ tries, portSel + UInt16.ofNat i ∈ psList.map fun server => server.2.wlocalPort := by
  obtain ⟨k, -, found, passed, all⟩ := unusedPortFrom_passed psList tries portSel
  obtain rfl := all used
  intro i le
  cases Nat.lt_or_eq_of_le le with
  | inl before => exact passed i before
  | inr last =>
      rw [last, ← found]
      exact used

/-- A list shorter than the number of tries leaves one of the ports tried. -/
theorem getUnusedPort_unused {psList : List (Nat × TcpServer)} (basicalPort : UInt16)
    (few : psList.length < 100) :
    getUnusedPort psList basicalPort ∉ psList.map fun server => server.2.wlocalPort := by
  intro used
  have tried := unusedPortFrom_used used
  have distinct : ((List.range 100).map fun i => basicalPort + UInt16.ofNat i).Nodup := by
    refine List.Nodup.map_on ?_ List.nodup_range
    intro i small j small' same
    have values := congrArg UInt16.toNat ((UInt16.add_right_inj basicalPort).mp same)
    rw [List.mem_range] at small small'
    simp only [UInt16.toNat_ofNat'] at values
    omega
  have inside : (List.range 100).map (fun i => basicalPort + UInt16.ofNat i) ⊆
      psList.map fun server => server.2.wlocalPort := by
    intro port member
    obtain ⟨i, small, rfl⟩ := List.mem_map.mp member
    exact tried i (Nat.le_of_lt (List.mem_range.mp small))
  have most := (distinct.subperm inside).length_le
  simp only [List.length_map, List.length_range] at most
  omega

/-- It is the lowest port from `basicalPort` on that no server has. The search
    stays below the highest port there is. -/
theorem getUnusedPort_least {psList : List (Nat × TcpServer)} {basicalPort : UInt16}
    (few : psList.length < 100)
    (room : basicalPort.toNat ≤ 65435) :
    IsLeast {port | basicalPort ≤ port ∧ ∀ server ∈ psList, server.2.wlocalPort ≠ port}
      (getUnusedPort psList basicalPort) := by
  have unused := getUnusedPort_unused basicalPort few
  obtain ⟨k, le, found, passed, -⟩ := unusedPortFrom_passed psList 100 basicalPort
  have value (i : Nat) (small : i ≤ 100) :
      (basicalPort + UInt16.ofNat i).toNat = basicalPort.toNat + i := by
    rw [UInt16.toNat_add, UInt16.toNat_ofNat']
    omega
  constructor
  · constructor
    · rw [getUnusedPort, found, UInt16.le_iff_toNat_le, value k le]
      exact Nat.le_add_right basicalPort.toNat k
    · intro server member same
      exact unused (List.mem_map.mpr ⟨server, member, same⟩)
  · rintro port ⟨from_base, free⟩
    rw [getUnusedPort, found, UInt16.le_iff_toNat_le, value k le]
    rw [UInt16.le_iff_toNat_le] at from_base
    apply Nat.le_of_not_lt
    intro before
    -- A port between the two has been passed.
    obtain ⟨i, tried⟩ := Nat.exists_eq_add_of_le from_base
    have here : basicalPort + UInt16.ofNat i = port :=
      UInt16.toNat_inj.mp ((value i (by omega)).trans tried.symm)
    obtain ⟨server, member, same⟩ := List.mem_map.mp (passed i (by omega))
    exact free server member (same.trans here)

theorem getUnusedPort_least_three :
    let psList : List (Nat × TcpServer) := [(300, ⟨[], 8071⟩), (100, ⟨[], 9000⟩), (200, ⟨[], 8070⟩)]
    IsLeast {port | 8070 ≤ port ∧ ∀ server ∈ psList, server.2.wlocalPort ≠ port}
    (getUnusedPort psList 8070) :=
  getUnusedPort_least (by decide) (by decide)

/-! ## What an announcement can do -/

/-- The only server there is, still under a name that begins like the initial
    one. -/
def Waiting (servers : List (Nat × TcpServer)) : Prop := ∃ e, servers = [e] ∧ e.2.initial = true

/-- An announcement in terms of the servers listed: the servers and `cur_con`
    before it, the value returned, and `cur_con` and the servers after it. -/
inductive Announced (sn : Ptr UInt8) (servers : List (Nat × TcpServer)) (curCon : UInt16) :
    Int → UInt16 → List (Nat × TcpServer) → Prop where
  /-- The name is taken, or there is no room, or no server for the first one. -/
  | refused : (Waiting servers → ∃ e ∈ servers, e.2.named sn = true) →
      Announced sn servers curCon (-1) curCon servers
  /-- No server could be created for a further one. -/
  | failed (port : UInt16) : ¬ Waiting servers → Announced sn servers curCon (-1) port servers
  | renamed (a : Nat) (server : TcpServer) : servers = [(a, server)] → server.initial = true →
      server.named sn = false →
      Announced sn servers curCon 0 curCon
      [(a, { server with radarSn := sn.read radarDeviceSnLen })]
  | appended (a : Nat) (port : UInt16) : ¬ Waiting servers → (∀ e ∈ servers, e.2.named sn = false) →
      port ∉ servers.map (fun e => e.2.wlocalPort) → servers.length < agxMaxDefaultNum →
      Announced sn servers curCon 0 port (servers ++ [(a, ⟨sn.read radarDeviceSnLen, port⟩)])

/-- The list is made of these servers, and its bounds are as they were set. -/
structure EthLinkList.Holds (psEthList : EthLinkList) (servers : List (Nat × TcpServer)) :
    Prop where
  lists : psEthList.servers.Lists servers
  few : servers.length ≤ agxMaxDefaultNum
  max : psEthList.max = agxMaxDefaultNum
  base : psEthList.serverBasicalPort = agxDefaultPortHead

/-- The list after an announcement, against the list before it. -/
def AnnouncedTo (sn : Ptr UInt8) (psEthList : EthLinkList) (servers : List (Nat × TcpServer))
    (result : Option (Int × EthLinkList)) : Prop :=
  ∃ ret after servers', result = some (ret, after) ∧ after.Holds servers' ∧
    Announced sn servers psEthList.curCon ret after.curCon servers'

section Add

variable {psEthList : EthLinkList} {servers : List (Nat × TcpServer)} (sn : Ptr UInt8)
  {t : TcpList TcpServer}

theorem EthLinkList.Holds.walk (holds : psEthList.Holds servers) : psEthList.walk = some servers :=
  holds.lists.walk holds.few

theorem nameServer_live {a : Nat} {server : TcpServer} (live : t.entries a = some server) :
    nameServer sn a t =
      some { t with
        entries :=
  Function.update t.entries a (some { server with radarSn := sn.read radarDeviceSnLen }) } := by
  rw [nameServer, modify_live _ live]
  rfl

theorem nameServer_single {a : Nat} {server : TcpServer} (lists : t.Lists [(a, server)]) :
    ∃ t', nameServer sn a t = some t' ∧ t'.Lists
      [(a, { server with radarSn := sn.read radarDeviceSnLen })] := by
  have live : t.entries a = some server := lists.contents (a, server) List.mem_cons_self
  refine ⟨_, nameServer_live sn live, lists.chain, ?_⟩
  intro e member
  obtain rfl := List.mem_singleton.mp member
  exact Function.update_self _ _ _

theorem create_eq_some {created : Option Nat} {a : Nat} {port : UInt16} {t' : TcpList TcpServer}
    (made : ethLinkCreateTcpServerList created port t = some (a, t')) :
    t.entries a = none ∧
      t' = { list := { t.list with next := Function.update t.list.next a none }
             entries :=
               Function.update t.entries a (some ⟨List.replicate radarDeviceSnLen 0, port⟩) } := by
  obtain ⟨⟨c, entries⟩, allocated, same⟩ := Option.map_eq_some_iff.mp made
  obtain ⟨-, fresh, rfl⟩ := malloc_eq_some allocated
  cases same
  exact ⟨fresh, rfl⟩

theorem create_first {created : Option Nat} {a : Nat} {port : UInt16} {t' : TcpList TcpServer}
    (made : ethLinkCreateTcpServerList created port t = some (a, t')) :
    ∃ t'', nameServer sn a { t' with list := { t'.list with head := some a } } = some t'' ∧
      t''.Lists [(a, ⟨sn.read radarDeviceSnLen, port⟩)] := by
  obtain ⟨-, rfl⟩ := create_eq_some made
  refine ⟨_, nameServer_live sn (Function.update_self _ _ _), ?_⟩
  rw [Function.update_idem]
  exact TcpList.Lists.single t a _

theorem create_hang {created : Option Nat} {a last : Nat} {server : TcpServer} {port : UInt16}
    {t' : TcpList TcpServer}
    {front : List (Nat × TcpServer)} (lists : t.Lists (front ++ [(last, server)]))
    (made : ethLinkCreateTcpServerList created port t = some (a, t')) :
    ∃ t'', nameServer sn a (t'.hang last (some a)) = some t'' ∧
      t''.Lists (front ++ [(last, server)] ++ [(a, ⟨sn.read radarDeviceSnLen, port⟩)]) := by
  obtain ⟨free, rfl⟩ := create_eq_some made
  refine ⟨_, nameServer_live sn (Function.update_self _ _ _), ?_⟩
  simp only [TcpList.hang, Function.update_idem]
  exact lists.concat free

theorem ethLinkAdd_empty (created : Option Nat) (holds : psEthList.Holds []) :
    AnnouncedTo sn psEthList [] (ethLinkAddTcpServerList sn created psEthList) := by
  have nobody : ¬ Waiting [] := by
    rintro ⟨e, none, -⟩
    cases none
  unfold ethLinkAddTcpServerList
  rw [holds.walk]
  cases made : ethLinkCreateTcpServerList created psEthList.serverBasicalPort psEthList.servers with
  | none => exact ⟨-1, psEthList, [], rfl, holds, .refused fun waiting => (nobody waiting).elim⟩
  | some new =>
      obtain ⟨a, t'⟩ := new
      obtain ⟨t'', named, lists⟩ := create_first sn made
      simp only [named]
      exact ⟨0, _, _, rfl, ⟨lists, Nat.succ_le_succ (Nat.zero_le 9), holds.max, holds.base⟩,
        .appended a _ nobody (by simp) (by simp) (by decide)⟩

theorem ethLinkAdd_servers (created : Option Nat) {front : List (Nat × TcpServer)} {a : Nat}
    {server : TcpServer}
    (holds : psEthList.Holds (front ++ [(a, server)])) :
    AnnouncedTo sn psEthList (front ++ [(a, server)])
      (ethLinkAddToServers sn created (front ++ [(a, server)]) (a, server) psEthList) := by
  have few := holds.few
  unfold ethLinkAddToServers
  by_cases taken : ((front ++ [(a, server)]).any fun server => server.2.named sn) = true
  · rw [if_pos taken]
    exact ⟨-1, psEthList, _, rfl, holds, .refused fun _ => List.any_eq_true.mp taken⟩
  · have unnamed : ∀ e ∈ front ++ [(a, server)], e.2.named sn = false := by
      intro e member
      exact Bool.eq_false_iff.mpr fun named => taken (List.any_eq_true.mpr ⟨e, member, named⟩)
    rw [if_neg taken]
    by_cases waits : (front ++ [(a, server)]).length = 1 ∧ server.initial = true
    · obtain rfl : front = [] := List.eq_nil_of_length_eq_zero (by simpa using waits.1)
      obtain ⟨t', named, lists⟩ := nameServer_single sn holds.lists
      rw [if_pos waits, named]
      exact ⟨0, _, _, rfl, ⟨lists, Nat.succ_le_succ (Nat.zero_le 9), holds.max, holds.base⟩,
        .renamed a server rfl waits.2 (unnamed _ List.mem_cons_self)⟩
    · have others : ¬ Waiting (front ++ [(a, server)]) := by
        rintro ⟨e, single, initial⟩
        obtain ⟨rfl, rfl⟩ : front = [] ∧ (a, server) = e := by
          simpa [List.append_eq_singleton_iff] using single
        exact waits ⟨rfl, initial⟩
      rw [if_neg waits]
      by_cases room : psEthList.max > (front ++ [(a, server)]).length
      · have unused := getUnusedPort_unused psEthList.serverBasicalPort
          (Nat.lt_of_le_of_lt few (by decide : agxMaxDefaultNum < 100))
        rw [if_pos room]
        rw [holds.max] at room
        generalize getUnusedPort (front ++ [(a, server)]) psEthList.serverBasicalPort = port
          at unused ⊢
        cases made : ethLinkCreateTcpServerList created port psEthList.servers with
        | none =>
            refine ⟨-1, { psEthList with curCon := port, servers := psEthList.servers.hang a none },
              _, ?_, ?_, .failed port others⟩
            · simp only [made]
            · exact ⟨holds.lists.hang_none, few, holds.max, holds.base⟩
        | some new =>
            obtain ⟨b, t'⟩ := new
            obtain ⟨t'', named, lists⟩ := create_hang sn holds.lists made
            have longer : (front ++ [(a, server)] ++
              [(b, (⟨sn.read radarDeviceSnLen, port⟩ : TcpServer))]).length ≤
                agxMaxDefaultNum := by
              rw [List.length_append, List.length_singleton]
              exact room
            refine ⟨0, { psEthList with curCon := port, servers := t'' }, _, ?_,
              ⟨lists, longer, holds.max, holds.base⟩, .appended b port others unnamed unused room⟩
            simp only [made, named]
            rfl
      · rw [if_neg room]
        exact ⟨-1, psEthList, _, rfl, holds, .refused fun waiting => (others waiting).elim⟩

theorem ethLinkAddTcpServerList_announced (created : Option Nat) (holds : psEthList.Holds servers) :
    AnnouncedTo sn psEthList servers (ethLinkAddTcpServerList sn created psEthList) := by
  rcases List.eq_nil_or_concat' servers with rfl | ⟨front, ⟨a, server⟩, rfl⟩
  · exact ethLinkAdd_empty sn created holds
  · have announced := ethLinkAdd_servers sn created holds
    unfold ethLinkAddTcpServerList
    rw [holds.walk]
    have last : ∀ first rest, front ++ [(a, server)] = first :: rest →
        (first :: rest).getLast (List.cons_ne_nil first rest) = (a, server) := by
      intro first rest split
      rw [List.getLast_eq_iff_getLast?_eq_some, ← split, List.getLast?_concat]
    cases split : front ++ [(a, server)] with
    | nil => simp at split
    | cons first rest =>
        simp only
        rw [last first rest split, ← split]
        exact announced

end Add

/-! ## What every call keeps -/

/-- No two servers with one name or one port. -/
structure Distinct (servers : List (Nat × TcpServer)) : Prop where
  names : servers.Pairwise fun a b => a.2.name ≠ b.2.name
  ports : servers.Pairwise fun a b => a.2.wlocalPort ≠ b.2.wlocalPort

section Keep

variable {psEthList : EthLinkList} {servers servers' : List (Nat × TcpServer)} {sn : Ptr UInt8}
  {ret : Int}
  {curCon curCon' : UInt16}

theorem Distinct.sublist (distinct : Distinct servers) (part : servers'.Sublist servers) :
    Distinct servers' :=
  ⟨distinct.names.sublist part, distinct.ports.sublist part⟩

theorem distinct_single (e : Nat × TcpServer) : Distinct [e] :=
  ⟨List.pairwise_singleton _ _, List.pairwise_singleton _ _⟩

theorem TcpServer.named_eq_false {server : TcpServer} (other : server.named sn = false) :
    server.name ≠ str radarDeviceSnLen sn := by
  intro same
  rw [TcpServer.named_iff.mpr same] at other
  cases other

theorem Announced.distinct (announced : Announced sn servers curCon ret curCon' servers')
    (distinct : Distinct servers) :
    Distinct servers' := by
  cases announced with
  | refused => exact distinct
  | failed => exact distinct
  | renamed => exact distinct_single _
  | appended a port _ unnamed unused =>
      refine ⟨List.pairwise_append.mpr ⟨distinct.names, List.pairwise_singleton _ _, ?_⟩,
        List.pairwise_append.mpr ⟨distinct.ports, List.pairwise_singleton _ _, ?_⟩⟩
      · intro e member f new
        obtain rfl := List.mem_singleton.mp new
        rw [TcpServer.name_copy]
        exact TcpServer.named_eq_false (unnamed e member)
      · intro e member f new
        obtain rfl := List.mem_singleton.mp new
        rintro rfl
        exact unused (List.mem_map_of_mem member)

/-- A call in terms of the servers listed. -/
def RegistryCall.Moves (servers : List (Nat × TcpServer)) (curCon : UInt16) (ret : Int)
    (curCon' : UInt16)
    (servers' : List (Nat × TcpServer)) : RegistryCall → Prop
  | .add sn _ => Announced sn servers curCon ret curCon' servers'
  | .del _ => servers'.Sublist servers ∧ curCon' = curCon

theorem RegistryCall.Moves.distinct {call : RegistryCall}
    (moves : call.Moves servers curCon ret curCon' servers')
    (distinct : Distinct servers) : Distinct servers' := by
  cases call with
  | add sn created => exact Announced.distinct moves distinct
  | del psList => exact distinct.sublist moves.1

/-- A call meets and leaves a list of distinct servers. -/
structure RegistryStep.Sound (step : RegistryStep) (servers servers' : List (Nat × TcpServer)) :
    Prop where
  before : step.before.Holds servers
  after : step.after.Holds servers'
  distinct : Distinct servers
  moves : step.call.Moves servers step.before.curCon step.ret step.after.curCon servers'

theorem RegistryCall.run_sound (call : RegistryCall) (holds : psEthList.Holds servers)
    (distinct : Distinct servers) :
    ∃ ret after servers', call.run psEthList = some (ret, after) ∧
      RegistryStep.Sound ⟨psEthList, call, ret, after⟩ servers servers' := by
  cases call with
  | add sn created =>
      obtain ⟨ret, after, servers', ran, holds', announced⟩ :=
        ethLinkAddTcpServerList_announced sn created holds
      exact ⟨ret, after, servers', ran, holds, holds', distinct, announced⟩
  | del psList =>
      by_cases live : (psEthList.servers.entries psList).isSome
      · obtain ⟨t', left, removed, lists, part⟩ := holds.lists.del live holds.few
        refine ⟨0, { psEthList with servers := t' }, left, ?_, holds, ?_, distinct, part, rfl⟩
        · rw [run, if_pos live]
          exact congrArg (Option.map _) removed
        · exact ⟨lists, Nat.le_trans part.length_le holds.few, holds.max, holds.base⟩
      · exact ⟨0, psEthList, servers, by rw [run, if_neg live], holds, holds, distinct,
          List.Sublist.refl _, rfl⟩

/-- A run meets nothing but lists of distinct servers. -/
theorem registryRun_sound (calls : List RegistryCall) (holds : psEthList.Holds servers)
    (distinct : Distinct servers) :
    ∃ steps last servers', registryRun calls psEthList = some (steps, last) ∧ last.Holds servers' ∧
      Distinct servers' ∧ ∀ step ∈ steps, ∃ before after, step.Sound before after := by
  induction calls generalizing psEthList servers with
  | nil => exact ⟨[], psEthList, servers, rfl, holds, distinct, by simp⟩
  | cons call calls ih =>
      obtain ⟨ret, after, between, ran, sound⟩ := call.run_sound holds distinct
      obtain ⟨steps, last, servers', rest, kept, kept', sounds⟩ :=
        ih sound.after (sound.moves.distinct distinct)
      refine ⟨⟨psEthList, call, ret, after⟩ :: steps, last, servers', ?_, kept, kept', ?_⟩
      · have later : registryRun calls after = some (steps, last) := rest
        simp only [registryRun, ran, Option.bind_some, later, Option.map_some]
      · intro step member
        cases member with
        | head => exact ⟨servers, between, sound⟩
        | tail _ later => exact sounds step later

theorem ethServerRegister_announced (behind : Ptr UInt8) (created : Option Nat) :
    ∃ ret first servers, ethServerRegister behind created = some first ∧ first.Holds servers ∧
      Announced (initialSn behind) [] 0 ret first.curCon servers := by
  have empty : EthLinkList.start.Holds [] := ⟨⟨rfl, by simp⟩, Nat.zero_le _, rfl, rfl⟩
  obtain ⟨ret, after, servers, ran, holds, announced⟩ :=
    ethLinkAddTcpServerList_announced (initialSn behind) created empty
  exact ⟨ret, after, servers, by rw [ethServerRegister, ran]; rfl, holds, announced⟩

theorem distinct_nil : Distinct [] := ⟨List.Pairwise.nil, List.Pairwise.nil⟩

end Keep

/-- Whatever devices announce themselves and whichever servers end, the servers
    registered have names and ports of their own, and there are at most ten. -/
theorem registry_distinct (behind : Ptr UInt8) (created : Option Nat) (calls : List RegistryCall) :
    ∃ first steps last servers, ethServerRegister behind created = some first ∧
      registryRun calls first = some (steps, last) ∧ last.servers.Lists servers ∧
      (servers.Pairwise fun a b =>
        strncmp radarDeviceSnLen (Ptr.ofList a.2.radarSn) (Ptr.ofList b.2.radarSn) ≠ 0) ∧
      (servers.Pairwise fun a b => a.2.wlocalPort ≠ b.2.wlocalPort) ∧
      servers.length ≤ agxMaxDefaultNum := by
  obtain ⟨ret, first, servers, registered, holds, announced⟩ :=
    ethServerRegister_announced behind created
  have distinct := announced.distinct distinct_nil
  obtain ⟨steps, last, servers', ran, kept, kept', -⟩ := registryRun_sound calls holds distinct
  refine ⟨first, steps, last, servers', registered, ran, kept.lists, kept'.names.imp ?_,
    kept'.ports, kept.few⟩
  intro a b differ same
  exact differ ((strncmp_eq_zero_iff _ _ _).mp same)

/-! ## The port a device is told -/

/-- When an announcement succeeds, the server of that name has the port
    `eth_protocol_search_handler` is about to send. -/
def RegistryStep.PortAgrees (step : RegistryStep) : Prop :=
  match step.call with
  | .add sn _ =>
      step.ret = 0 → ∃ servers, step.after.servers.Lists servers ∧
        (∃ e ∈ servers, e.2.named sn = true) ∧
        ∀ e ∈ servers, e.2.named sn = true → e.2.wlocalPort = step.after.curCon
  | .del _ => True

/-- The announcement renames a server while `cur_con` is the port of another one. -/
def RegistryStep.RenamesStale (step : RegistryStep) : Prop :=
  match step.call with
  | .add sn _ =>
      ∃ e, step.before.servers.Lists [e] ∧ e.2.initial = true ∧ e.2.named sn = false ∧
        e.2.wlocalPort ≠ step.before.curCon
  | .del _ => False

section Port

variable {psEthList : EthLinkList} {servers servers' : List (Nat × TcpServer)} {sn : Ptr UInt8}
  {ret : Int}
  {curCon curCon' : UInt16}

theorem TcpServer.named_copy (sn : Ptr UInt8) (wlocalPort : UInt16) :
    TcpServer.named ⟨sn.read radarDeviceSnLen, wlocalPort⟩ sn = true :=
  TcpServer.named_iff.mpr (TcpServer.name_copy sn wlocalPort)

/-- Every success but a renaming writes `cur_con`. -/
theorem Announced.port_iff (announced : Announced sn servers curCon ret curCon' servers') :
    (ret = 0 → (∃ e ∈ servers', e.2.named sn = true) ∧
        ∀ e ∈ servers', e.2.named sn = true → e.2.wlocalPort = curCon') ↔
      ¬ ∃ e, servers = [e] ∧ e.2.initial = true ∧ e.2.named sn = false ∧
      e.2.wlocalPort ≠ curCon := by
  cases announced with
  | refused known =>
      refine iff_of_true (fun zero => absurd zero (by decide)) ?_
      rintro ⟨e, rfl, initial, unnamed, -⟩
      obtain ⟨f, member, named⟩ := known ⟨e, rfl, initial⟩
      rw [List.mem_singleton.mp member, unnamed] at named
      cases named
  | failed port others =>
      refine iff_of_true (fun zero => absurd zero (by decide)) ?_
      rintro ⟨e, single, initial, -⟩
      exact others ⟨e, single, initial⟩
  | renamed a server single initial unnamed =>
      subst single
      constructor
      · rintro agrees ⟨e, same, -, -, stale⟩
        obtain rfl := List.singleton_inj.mp same
        have agreed :=
          (agrees rfl).2 (a, ⟨sn.read radarDeviceSnLen, server.wlocalPort⟩) List.mem_cons_self
          (TcpServer.named_copy sn server.wlocalPort)
        exact stale agreed
      · intro fresh _
        refine ⟨⟨_, List.mem_cons_self, TcpServer.named_copy sn _⟩, ?_⟩
        intro e member _
        obtain rfl := List.mem_singleton.mp member
        exact not_not.mp fun stale => fresh ⟨_, rfl, initial, unnamed, stale⟩
  | appended a port others unnamed unused room =>
      refine iff_of_true (fun _ => ⟨⟨_, List.mem_append_right _ List.mem_cons_self,
        TcpServer.named_copy sn _⟩, ?_⟩) ?_
      · intro e member named
        rcases List.mem_append.mp member with old | new
        · rw [unnamed e old] at named
          cases named
        · rw [List.mem_singleton.mp new]
      · rintro ⟨e, single, initial, -⟩
        exact others ⟨e, single, initial⟩

theorem RegistryStep.Sound.port_iff {step : RegistryStep} (sound : step.Sound servers servers') :
    step.PortAgrees ↔ ¬ step.RenamesStale := by
  obtain ⟨before, call, ret, after⟩ := step
  cases call with
  | add sn created =>
      have announced : Announced sn servers before.curCon ret after.curCon servers' := sound.moves
      have listed (others : List (Nat × TcpServer)) : after.servers.Lists others ↔
          others = servers' :=
        ⟨fun lists => lists.unique sound.after.lists, fun same => same ▸ sound.after.lists⟩
      have listed' (others : List (Nat × TcpServer)) : before.servers.Lists others ↔
          servers = others :=
        ⟨fun lists => sound.before.lists.unique lists, fun same => same ▸ sound.before.lists⟩
      simp only [PortAgrees, RenamesStale, listed, listed', exists_eq_left]
      exact announced.port_iff
  | del psList => exact iff_of_true trivial not_false

/-- `cur_con` is the port of the only server, or no name begins like the initial one. -/
def Fresh (curCon : UInt16) (servers : List (Nat × TcpServer)) : Prop :=
  (∃ e, servers = [e] ∧ e.2.wlocalPort = curCon) ∨ ∀ e ∈ servers, e.2.initial = false

/-- No device announces a name that begins like the initial one. -/
def RegistryCall.Plain : RegistryCall → Prop
  | .add sn _ => strncmp netpotocalInitilaSn.length sn (Ptr.ofList netpotocalInitilaSn) ≠ 0
  | .del _ => True

theorem initial_copy
    (plain : strncmp netpotocalInitilaSn.length sn (Ptr.ofList netpotocalInitilaSn) ≠ 0)
    (wlocalPort : UInt16) : TcpServer.initial ⟨sn.read radarDeviceSnLen, wlocalPort⟩ = false := by
  rw [ne_eq, strncmp_eq_zero_iff] at plain
  rw [TcpServer.initial, beq_eq_false_iff_ne, ne_eq, strncmp_eq_zero_iff]
  rwa [str_congr (read_copy sn (by decide : netpotocalInitilaSn.length ≤ radarDeviceSnLen))]

theorem RegistryCall.Moves.fresh {call : RegistryCall}
    (moves : call.Moves servers curCon ret curCon' servers')
    (plain : call.Plain) (fresh : Fresh curCon servers) : Fresh curCon' servers' := by
  cases call with
  | del psList =>
      obtain ⟨part, rfl⟩ := moves
      rcases fresh with ⟨e, rfl, port⟩ | named
      · rcases List.sublist_singleton.mp part with rfl | rfl
        · exact .inr (by simp)
        · exact .inl ⟨e, rfl, port⟩
      · exact .inr fun e member => named e (part.subset member)
  | add sn created =>
      -- Away from a waiting server only the second case of `Fresh` is left.
      have unwaited (others : ¬ Waiting servers) : ∀ e ∈ servers, e.2.initial = false := by
        rcases fresh with ⟨e, rfl, -⟩ | named
        · intro f member
          obtain rfl := List.mem_singleton.mp member
          exact Bool.eq_false_iff.mpr fun initial => others ⟨f, rfl, initial⟩
        · exact named
      cases (show Announced sn servers curCon ret curCon' servers' from moves) with
      | refused => exact fresh
      | failed port others => exact .inr (unwaited others)
      | renamed a server =>
          refine .inr fun e member => ?_
          rw [List.mem_singleton.mp member]
          exact initial_copy plain _
      | appended a port others =>
          refine .inr fun e member => ?_
          rcases List.mem_append.mp member with old | new
          · exact unwaited others e old
          · rw [List.mem_singleton.mp new]
            exact initial_copy plain _

theorem Announced.fresh_first (announced : Announced sn [] curCon ret curCon' servers') :
    Fresh curCon' servers' := by
  cases announced with
  | refused => exact .inr (by simp)
  | failed => exact .inr (by simp)
  | renamed a server single => cases single
  | appended a port => exact .inl ⟨_, rfl, rfl⟩

theorem RegistryStep.Sound.not_stale {step : RegistryStep} (sound : step.Sound servers servers')
    (fresh : Fresh step.before.curCon servers) : ¬ step.RenamesStale := by
  obtain ⟨before, call, ret, after⟩ := step
  cases call with
  | del psList => exact not_false
  | add sn created =>
      rintro ⟨e, lists, initial, -, stale⟩
      obtain rfl := lists.unique sound.before.lists
      rcases fresh with ⟨f, same, port⟩ | named
      · rw [List.singleton_inj.mp same] at stale
        exact stale port
      · rw [named e List.mem_cons_self] at initial
        cases initial

theorem registryRun_not_stale {calls : List RegistryCall} {steps : List RegistryStep}
    {last : EthLinkList}
    (plain : ∀ call ∈ calls, call.Plain) (holds : psEthList.Holds servers)
    (distinct : Distinct servers)
    (fresh : Fresh psEthList.curCon servers)
    (ran : registryRun calls psEthList = some (steps, last)) :
    ∀ step ∈ steps, ¬ step.RenamesStale := by
  induction calls generalizing psEthList servers steps with
  | nil =>
      cases ran
      simp
  | cons call calls ih =>
      obtain ⟨ret, after, between, first, sound⟩ := call.run_sound holds distinct
      rw [registryRun, first, Option.bind_some] at ran
      obtain ⟨⟨rest, end'⟩, later, same⟩ := Option.map_eq_some_iff.mp ran
      cases same
      have kept := sound.moves.fresh (plain call List.mem_cons_self) fresh
      intro step member
      cases member with
      | head => exact sound.not_stale fresh
      | tail _ there =>
          exact ih (fun c listed => plain c (List.mem_cons_of_mem call listed)) sound.after
            (sound.moves.distinct distinct) kept later step there

end Port

/-- A run from `eth_server_register`: what it starts with, and where each call is right. -/
theorem registry_runs (behind : Ptr UInt8) (created : Option Nat) (calls : List RegistryCall) :
    ∃ first servers steps last, ethServerRegister behind created = some first ∧
      registryRun calls first = some (steps, last) ∧ first.Holds servers ∧ Distinct servers ∧
      Fresh first.curCon servers ∧ ∀ step ∈ steps, step.PortAgrees ↔ ¬ step.RenamesStale := by
  obtain ⟨ret, first, servers, registered, holds, announced⟩ :=
    ethServerRegister_announced behind created
  have distinct := announced.distinct distinct_nil
  obtain ⟨steps, last, -, ran, -, -, sounds⟩ := registryRun_sound calls holds distinct
  refine ⟨first, servers, steps, last, registered, ran, holds, distinct, announced.fresh_first, ?_⟩
  intro step member
  obtain ⟨before, after, sound⟩ := sounds step member
  exact sound.port_iff

/-- In every run, all devices are told the ports of their own servers exactly
    when no announcement renames a server behind another one's port search. -/
theorem registry_ports_iff (behind : Ptr UInt8) (created : Option Nat) (calls : List RegistryCall) :
    ∃ first steps last, ethServerRegister behind created = some first ∧
      registryRun calls first = some (steps, last) ∧
      ((∀ step ∈ steps, step.PortAgrees) ↔ ∀ step ∈ steps, ¬ step.RenamesStale) := by
  obtain ⟨first, -, steps, last, registered, ran, -, -, -, agrees⟩ :=
    registry_runs behind created calls
  exact ⟨first, steps, last, registered, ran, forall₂_congr agrees⟩

theorem registry_ports_plain (behind : Ptr UInt8) (created : Option Nat) (calls : List RegistryCall)
    (plain : ∀ call ∈ calls, call.Plain) :
    ∃ first steps last, ethServerRegister behind created = some first ∧
      registryRun calls first = some (steps, last) ∧ ∀ step ∈ steps, step.PortAgrees := by
  obtain ⟨first, servers, steps, last, registered, ran, holds, distinct, fresh, agrees⟩ :=
    registry_runs behind created calls
  refine ⟨first, steps, last, registered, ran, fun step member => (agrees step member).mpr ?_⟩
  exact registryRun_not_stale plain holds distinct fresh ran step member

/-- Radar `A`, one whose serial number looks like the initial name, and radar `B`
    announce themselves. The servers of `A` and `B` end, and radar `C` comes. -/
def staleCalls : List RegistryCall :=
  [.add (Ptr.ofList [0x41]) none, .add (Ptr.ofList (netpotocalInitilaSn ++ [0x39])) (some 1),
    .add (Ptr.ofList [0x42]) (some 2), .del 0, .del 2, .add (Ptr.ofList [0x43]) none]

/-- The name a device announces. -/
def RegistryCall.announces : RegistryCall → Option (List UInt8)
  | .add sn _ => some (str radarDeviceSnLen sn)
  | .del _ => none

/-- The last call of a run: the name announced, the value returned, the port told
    and the servers there are. -/
def lastObserved (steps : List RegistryStep) :
    Option (Option (List UInt8) × Int × UInt16 × Option (List (Nat × TcpServer))) :=
  steps.getLast?.map fun step => (step.call.announces, step.ret, step.after.curCon, step.after.walk)

theorem staleCalls_observed :
    ((ethServerRegister (fun _ => 0) (some 0)).bind (registryRun staleCalls)).map (fun run =>
      lastObserved run.1) =
      some (some (some [0x43], 0, 8072, some [(1, ⟨(Ptr.ofList [0x43]).read 32, 8071⟩)])) := rfl

/-- `C` gets the server at port 8071 and is sent to port 8072. -/
theorem registry_port_mismatch :
    ∃ first steps last, ethServerRegister (fun _ => 0) (some 0) = some first ∧
      registryRun staleCalls first = some (steps, last) ∧ ∃ step ∈ steps, ¬ step.PortAgrees := by
  obtain ⟨ret, first, servers, registered, holds, initially⟩ :=
    ethServerRegister_announced (fun _ => 0) (some 0)
  have distinct := initially.distinct distinct_nil
  obtain ⟨steps, last, -, ran, -, -, sounds⟩ := registryRun_sound staleCalls holds distinct
  have observed := staleCalls_observed
  rw [registered, Option.bind_some, ran, Option.map_some, Option.some.injEq] at observed
  obtain ⟨⟨before, call, ret, after⟩, final, seen⟩ := Option.map_eq_some_iff.mp observed
  have member := List.mem_of_getLast? final
  refine ⟨first, steps, last, registered, ran, _, member, ?_⟩
  obtain ⟨found, left, sound⟩ := sounds _ member
  simp only [Prod.mk.injEq] at seen
  obtain ⟨announced, rfl, port, walked⟩ := seen
  obtain rfl : left = [(1, ⟨(Ptr.ofList [0x43]).read 32, 8071⟩)] :=
    Option.some.inj (sound.after.walk.symm.trans walked)
  cases call with
  | del psList => cases announced
  | add sn created =>
      intro agrees
      obtain ⟨others, lists, ⟨e, listed, -⟩, told⟩ := agrees rfl
      obtain rfl := lists.unique sound.after.lists
      have name : str radarDeviceSnLen sn = [0x43] := Option.some.inj announced
      have mine : TcpServer.named ⟨(Ptr.ofList [0x43]).read 32, 8071⟩ sn = true :=
        TcpServer.named_iff.mpr (Eq.trans rfl name.symm)
      have same := told _ List.mem_cons_self mine
      rw [port] at same
      exact absurd same (by decide)

end PtzAgx.EthLink
