import Mathlib.Algebra.GroupWithZero.Nat
import PtzAgx.EthLink.TcpList

/-! # Connections to C2

`eth_link.c` connects to every C2 that asks for it, as a TCP client of its own.
A connection is told apart by the address and the port it goes to. Whether the
socket and the thread of a new one can be created is up to the system, and so is
where its entry lies.
-/

namespace PtzAgx.EthLink

open Alloc Intrusive

/-- `eth_link_list_t`, as one type of `psEthList`. -/
structure EthLinkType where
  net : UInt8
  max : UInt8
  type : UInt16
  clients : TcpList TcpClient

def rthLinkNetTcpClient : UInt8 := 1

/-- `for( ; psList->psNext; psList = psList->psNext )`: where it stops, and `uCount`
    there. -/
def findTcpClientFrom (uIp : UInt32) (wPort : UInt16) (t : TcpList TcpClient) :
    Nat → UInt32 → Nat → Option (UInt32 × Nat)
  | 0, _, _ => none
  | fuel + 1, uCount, psList =>
      (t.entries psList).bind fun client =>
        match t.list.next psList with
        | none => some (uCount, psList)
        | some psNext =>
            if client.uRemoteIp = uIp ∧ client.wRemotePort = wPort then some (uCount, psList)
            else findTcpClientFrom uIp wPort t fuel (uCount + 1) psNext

/-- The entry comes without a successor, as `memset` leaves it. -/
def ethLinkCreateTcpClientList (created : Option Nat) (uIp : UInt32) (wPort : UInt16)
    (t : TcpList TcpClient) :
    Option (Nat × TcpList TcpClient) :=
  (malloc created ⟨uIp, wPort⟩ t.entries).map fun (psList, entries) =>
    (psList, { list := { t.list with next := Function.update t.list.next psList none }, entries })

/-- The branch for a list that has connections; the search stopped at `psList`. -/
def ethLinkAddToTcpClients (psEthList : EthLinkType) (uIp : UInt32) (wPort : UInt16)
    (created : Option Nat)
    (uCount : UInt32) (psList : Nat × TcpClient) : EthLinkType :=
  -- One condition for the last entry, for one that is found and for the limit.
  if psList.2.uRemoteIp ≠ uIp ∧ psList.2.wRemotePort ≠ wPort ∧ psEthList.max.toUInt32 > uCount then
    match ethLinkCreateTcpClientList created uIp wPort psEthList.clients with
    | none => { psEthList with clients := psEthList.clients.hang psList.1 none }
    | some (psNext, clients) => { psEthList with clients := clients.hang psList.1 (some psNext) }
  else psEthList

def ethLinkAddTcpClientList (fuel : Nat) (psEthList : EthLinkType) (uIp : UInt32) (wPort : UInt16)
    (created : Option Nat) : Option EthLinkType :=
  match psEthList.clients.list.head with
  | some psList =>
      (findTcpClientFrom uIp wPort psEthList.clients fuel 1 psList).bind fun (uCount, psList) =>
        (psEthList.clients.entries psList).map fun client =>
          ethLinkAddToTcpClients psEthList uIp wPort created uCount (psList, client)
  | none =>
      some (match ethLinkCreateTcpClientList created uIp wPort psEthList.clients with
        | none => psEthList
        | some (psList, clients) =>
            { psEthList with
                clients := { clients with list := { clients.list with head := some psList } } })

/-- The first entry of `psEthList` of a type is the one that counts. -/
def ethLinkCreateSocket (fuel : Nat) (type : UInt16) (ip : UInt32) (port : UInt16)
    (created : Option Nat) :
    List EthLinkType → Option (List EthLinkType)
  | [] => some []
  | psList :: rest =>
      if psList.type = type then
        if psList.net = rthLinkNetTcpClient then
          (ethLinkAddTcpClientList fuel psList ip port created).map fun psList => psList :: rest
        else some (psList :: rest)
      else (ethLinkCreateSocket fuel type ip port created rest).map fun rest => psList :: rest

/-! ## Where the search stops -/

section Search

variable {t : TcpList TcpClient} {uIp : UInt32} {wPort : UInt16}

/-- The search stops at the endpoint, or behind all entries but the last one. -/
inductive StopsAt (uIp : UInt32) (wPort : UInt16) (listed : List (Nat × TcpClient))
    (counted : UInt32) :
    UInt32 → Nat × TcpClient → Prop where
  | known (uCount : UInt32) (e : Nat × TcpClient) : e ∈ listed → e.2 = ⟨uIp, wPort⟩ →
      StopsAt uIp wPort listed counted uCount e
  | last (front : List (Nat × TcpClient)) (e : Nat × TcpClient) : listed = front ++ [e] →
      (∀ f ∈ front, f.2 ≠ ⟨uIp, wPort⟩) → StopsAt uIp wPort listed counted
      (counted + UInt32.ofNat front.length) e

theorem StopsAt.cons {listed : List (Nat × TcpClient)} {counted uCount : UInt32}
    {e f : Nat × TcpClient}
    (other : f.2 ≠ ⟨uIp, wPort⟩) (later : StopsAt uIp wPort listed (counted + 1) uCount e) :
    StopsAt uIp wPort (f :: listed) counted uCount e := by
  cases later with
  | known uCount e member same => exact .known uCount e (List.mem_cons_of_mem f member) same
  | last front e split passed =>
      have counts : counted + 1 + UInt32.ofNat front.length = counted + UInt32.ofNat
          (f :: front).length := by
        rw [List.length_cons, UInt32.ofNat_add, UInt32.add_assoc, UInt32.add_comm 1]
        rfl
      rw [counts]
      exact .last (f :: front) e (by rw [split, List.cons_append])
        (List.forall_mem_cons.mpr ⟨other, passed⟩)

theorem findTcpClientFrom_stops (uIp : UInt32) (wPort : UInt16) {listed : List (Nat × TcpClient)}
    {e : Nat × TcpClient} {fuel : Nat} (counted : UInt32)
    (chain : Segment t.list.next (some e.1) ((e :: listed).map Prod.fst) none)
    (contents : ∀ f ∈ e :: listed, t.entries f.1 = some f.2)
    (enough : (e :: listed).length ≤ fuel) :
    ∃ uCount stop, findTcpClientFrom uIp wPort t fuel counted e.1 = some (uCount, stop.1) ∧
      t.entries stop.1 = some stop.2 ∧ StopsAt uIp wPort (e :: listed) counted uCount stop := by
  induction listed generalizing e fuel counted with
  | nil =>
      obtain ⟨fuel, rfl⟩ := Nat.exists_eq_succ_of_ne_zero (Nat.ne_zero_of_lt enough)
      have here := contents e List.mem_cons_self
      have ends : t.list.next e.1 = none := chain.2
      have last : StopsAt uIp wPort [e] counted (counted + UInt32.ofNat 0) e :=
        .last [] e rfl (fun f member => absurd member List.not_mem_nil)
      refine ⟨counted, e, ?_, here, by simpa using last⟩
      rw [findTcpClientFrom, here, ends]
      rfl
  | cons next listed ih =>
      obtain ⟨fuel, rfl⟩ := Nat.exists_eq_succ_of_ne_zero (Nat.ne_zero_of_lt enough)
      have here := contents e List.mem_cons_self
      have leads : t.list.next e.1 = some next.1 := chain.2.1
      rw [findTcpClientFrom, here, Option.bind_some, leads]
      by_cases same : e.2.uRemoteIp = uIp ∧ e.2.wRemotePort = wPort
      · refine ⟨counted, e, if_pos same, here, .known counted e List.mem_cons_self ?_⟩
        obtain ⟨ip, port⟩ := same
        rw [← ip, ← port]
      · have other : e.2 ≠ ⟨uIp, wPort⟩ := fun equal => same (by rw [equal]; exact ⟨rfl, rfl⟩)
        have tail := chain.2
        rw [leads] at tail
        obtain ⟨uCount, stop, found, live, stops⟩ := ih (counted + 1) tail
          (fun f member => contents f (List.mem_cons_of_mem e member))
          (Nat.le_of_succ_le_succ enough)
        exact ⟨uCount, stop, (if_neg same).trans found, live, stops.cons other⟩

end Search

/-! ## Who is admitted -/

/-- A new connection is appended, or nothing changes, as it should be. -/
def Admits (a : Nat) (uIp : UInt32) (wPort : UInt16) (psEthList : EthLinkType)
    (listed : List (Nat × TcpClient))
    (after : EthLinkType) : Prop :=
  if (∀ e ∈ listed, e.2 ≠ ⟨uIp, wPort⟩) ∧ listed.length < psEthList.max.toNat then
    after.clients.Lists (listed ++ [(a, ⟨uIp, wPort⟩)])
  else after = psEthList

/-- The entry has the address or the port of the endpoint. -/
def TcpClient.Shares (client : TcpClient) (uIp : UInt32) (wPort : UInt16) : Prop :=
  client.uRemoteIp = uIp ∨ client.wRemotePort = wPort

section Admission

variable {psEthList : EthLinkType} {listed : List (Nat × TcpClient)} {uIp : UInt32} {wPort : UInt16}
  {a fuel : Nat}

theorem ethLinkCreateTcpClientList_fresh {t : TcpList TcpClient} (free : t.entries a = none) :
    ethLinkCreateTcpClientList (some a) uIp wPort t =
      some (a, { list := { t.list with next := Function.update t.list.next a none }
                 entries := Function.update t.entries a (some ⟨uIp, wPort⟩) }) := by
  rw [ethLinkCreateTcpClientList, malloc_fresh free]
  rfl

theorem Admits.unchanged_iff (lists : psEthList.clients.Lists listed) :
    Admits a uIp wPort psEthList listed psEthList ↔
      (∃ e ∈ listed, e.2 = ⟨uIp, wPort⟩) ∨ psEthList.max.toNat ≤ listed.length := by
  unfold Admits
  split
  · rename_i new
    have appended : ¬ psEthList.clients.Lists (listed ++ [(a, ⟨uIp, wPort⟩)]) := by
      intro longer
      have lengths := congrArg List.length (lists.unique longer)
      simp at lengths
    refine iff_of_false appended ?_
    rintro (⟨e, member, same⟩ | full)
    · exact new.1 e member same
    · exact absurd new.2 (Nat.not_lt.mpr full)
  · rename_i refused
    refine iff_of_true rfl ?_
    by_contra neither
    obtain ⟨unknown, room⟩ := not_or.mp neither
    exact refused ⟨fun e member same => unknown ⟨e, member, same⟩, Nat.lt_of_not_le room⟩

theorem Admits.appended_iff {after : EthLinkType} (lists : psEthList.clients.Lists listed)
    (appended : after.clients.Lists (listed ++ [(a, ⟨uIp, wPort⟩)])) :
    Admits a uIp wPort psEthList listed after ↔
      (∀ e ∈ listed, e.2 ≠ ⟨uIp, wPort⟩) ∧ listed.length < psEthList.max.toNat := by
  unfold Admits
  split
  · rename_i new
    exact iff_of_true appended new
  · rename_i refused
    refine iff_of_false ?_ refused
    rintro rfl
    have lengths := congrArg List.length (lists.unique appended)
    simp at lengths

/-- `uCount` has 32 bits, and so has the limit it is compared with. -/
theorem max_gt_count_iff (max : UInt8) (n : Nat) :
    max.toUInt32 > 1 + UInt32.ofNat n ↔ (n + 1) % 2 ^ 32 < max.toNat := by
  have count : (1 + UInt32.ofNat n).toNat = (n + 1) % 2 ^ 32 := by
    rw [UInt32.toNat_add, UInt32.toNat_ofNat', Nat.add_mod_mod, Nat.add_comm]
    rfl
  rw [gt_iff_lt, UInt32.lt_iff_toNat_lt, count, UInt8.toNat_toUInt32]

/-- When the call does what it should, by where the search stops. -/
def AdmitsWhen (uIp : UInt32) (wPort : UInt16) (max : UInt8) (listed : List (Nat × TcpClient)) :
    Prop :=
  listed = [] ∨ (∃ e ∈ listed, e.2 = ⟨uIp, wPort⟩) ∨
    ∃ last ∈ listed.getLast?, (last.2.Shares uIp wPort ∧ max.toNat ≤ listed.length) ∨
      (¬ last.2.Shares uIp wPort ∧ (listed.length < max.toNat ∨ max.toNat ≤ listed.length % 2 ^ 32))

theorem exists_last_iff {front : List (Nat × TcpClient)} {e : Nat × TcpClient}
    (passed : ∀ f ∈ front, f.2 ≠ ⟨uIp, wPort⟩) :
    (∃ f ∈ front ++ [e], f.2 = ⟨uIp, wPort⟩) ↔ e.2 = ⟨uIp, wPort⟩ := by
  constructor
  · rintro ⟨f, member, same⟩
    rcases List.mem_append.mp member with early | late
    · exact absurd same (passed f early)
    · rwa [← List.mem_singleton.mp late]
  · exact fun same => ⟨e, List.mem_append_right front List.mem_cons_self, same⟩

theorem admitsWhen_last {max : UInt8} {front : List (Nat × TcpClient)} {e : Nat × TcpClient}
    (passed : ∀ f ∈ front, f.2 ≠ ⟨uIp, wPort⟩) :
    AdmitsWhen uIp wPort max (front ++ [e]) ↔
      e.2 = ⟨uIp, wPort⟩ ∨ (e.2.Shares uIp wPort ∧ max.toNat ≤ front.length + 1) ∨
        (¬ e.2.Shares uIp wPort ∧
          (front.length + 1 < max.toNat ∨ max.toNat ≤ (front.length + 1) % 2 ^ 32)) := by
  have known := exists_last_iff passed (e := e)
  have nonempty : front ++ [e] ≠ [] :=
    List.append_ne_nil_of_right_ne_nil front (List.cons_ne_nil e [])
  simp only [AdmitsWhen, known, nonempty, false_or, List.getLast?_concat, Option.mem_some_iff,
    exists_eq_left', List.length_append, List.length_singleton]

theorem ethLinkAdd_last {front : List (Nat × TcpClient)} {e : Nat × TcpClient}
    (lists : psEthList.clients.Lists (front ++ [e])) (free : psEthList.clients.entries a = none)
    (passed : ∀ f ∈ front, f.2 ≠ ⟨uIp, wPort⟩) :
    Admits a uIp wPort psEthList (front ++ [e])
      (ethLinkAddToTcpClients psEthList uIp wPort (some a) (1 + UInt32.ofNat front.length) e) ↔
        AdmitsWhen uIp wPort psEthList.max (front ++ [e]) := by
  have both : (∃ f ∈ front ++ [e], f.2 = ⟨uIp, wPort⟩) ↔ e.2 = ⟨uIp, wPort⟩ :=
    exists_last_iff passed
  have counts := max_gt_count_iff psEthList.max front.length
  rw [admitsWhen_last passed, ethLinkAddToTcpClients]
  by_cases shares : e.2.Shares uIp wPort
  · rw [if_neg fun branch => shares.elim branch.1 branch.2.1, Admits.unchanged_iff lists, both,
      List.length_append, List.length_singleton]
    simp only [shares, true_and, not_true, false_and, or_false]
  · obtain ⟨ip, port⟩ := not_or.mp shares
    have other : e.2 ≠ ⟨uIp, wPort⟩ := fun same => ip (congrArg TcpClient.uRemoteIp same)
    simp only [shares, other, false_and, false_or, not_false_iff, true_and]
    by_cases room : (front.length + 1) % 2 ^ 32 < psEthList.max.toNat
    · rw [if_pos ⟨ip, port, counts.mpr room⟩, ethLinkCreateTcpClientList_fresh free,
        Admits.appended_iff lists]
      · have unknown : ∀ f ∈ front ++ [e], f.2 ≠ ⟨uIp, wPort⟩ :=
          fun f member same => other (both.mp ⟨f, member, same⟩)
        simp only [List.length_append, List.length_singleton, Nat.not_le.mpr room, or_false]
        exact and_iff_right unknown
      · exact lists.concat free
    · have full : psEthList.max.toNat ≤ (front.length + 1) % 2 ^ 32 := Nat.not_lt.mp room
      rw [if_neg fun branch => room (counts.mp branch.2.2), Admits.unchanged_iff lists, both,
        List.length_append, List.length_singleton]
      exact iff_of_true (.inr (Nat.le_trans full (Nat.mod_le _ _))) (.inr full)

end Admission

/-- A C2 is admitted as it should be unless the last connection shares its address
    or its port alone while there is room, or so many connections are listed that
    their count wraps. -/
theorem ethLinkAddTcpClientList_iff (psEthList : EthLinkType) (listed : List (Nat × TcpClient))
    (uIp : UInt32)
    (wPort : UInt16) (a fuel : Nat) (lists : psEthList.clients.Lists listed)
    (free : psEthList.clients.entries a = none) (limit : 1 ≤ psEthList.max)
    (enough : listed.length ≤ fuel) :
    ∃ after, ethLinkAddTcpClientList fuel psEthList uIp wPort (some a) = some after ∧
      (Admits a uIp wPort psEthList listed after ↔ AdmitsWhen uIp wPort psEthList.max listed) := by
  cases listed with
  | nil =>
      have empty : psEthList.clients.list.head = none := lists.chain
      unfold ethLinkAddTcpClientList
      rw [empty]
      refine ⟨_, rfl, ?_⟩
      rw [ethLinkCreateTcpClientList_fresh free]
      refine iff_of_true
        ((Admits.appended_iff lists ?_).mpr ⟨by simp, UInt8.le_iff_toNat_le.mp limit⟩) (.inl rfl)
      exact TcpList.Lists.single psEthList.clients a _
  | cons e rest =>
      have chain := lists.chain
      have first : psEthList.clients.list.head = some e.1 := chain.1
      rw [Links.Holds, first] at chain
      obtain ⟨uCount, stop, found, live, stops⟩ :=
        findTcpClientFrom_stops uIp wPort 1 chain lists.contents enough
      unfold ethLinkAddTcpClientList
      rw [first]
      simp only [found, live, Option.bind_some, Option.map_some]
      refine ⟨_, rfl, ?_⟩
      cases stops with
      | known uCount stop member same =>
          rw [ethLinkAddToTcpClients, if_neg fun branch => branch.1
            (congrArg TcpClient.uRemoteIp same), Admits.unchanged_iff lists]
          exact iff_of_true (.inl ⟨stop, member, same⟩) (.inr (.inl ⟨stop, member, same⟩))
      | last front stop split passed =>
          rw [split] at lists ⊢
          exact ethLinkAdd_last lists free passed

/-- One connection, to the address 10 and the port 20. -/
def oneClient : EthLinkType where
  net := rthLinkNetTcpClient
  max := 2
  type := 1
  clients := countList 1 ⟨10, 20⟩

theorem oneClient_lists : oneClient.clients.Lists [(0, ⟨10, 20⟩)] :=
  ⟨⟨rfl, rfl⟩, by decide⟩

theorem ethLinkAddTcpClientList_iff_oneClient :
    ∃ after, ethLinkAddTcpClientList 1 oneClient 11 21 (some 1) = some after ∧
      (Admits 1 11 21 oneClient [(0, ⟨10, 20⟩)] after ↔
        AdmitsWhen 11 21 oneClient.max [(0, ⟨10, 20⟩)]) :=
  ethLinkAddTcpClientList_iff oneClient [(0, ⟨10, 20⟩)] 11 21 1 1 oneClient_lists rfl (by decide)
    (by decide)

/-- A second C2 at the same address is turned away while there is room. -/
theorem ethLinkAddTcpClientList_refuses :
    ethLinkAddTcpClientList 1 oneClient 10 21 (some 1) = some oneClient ∧
      ¬ Admits 1 10 21 oneClient [(0, ⟨10, 20⟩)] oneClient := by
  refine ⟨rfl, ?_⟩
  rw [Admits.unchanged_iff oneClient_lists]
  decide

end PtzAgx.EthLink
