import PtzAgx.EthLink.TcpClients

/-! # The registry of C2 connections

C2s ask to be connected to, and the threads of connections end, in any order. What
one request leaves of the list is said once; that no two connections go to one
endpoint, and that there are no more than the limit, follows for every run.
-/

namespace PtzAgx.EthLink

open Alloc Intrusive

/-! ## Runs -/

/-- A C2 asks for a connection, or the thread of one ends. -/
inductive ClientCall where
  | add (uIp : UInt32) (wPort : UInt16) (created : Option Nat)
  | del (psList : Nat)

/-- More than a list whose limit has eight bits can have. -/
def clientListFuel : Nat := 256

/-- Only the threads of connections that there are can end. -/
def ClientCall.run (psEthList : EthLinkType) : ClientCall → Option EthLinkType
  | .add uIp wPort created => ethLinkAddTcpClientList clientListFuel psEthList uIp wPort created
  | .del psList =>
      if (psEthList.clients.entries psList).isSome then
        (ethLinkDelTcpClientList clientListFuel psList psEthList.clients).map fun clients =>
          { psEthList with clients }
      else some psEthList

/-! ## What a call leaves -/

/-- A request for an endpoint leaves the connections as they are, or adds one that
    is new while there is room. -/
inductive Joins (uIp : UInt32) (wPort : UInt16) (max : UInt8) (listed : List (Nat × TcpClient)) :
    List (Nat × TcpClient) → Prop where
  | refused : Joins uIp wPort max listed listed
  | joined (a : Nat) : (∀ e ∈ listed, e.2 ≠ ⟨uIp, wPort⟩) → listed.length < max.toNat →
      Joins uIp wPort max listed (listed ++ [(a, ⟨uIp, wPort⟩)])

/-- The connections are these, no two to one endpoint, and not more than the limit. -/
structure EthLinkType.Keeps (psEthList : EthLinkType) (max : UInt8)
    (listed : List (Nat × TcpClient)) : Prop where
  lists : psEthList.clients.Lists listed
  limit : psEthList.max = max
  distinct : listed.Pairwise fun a b => a.2 ≠ b.2
  few : listed.length ≤ max.toNat

section Registry

variable {psEthList : EthLinkType} {listed listed' front : List (Nat × TcpClient)}
  {e : Nat × TcpClient} {uIp : UInt32}
  {wPort : UInt16} {max : UInt8}

theorem Joins.distinct (joins : Joins uIp wPort max listed listed')
    (distinct : listed.Pairwise fun a b => a.2 ≠ b.2) :
    listed'.Pairwise fun a b => a.2 ≠ b.2 := by
  cases joins with
  | refused => exact distinct
  | joined a unknown room =>
      refine List.pairwise_append.mpr ⟨distinct, List.pairwise_singleton _ _, ?_⟩
      intro e member f new
      obtain rfl := List.mem_singleton.mp new
      exact unknown e member

theorem Joins.few (joins : Joins uIp wPort max listed listed') (few : listed.length ≤ max.toNat) :
    listed'.length ≤ max.toNat := by
  cases joins with
  | refused => exact few
  | joined a unknown room =>
      rw [List.length_append]
      exact room

theorem ethLinkCreateTcpClientList_cases (created : Option Nat) (uIp : UInt32) (wPort : UInt16)
    (t : TcpList TcpClient) :
    ethLinkCreateTcpClientList created uIp wPort t = none ∨ ∃ a, created = some a ∧
      t.entries a = none := by
  cases created with
  | none => exact .inl rfl
  | some a =>
      cases place : t.entries a with
      | none => exact .inr ⟨a, rfl, place⟩
      | some client => exact .inl (by simp [ethLinkCreateTcpClientList, malloc, place])

theorem ethLinkAddToTcpClients_joins (created : Option Nat)
    (lists : psEthList.clients.Lists (front ++ [e]))
    (passed : ∀ f ∈ front, f.2 ≠ ⟨uIp, wPort⟩) (short : front.length < 2 ^ 32 - 1) :
    ∃ listed',
      (ethLinkAddToTcpClients psEthList uIp wPort created (1 + UInt32.ofNat front.length) e).max =
        psEthList.max ∧
      (ethLinkAddToTcpClients psEthList uIp wPort created (1 +
        UInt32.ofNat front.length) e).clients.Lists listed' ∧
      Joins uIp wPort psEthList.max (front ++ [e]) listed' := by
  unfold ethLinkAddToTcpClients
  split
  case isFalse => exact ⟨front ++ [e], rfl, lists, .refused⟩
  case isTrue branch =>
    obtain ⟨ip, -, room⟩ := branch
    rw [max_gt_count_iff, Nat.mod_eq_of_lt (by omega)] at room
    rcases ethLinkCreateTcpClientList_cases created uIp wPort psEthList.clients
      with failed | ⟨a, rfl, free⟩
    · rw [failed]
      exact ⟨front ++ [e], rfl, lists.hang_none, .refused⟩
    · rw [ethLinkCreateTcpClientList_fresh free]
      refine ⟨front ++ [e] ++ [(a, ⟨uIp, wPort⟩)], rfl, ?_, .joined a ?_ ?_⟩
      · exact lists.concat free
      · intro f member
        rcases List.mem_append.mp member with early | late
        · exact passed f early
        · obtain rfl := List.mem_singleton.mp late
          exact fun same => ip (congrArg TcpClient.uRemoteIp same)
      · rw [List.length_append]
        exact room

theorem ethLinkAddTcpClientList_joins (uIp : UInt32) (wPort : UInt16) (created : Option Nat)
    (keeps : psEthList.Keeps max listed) (limit : 1 ≤ max) :
    ∃ after listed', ethLinkAddTcpClientList clientListFuel psEthList uIp wPort created =
      some after ∧
      after.max = max ∧ after.clients.Lists listed' ∧ Joins uIp wPort max listed listed' := by
  obtain ⟨lists, rfl, -, few⟩ := keeps
  have small : listed.length ≤ 255 := Nat.le_trans few (Nat.le_of_lt_succ psEthList.max.toNat_lt)
  unfold ethLinkAddTcpClientList
  cases listed with
  | nil =>
      have empty : psEthList.clients.list.head = none := lists.chain
      rw [empty]
      rcases ethLinkCreateTcpClientList_cases created uIp wPort psEthList.clients
        with failed | ⟨a, rfl, free⟩
      · rw [failed]
        exact ⟨psEthList, [], rfl, rfl, lists, .refused⟩
      · rw [ethLinkCreateTcpClientList_fresh free]
        refine ⟨_, [(a, ⟨uIp, wPort⟩)], rfl, rfl, TcpList.Lists.single psEthList.clients a _,
          .joined a ?_ ?_⟩
        · exact fun e member => absurd member List.not_mem_nil
        · exact UInt8.le_iff_toNat_le.mp limit
  | cons first rest =>
      have chain := lists.chain
      have head : psEthList.clients.list.head = some first.1 := chain.1
      rw [Links.Holds, head] at chain
      have enough : (first :: rest).length ≤ clientListFuel := Nat.le_succ_of_le small
      obtain ⟨uCount, stop, found, live, stops⟩ :=
        findTcpClientFrom_stops uIp wPort 1 chain lists.contents enough
      rw [head]
      simp only [found, live, Option.bind_some, Option.map_some]
      cases stops with
      | known uCount stop member same =>
          rw [ethLinkAddToTcpClients, if_neg fun branch => branch.1
            (congrArg TcpClient.uRemoteIp same)]
          exact ⟨psEthList, first :: rest, rfl, rfl, lists, .refused⟩
      | last front stop split passed =>
          rw [split] at lists small ⊢
          have short : front.length < 2 ^ 32 - 1 := by
            rw [List.length_append, List.length_singleton] at small
            omega
          obtain ⟨listed', same, lists', joins⟩ :=
            ethLinkAddToTcpClients_joins created lists passed short
          exact ⟨_, listed', rfl, same, lists', joins⟩

theorem ClientCall.run_keeps (call : ClientCall) (keeps : psEthList.Keeps max listed)
    (limit : 1 ≤ max) :
    ∃ after listed', call.run psEthList = some after ∧ after.Keeps max listed' := by
  cases call with
  | add uIp wPort created =>
      obtain ⟨after, listed', ran, same, lists, joins⟩ :=
        ethLinkAddTcpClientList_joins uIp wPort created keeps limit
      exact ⟨after, listed', ran, lists, same, joins.distinct keeps.distinct, joins.few keeps.few⟩
  | del psList =>
      obtain ⟨lists, same, distinct, few⟩ := keeps
      by_cases live : (psEthList.clients.entries psList).isSome
      · have enough : listed.length ≤ clientListFuel := Nat.le_trans few (Nat.le_of_lt max.toNat_lt)
        obtain ⟨clients, left, removed, lists', part⟩ := lists.del live enough
        refine ⟨{ psEthList with clients }, left, ?_, lists', same, distinct.sublist part,
          Nat.le_trans part.length_le few⟩
        rw [run, if_pos live]
        exact congrArg (Option.map _) removed
      · exact ⟨psEthList, listed, by rw [run, if_neg live], lists, same, distinct, few⟩

theorem clientRun_keeps (calls : List ClientCall) (keeps : psEthList.Keeps max listed)
    (limit : 1 ≤ max) :
    ∃ last listed', calls.foldlM ClientCall.run psEthList = some last ∧ last.Keeps max listed' := by
  induction calls generalizing psEthList listed with
  | nil => exact ⟨psEthList, listed, rfl, keeps⟩
  | cons call calls ih =>
      obtain ⟨after, between, ran, kept⟩ := call.run_keeps keeps limit
      obtain ⟨last, listed', rest, kept'⟩ := ih kept
      refine ⟨last, listed', ?_, kept'⟩
      rw [List.foldlM_cons, ran]
      exact rest

end Registry

/-- From an empty list on, whatever C2s ask for and whichever connections end: every
    call returns, the endpoints listed differ, and there are no more than the limit. -/
theorem clientRegistry_distinct (psEthList : EthLinkType) (calls : List ClientCall)
    (empty : psEthList.clients.Lists []) (limit : 1 ≤ psEthList.max) :
    ∃ last listed, calls.foldlM ClientCall.run psEthList = some last ∧ last.clients.Lists listed ∧
      (listed.Pairwise fun a b => (a.2.uRemoteIp, a.2.wRemotePort) ≠ (b.2.uRemoteIp,
        b.2.wRemotePort)) ∧
      listed.length ≤ psEthList.max.toNat := by
  obtain ⟨last, listed, ran, kept⟩ :=
    clientRun_keeps calls ⟨empty, rfl, List.Pairwise.nil, Nat.zero_le _⟩ limit
  refine ⟨last, listed, ran, kept.lists, kept.distinct.imp ?_, kept.few⟩
  rintro ⟨_, ip, port⟩ ⟨_, ip', port'⟩ differ same
  obtain ⟨rfl, rfl⟩ := Prod.mk.inj same
  exact differ rfl

/-- A list for two connections. -/
def noClients : EthLinkType := { oneClient with clients := countList 0 ⟨0, 0⟩ }

theorem clientRegistry_distinct_two :
    ∃ last listed, [.add 10 20 (some 0), .add 11 21 (some 1), .add 12 22 (some 2), .del 0].foldlM
        ClientCall.run noClients = some last ∧ last.clients.Lists listed ∧
      (listed.Pairwise fun a b => (a.2.uRemoteIp, a.2.wRemotePort) ≠ (b.2.uRemoteIp,
        b.2.wRemotePort)) ∧
      listed.length ≤ noClients.max.toNat :=
  clientRegistry_distinct noClients _ ⟨rfl, fun e member => absurd member List.not_mem_nil⟩
    (by decide)

end PtzAgx.EthLink
