import Mathlib.Data.List.InsertIdx
import Mathlib.Data.List.Perm.Basic
import PtzAgx.Lib.Alloc
import PtzAgx.Lib.Bytes
import PtzAgx.Lib.Intrusive
import PtzAgx.Lib.Mailbox

/-! # The targets on their way to the algorithm

`insert_target_to_head`, `get_and_rm_one_target` and `target_node_destory` of
`alg_app.cpp`. The nodes and the copies of the packs lie in heaps of their own.
What touches a block that is not allocated has no result, and neither has a walk
along the list that runs out of fuel. The mutex makes every call atomic; it and
the diagnostics are left out.
-/

namespace PtzAgx.App

open Alloc Bytes Intrusive

def targetNodeMaxNumber : Int := 3

/-- `TRACK_INFO_FROM_USER`. -/
def trackInfoFromUser : Int := 3

def retValueInvalidParm : Int := -4
def retValueParameterNull : Int := -1

/-- `target_pack_info_t` as a caller gives it. -/
structure TargetPackInfo where
  dataDevType : Int
  targetPack : Ptr UInt8
  packLen : Int

/-- `targets_t`, in which `target_pack` is the place of the copy. -/
structure TargetsNode where
  dataDevType : Int
  targetPack : Option Nat
  packLen : Int
  next : Option Nat
  deriving Repr, DecidableEq

/-- The part of `alg_app_res_t` that holds targets, with the blocks it refers to
    and the count that `skyfend_malloc` and `skyfend_free` keep. -/
structure AlgAppRes where
  head : Option Nat
  userTarget : Option Nat
  targetsNum : Int
  nodes : Heap TargetsNode
  packs : Heap (List UInt8)
  mallocFreeCnt : Int

/-- `static alg_app_res_t alg_t = {0}`. -/
def AlgAppRes.zero : AlgAppRes :=
  { head := none, userTarget := none, targetsNum := 0, nodes := fun _ => none,
    packs := fun _ => none, mallocFreeCnt := 0 }

/-! ## Blocks -/

def mallocNode (choice : Option Nat) (node : TargetsNode) (aarT : AlgAppRes) :
    Option (Nat × AlgAppRes) :=
  (malloc choice node aarT.nodes).map fun (a, nodes) =>
    (a, { aarT with nodes, mallocFreeCnt := aarT.mallocFreeCnt + 1 })

def mallocPack (choice : Option Nat) (bytes : List UInt8) (aarT : AlgAppRes) :
    Option (Nat × AlgAppRes) :=
  (malloc choice bytes aarT.packs).map fun (a, packs) =>
    (a, { aarT with packs, mallocFreeCnt := aarT.mallocFreeCnt + 1 })

def freeNode (node : Nat) (aarT : AlgAppRes) : Option AlgAppRes :=
  (free node aarT.nodes).map fun nodes =>
    { aarT with nodes, mallocFreeCnt := aarT.mallocFreeCnt - 1 }

def freePack (pack : Nat) (aarT : AlgAppRes) : Option AlgAppRes :=
  (free pack aarT.packs).map fun packs =>
    { aarT with packs, mallocFreeCnt := aarT.mallocFreeCnt - 1 }

/-- A node with its copy, if it has one. -/
def freeTarget (node : Nat) (aarT : AlgAppRes) : Option AlgAppRes :=
  match aarT.nodes node with
  | none => none
  | some tmp =>
      match tmp.targetPack with
      | none => freeNode node aarT
      | some targetPack => (freePack targetPack aarT).bind (freeNode node)

/-! ## `insert_target_to_head` -/

/-- User targets. Of an old one only the node is given back. -/
def insertUserTarget (node : Nat) (aarT : AlgAppRes) : Option AlgAppRes :=
  match aarT.userTarget with
  | none => some { aarT with userTarget := some node }
  | some userTarget =>
    (freeNode userTarget aarT).map fun aarT => { aarT with userTarget := some node }

def dropOldest (head : Nat) (aarT : AlgAppRes) : Option AlgAppRes :=
  match aarT.nodes head with
  | none => none
  | some tmp =>
      (freeTarget head { aarT with head := tmp.next }).map fun aarT =>
        { aarT with targetsNum := aarT.targetsNum - 1 }

/-- `while(tmp->next)`. -/
def lastFrom (nodes : Heap TargetsNode) : Nat → Nat → Option Nat
  | 0, _ => none
  | fuel + 1, tmp =>
      match nodes tmp with
      | none => none
      | some node =>
          match node.next with
          | none => some tmp
          | some next => lastFrom nodes fuel next

def appendNode (fuel node : Nat) (aarT : AlgAppRes) : Option AlgAppRes :=
  match aarT.head with
  | none => none
  | some head =>
      match lastFrom aarT.nodes fuel head with
      | none => none
      | some tmp =>
          (modify tmp (fun last => { last with next := some node }) aarT.nodes).map fun nodes =>
            { aarT with nodes }

/-- Devices targets. -/
def insertDeviceTarget (fuel node : Nat) (aarT : AlgAppRes) : Option AlgAppRes :=
  let inserted :=
    match aarT.head with
    | none => some { aarT with head := some node }
    | some head =>
        if aarT.targetsNum > targetNodeMaxNumber then (dropOldest head aarT).bind
          (appendNode fuel node)
        else appendNode fuel node aarT
  inserted.map fun aarT => { aarT with targetsNum := aarT.targetsNum + 1 }

/-- `nodeAt` and `packAt` are where the two blocks are allocated, if they are. -/
def insertTargetToHead (fuel : Nat) (nodeAt packAt : Option Nat) (pack : Option TargetPackInfo)
    (aarT : AlgAppRes) :
    Option (Int × AlgAppRes) :=
  match pack with
  | none => some (retValueInvalidParm, aarT)
  | some pack =>
      if pack.packLen ≤ 0 then some (retValueInvalidParm, aarT)
      else
        match mallocNode nodeAt ⟨pack.dataDevType, none, pack.packLen, none⟩ aarT with
        | none => some (retValueParameterNull, aarT)
        | some (node, aarT) =>
            match mallocPack packAt (pack.targetPack.read pack.packLen.toNat) aarT with
            | none => (freeNode node aarT).map fun aarT => (retValueParameterNull, aarT)
            | some (targetPack, aarT) =>
                match modify node (fun node => { node with targetPack := some targetPack })
                  aarT.nodes with
                | none => none
                | some nodes =>
                    let inserted :=
                      if pack.dataDevType = trackInfoFromUser then insertUserTarget node
                        { aarT with nodes }
                      else insertDeviceTarget fuel node { aarT with nodes }
                    inserted.map fun aarT => (0, aarT)

/-! ## `get_and_rm_one_target` and `target_node_destory` -/

def getAndRmOneTarget (aarT : AlgAppRes) : Option (Option Nat × AlgAppRes) :=
  match aarT.userTarget with
  | some node => some (some node, { aarT with userTarget := none })
  | none =>
      match aarT.head with
      | none => some (none, aarT)
      | some node =>
          match aarT.nodes node with
          | none => none
          | some first =>
              (modify node (fun node => { node with next := none }) aarT.nodes).map fun nodes =>
                (some node,
                  { aarT with head := first.next, nodes, targetsNum := aarT.targetsNum - 1 })

def targetNodeDestory (node : Option Nat) (aarT : AlgAppRes) : Option AlgAppRes :=
  match node with
  | none => some aarT
  | some node => freeTarget node aarT

/-! ## Calls in any order -/

/-- `destory` is about one of the nodes the consumer has got and not destroyed
    yet, by its number; without such a node it is about `NULL`. -/
inductive TargetCall where
  | insert (nodeAt packAt : Option Nat) (pack : Option TargetPackInfo)
  | get
  | destory (i : Nat)

/-- What a call returns. -/
inductive TargetReply where
  | ret (ret : Int)
  | node (node : Option Nat)
  deriving Repr, DecidableEq

/-- The store and the nodes its consumer holds. -/
structure TargetWorld where
  aarT : AlgAppRes
  held : List Nat

def TargetCall.run (fuel : Nat) (w : TargetWorld) : TargetCall → Option (TargetReply × TargetWorld)
  | .insert nodeAt packAt pack =>
      (insertTargetToHead fuel nodeAt packAt pack w.aarT).map fun (ret, aarT) =>
        (.ret ret, { w with aarT })
  | .get =>
    (getAndRmOneTarget w.aarT).map fun (node, aarT) =>
      (.node node, { aarT, held := w.held ++ node.toList })
  | .destory i =>
      (targetNodeDestory w.held[i]? w.aarT).map fun aarT =>
        (.ret 0, { aarT, held := w.held.eraseIdx i })


/-! ## What the store is for -/

/-- A pack apart from where it lies. -/
structure TargetPack where
  dataDevType : Int
  bytes : List UInt8
  deriving Repr, DecidableEq

def TargetPackInfo.content (pack : TargetPackInfo) : TargetPack :=
  ⟨pack.dataDevType, pack.targetPack.read pack.packLen.toNat⟩

/-- The latest user target, and the device targets still to be taken. -/
abbrev TargetMailbox := Mailbox TargetPack 4

def TargetMailbox.insert (m : TargetMailbox) (pack : TargetPack) : TargetMailbox :=
  if pack.dataDevType = trackInfoFromUser then m.post pack else m.put pack

/-- `next` of every node there is. -/
def nextOf (nodes : Heap TargetsNode) (a : Nat) : Option Nat := (nodes a).bind TargetsNode.next

/-- The node at this place is one of this pack. -/
def Carries (aarT : AlgAppRes) (node : Nat) (pack : TargetPack) : Prop :=
  ∃ next a, aarT.nodes node = some ⟨pack.dataDevType, some a, pack.bytes.length, next⟩ ∧
    aarT.packs a = some pack.bytes

/-- The list holds the queue in order, the counter its length, and the user
    target is what is urgent. -/
def Represents (aarT : AlgAppRes) (m : TargetMailbox) : Prop :=
  (∃ nodes, Segment (nextOf aarT.nodes) aarT.head nodes none ∧
    List.Forall₂ (Carries aarT) nodes m.queue ∧
    aarT.targetsNum = nodes.length ∧ aarT.targetsNum ≤ 4) ∧
  Option.Rel (Carries aarT) aarT.userTarget m.urgent

/-- There is a pack to insert and memory for it. -/
def Insertable (aarT : AlgAppRes) (nodeAt packAt : Option Nat) (pack : TargetPackInfo) : Prop :=
  0 < pack.packLen ∧ (∃ a, nodeAt = some a ∧ aarT.nodes a = none) ∧ ∃ a, packAt = some a ∧
    aarT.packs a = none

/-- What a call does to the mailbox, seen from the store. A failed `insert`
    leaves everything as it was. -/
def TargetCall.Agrees (w w' : TargetWorld) (reply : TargetReply) (m m' : TargetMailbox) :
    TargetCall → Prop
  | .insert nodeAt packAt pack =>
      (∃ p, pack = some p ∧ Insertable w.aarT nodeAt packAt p ∧ reply = .ret 0 ∧
        m' = m.insert p.content) ∨
        ((∀ p, pack = some p → ¬ Insertable w.aarT nodeAt packAt p) ∧
          (∃ ret, ret ≠ 0 ∧ reply = .ret ret) ∧
          w' = w ∧ m' = m)
  | .get =>
      m' = m.get.2 ∧
        ∃ node, reply = .node node ∧ Option.Rel (Carries w'.aarT) node m.get.1
  | .destory _ => m' = m

/-- Every call returns and agrees with the mailbox, which the store represents
    all along. -/
inductive Refines (fuel : Nat) : TargetWorld → TargetMailbox → List TargetCall → Prop where
  | done {w m} : Represents w.aarT m → Refines fuel w m []
  | call {w w' m m' call reply calls} : Represents w.aarT m → call.run fuel w = some (reply, w') →
      call.Agrees w w' reply m m' → Refines fuel w' m' calls → Refines fuel w m (call :: calls)

/-! ## Who owns which blocks -/

/-- A target in memory: where its node and its copy are, and what they hold. -/
structure Target where
  node : Nat
  block : Nat
  pack : TargetPack
  deriving DecidableEq

def Target.IsNode (t : Target) (b : TargetsNode) : Prop :=
  b.dataDevType = t.pack.dataDevType ∧ b.targetPack = some t.block ∧ b.packLen = t.pack.bytes.length

/-- The targets whose blocks are in use. -/
structure OwnsTargets (aarT : AlgAppRes) (live : List Target) : Prop where
  nodes : Owns aarT.nodes Target.node Target.IsNode live
  packs : Owns aarT.packs Target.block (fun t bytes => bytes = t.pack.bytes) live

/-- The store holds these targets, and its consumer those. -/
structure Holds (aarT : AlgAppRes) (queue : List Target) (user : Option Target)
    (held : List Target) : Prop where
  chain : Segment (nextOf aarT.nodes) aarT.head (queue.map Target.node) none
  urgent : aarT.userTarget = user.map Target.node
  owns : OwnsTargets aarT (queue ++ (user.toList ++ held))

section Ownership

variable {aarT : AlgAppRes} {live live' : List Target} {t : Target}

theorem nextOf_update (nodes : Heap TargetsNode) (a : Nat) (b : Option TargetsNode) :
    nextOf (Function.update nodes a b) =
      Function.update (nextOf nodes) a (b.bind TargetsNode.next) := by
  funext x
  unfold nextOf
  by_cases here : x = a
  · rw [here, Function.update_self, Function.update_self]
  · rw [Function.update_of_ne here, Function.update_of_ne here]

theorem OwnsTargets.perm (owns : OwnsTargets aarT live) (same : live.Perm live') :
    OwnsTargets aarT live' :=
  ⟨owns.nodes.perm same, owns.packs.perm same⟩

theorem OwnsTargets.carries (owns : OwnsTargets aarT live) (member : t ∈ live) :
    Carries aarT t.node t.pack := by
  obtain ⟨⟨type, targetPack, len, next⟩, node, rfl, rfl, rfl⟩ := owns.nodes.live t member
  obtain ⟨bytes, pack, rfl⟩ := owns.packs.live t member
  exact ⟨next, t.block, node, pack⟩

theorem freeTarget_owns (owns : OwnsTargets aarT (t :: live)) :
    ∃ aarT', freeTarget t.node aarT = some aarT' ∧ OwnsTargets aarT' live ∧
      aarT'.nodes = Function.update aarT.nodes t.node none ∧ aarT'.head = aarT.head ∧
      aarT'.userTarget = aarT.userTarget ∧ aarT'.targetsNum = aarT.targetsNum := by
  obtain ⟨b, node, -, copy, -⟩ := owns.nodes.live t List.mem_cons_self
  obtain ⟨bytes, pack, -⟩ := owns.packs.live t List.mem_cons_self
  refine ⟨{ aarT with
    nodes := Function.update aarT.nodes t.node none
    packs := Function.update aarT.packs t.block none
    mallocFreeCnt := aarT.mallocFreeCnt - 1 - 1 }, ?_, ⟨owns.nodes.dealloc, owns.packs.dealloc⟩,
      rfl, rfl, rfl, rfl⟩
  simp only [freeTarget, node, copy, freePack, free_live pack, Option.map_some, Option.bind_some,
    freeNode, free_live node]

theorem setNext_owns (owns : OwnsTargets aarT live) (member : t ∈ live) (next : Option Nat) :
    ∃ b, aarT.nodes t.node = some b ∧
      OwnsTargets { aarT with nodes := Function.update aarT.nodes t.node (some { b with next }) }
      live := by
  obtain ⟨b, node, is⟩ := owns.nodes.live t member
  exact ⟨b, node, owns.nodes.write member is, owns.packs⟩

theorem OwnsTargets.node_not_mem (owns : OwnsTargets aarT (t :: live)) :
    t.node ∉ live.map Target.node :=
  (List.nodup_cons.mp owns.nodes.distinct).1

end Ownership

/-! ## The walk to the last node -/

theorem lastFrom_chain {nodes : Heap TargetsNode} {last : Nat} {front : List Nat} {x fuel : Nat}
    (live : ∀ y ∈ front ++ [last], ∃ b, nodes y = some b)
    (chain : Segment (nextOf nodes) (some x) (front ++ [last]) none)
    (enough : front.length < fuel) : lastFrom nodes fuel x = some last := by
  induction front generalizing x fuel with
  | nil =>
      obtain ⟨same, ends⟩ := chain
      obtain rfl := Option.some.inj same
      obtain ⟨b, here⟩ := live x List.mem_cons_self
      obtain ⟨k, rfl⟩ := Nat.exists_eq_add_of_lt enough
      have later : nextOf nodes x = b.next := by simp only [nextOf, here, Option.bind_some]
      have stop : b.next = none := later.symm.trans ends
      simp only [lastFrom, here, stop]
  | cons y rest ih =>
      obtain ⟨same, tail⟩ := chain
      obtain rfl := Option.some.inj same
      obtain ⟨b, here⟩ := live x List.mem_cons_self
      obtain ⟨k, rfl⟩ := Nat.exists_eq_add_of_lt enough
      have later : nextOf nodes x = b.next := by simp only [nextOf, here, Option.bind_some]
      cases next : b.next with
      | none =>
          rw [later, next] at tail
          exact absurd (segment_none tail).1 (by simp)
      | some z =>
          rw [later, next] at tail
          simp only [lastFrom, here, next]
          exact ih (fun y member => live y (List.mem_cons_of_mem x member)) tail
            (by rw [List.length_cons]; omega)

/-! ## What the parts of `insert_target_to_head` do -/

section Insert

variable {aarT : AlgAppRes} {queue held : List Target} {user : Option Target} {t q : Target}

theorem Holds.dropOldest (holds : Holds aarT (q :: queue) user held) :
    ∃ aarT', dropOldest q.node aarT = some aarT' ∧ Holds aarT' queue user held ∧
      aarT'.nodes = Function.update aarT.nodes q.node none ∧
      aarT'.targetsNum = aarT.targetsNum - 1 := by
  obtain ⟨first, chain⟩ := holds.chain
  obtain ⟨b, node, -⟩ := holds.owns.nodes.live q List.mem_cons_self
  have next : nextOf aarT.nodes q.node = b.next := by simp only [nextOf, node, Option.bind_some]
  have owns : OwnsTargets { aarT with head := b.next } (q :: (queue ++ (user.toList ++ held))) :=
    ⟨holds.owns.nodes, holds.owns.packs⟩
  obtain ⟨aarT', freed, owns', nodes, head, urgent, count⟩ := freeTarget_owns owns
  have foreign : q.node ∉ queue.map Target.node := fun member =>
    owns.node_not_mem (by rw [List.map_append]; exact List.mem_append_left _ member)
  refine ⟨{ aarT' with targetsNum := aarT'.targetsNum - 1 }, ?_,
    ⟨?_, ?_, ⟨owns'.nodes, owns'.packs⟩⟩, nodes, ?_⟩
  · simp only [App.dropOldest, node, freed, Option.map_some]
  · simp only [nodes, nextOf_update, head]
    rw [← next]
    exact chain.update foreign
  · exact urgent.trans holds.urgent
  · simp only [count]

theorem Holds.appendNode {fuel : Nat} (holds : Holds aarT queue user (t :: held))
    (nonempty : queue ≠ [])
    (last : nextOf aarT.nodes t.node = none) (enough : queue.length ≤ fuel) :
    ∃ aarT', appendNode fuel t.node aarT = some aarT' ∧ Holds aarT' (queue ++ [t]) user held ∧
      aarT'.targetsNum = aarT.targetsNum := by
  obtain ⟨front, z, rfl⟩ := (List.eq_nil_or_concat' queue).resolve_left nonempty
  have chain := holds.chain
  rw [List.map_append, List.map_singleton] at chain
  have moved : (front ++ [z] ++ (user.toList ++ t :: held)).Perm
      (front ++ [z] ++ [t] ++ (user.toList ++ held)) := by
    rw [List.perm_iff_count]
    intro u
    simp only [List.count_append, List.count_cons, List.count_nil]
    omega
  have owns := holds.owns.perm moved
  obtain ⟨b, node, written⟩ :=
    setNext_owns owns (by simp : z ∈ front ++ [z] ++ [t] ++ (user.toList ++ held)) (some t.node)
  have live : ∀ y ∈ front.map Target.node ++ [z.node], ∃ b, aarT.nodes y = some b := by
    intro y member
    rw [← List.map_singleton, ← List.map_append] at member
    obtain ⟨u, listed, rfl⟩ := List.mem_map.mp member
    obtain ⟨b, here, -⟩ := holds.owns.nodes.live u (List.mem_append_left _ listed)
    exact ⟨b, here⟩
  have distinct := owns.nodes.distinct
  simp only [List.map_append, List.map_singleton] at distinct
  obtain ⟨-, -, apart⟩ := List.nodup_append.mp (List.nodup_append.mp distinct).1
  have other : t.node ≠ z.node := (apart z.node (by simp) t.node (by simp)).symm
  have single : z.node ∉ front.map Target.node := by
    intro member
    obtain ⟨-, -, apart⟩ :=
      List.nodup_append.mp (List.nodup_append.mp (List.nodup_append.mp distinct).1).1
    exact apart z.node member z.node List.mem_cons_self rfl
  cases head : aarT.head with
  | none =>
      rw [head] at chain
      exact absurd (segment_none chain).1 (by simp)
  | some x =>
      rw [head] at chain
      have short : (front.map Target.node).length < fuel := by
        rw [List.length_append, List.length_singleton] at enough
        rw [List.length_map]
        omega
      have walked := lastFrom_chain live chain short
      refine ⟨{ aarT with
          nodes := Function.update aarT.nodes z.node (some { b with next := some t.node }) }, ?_,
        ⟨?_, holds.urgent, written⟩, rfl⟩
      · simp only [App.appendNode, head, walked, modify_live _ node, Option.map_some]
      · simp only [List.map_append, List.map_singleton, nextOf_update, Option.bind_some, head]
        refine segment_append.mpr ⟨some t.node, Segment.redirect single chain, rfl, ?_⟩
        rw [Function.update_of_ne other]
        exact last

theorem Holds.insertUserTarget (holds : Holds aarT queue user (t :: held)) :
    ∃ aarT', insertUserTarget t.node aarT = some aarT' ∧ Holds aarT' queue (some t) held ∧
      aarT'.targetsNum = aarT.targetsNum := by
  cases user with
  | none =>
    exact ⟨{ aarT with userTarget := some t.node }, by
      simp only [App.insertUserTarget, holds.urgent]; rfl,
      ⟨holds.chain, rfl, holds.owns.nodes, holds.owns.packs⟩, rfl⟩
  | some old =>
      -- The copy of the old target stays allocated and belongs to nobody.
      have owns : OwnsTargets aarT (old :: (queue ++ t :: held)) := holds.owns.perm List.perm_middle
      obtain ⟨b, node, -⟩ := owns.nodes.live old List.mem_cons_self
      have foreign : old.node ∉ queue.map Target.node := fun member =>
        owns.node_not_mem (by rw [List.map_append]; exact List.mem_append_left _ member)
      refine ⟨{ aarT with
        userTarget := some t.node
        nodes := Function.update aarT.nodes old.node none
        mallocFreeCnt :=
          aarT.mallocFreeCnt - 1 }, ?_, ⟨?_, rfl, owns.nodes.dealloc, owns.packs.tail⟩, rfl⟩
      · simp only [App.insertUserTarget, holds.urgent, Option.map_some, freeNode, free_live node]
      · simp only [nextOf_update]
        exact holds.chain.update foreign

theorem Holds.insertDeviceTarget {fuel : Nat} (holds : Holds aarT queue user (t :: held))
    (last : nextOf aarT.nodes t.node = none) (count : aarT.targetsNum = queue.length)
    (bounded : queue.length ≤ 4)
    (enough : 4 ≤ fuel) :
    ∃ aarT', insertDeviceTarget fuel t.node aarT = some aarT' ∧
      Holds aarT' ((if queue.length < 4 then queue else queue.tail) ++ [t]) user held ∧
      aarT'.targetsNum = ((if queue.length < 4 then queue else queue.tail) ++ [t]).length := by
  have max : targetNodeMaxNumber = 3 := rfl
  cases queue with
  | nil =>
      have empty : aarT.head = none := holds.chain
      have owns := holds.owns.perm (List.perm_middle : (user.toList ++ t :: held).Perm
        (t :: (user.toList ++ held)))
      refine ⟨{ aarT with head := some t.node, targetsNum := aarT.targetsNum + 1 }, ?_,
        ⟨⟨rfl, last⟩, holds.urgent, owns.nodes, owns.packs⟩, ?_⟩
      · simp only [App.insertDeviceTarget, empty, Option.map_some]
      · rw [count]
        rfl
  | cons q rest =>
      have head : aarT.head = some q.node := holds.chain.1
      by_cases room : (q :: rest).length < 4
      · obtain ⟨aarT', appended, holds', kept⟩ :=
          holds.appendNode (List.cons_ne_nil q rest) last (by omega : _ ≤ fuel)
        have few : ¬ aarT.targetsNum > targetNodeMaxNumber := by omega
        refine ⟨{ aarT' with targetsNum := aarT'.targetsNum + 1 }, ?_, ?_, ?_⟩
        · simp only [App.insertDeviceTarget, head, few, if_false, appended, Option.map_some]
        · rw [if_pos room]
          exact ⟨holds'.chain, holds'.urgent, holds'.owns.nodes, holds'.owns.packs⟩
        · show aarT'.targetsNum + 1 = _
          rw [if_pos room, List.length_append, List.length_singleton]
          omega
      · obtain ⟨aarT₁, dropped, holds₁, nodes, fewer⟩ := holds.dropOldest
        rw [List.length_cons] at room bounded
        have last₁ : nextOf aarT₁.nodes t.node = none := by
          rw [nodes, nextOf_update]
          by_cases here : t.node = q.node
          · rw [here, Function.update_self]
            rfl
          · rwa [Function.update_of_ne here]
        have nonempty : rest ≠ [] := by
          rintro rfl
          exact room (by decide)
        obtain ⟨aarT', appended, holds', kept⟩ :=
          holds₁.appendNode nonempty last₁ (by omega : _ ≤ fuel)
        have full : aarT.targetsNum > targetNodeMaxNumber := by
          rw [List.length_cons] at count
          omega
        refine ⟨{ aarT' with targetsNum := aarT'.targetsNum + 1 }, ?_, ?_, ?_⟩
        · simp only [App.insertDeviceTarget, head, full, if_true, dropped, Option.bind_some,
            appended, Option.map_some]
        · rw [List.length_cons, if_neg room]
          exact ⟨holds'.chain, holds'.urgent, holds'.owns.nodes, holds'.owns.packs⟩
        · show aarT'.targetsNum + 1 = _
          rw [List.length_cons] at count
          rw [List.length_cons, if_neg room, List.tail_cons, List.length_append,
            List.length_singleton]
          omega

/-- The store once both blocks of a target are allocated and filled. -/
def AlgAppRes.allocated (aarT : AlgAppRes) (t : Target) : AlgAppRes :=
  { aarT with
    nodes := Function.update aarT.nodes t.node
      (some ⟨t.pack.dataDevType, some t.block, t.pack.bytes.length, none⟩)
    packs := Function.update aarT.packs t.block (some t.pack.bytes)
    mallocFreeCnt := aarT.mallocFreeCnt + 1 + 1 }

theorem Holds.allocated (holds : Holds aarT queue user held) (node : aarT.nodes t.node = none)
    (block : aarT.packs t.block = none) :
    Holds (aarT.allocated t) queue user (t :: held) ∧
      nextOf (aarT.allocated t).nodes t.node = none := by
  have foreign : t.node ∉ queue.map Target.node := fun member =>
    holds.owns.nodes.not_mem node (by rw [List.map_append]; exact List.mem_append_left _ member)
  have moved : (t :: (queue ++ (user.toList ++ held))).Perm (queue ++ (user.toList ++ t :: held)) :=
    List.perm_middle.symm.trans (List.Perm.append_left queue List.perm_middle.symm)
  have is : t.IsNode ⟨t.pack.dataDevType, some t.block, t.pack.bytes.length, none⟩ :=
    ⟨rfl, rfl, rfl⟩
  refine ⟨⟨?_, holds.urgent, (holds.owns.nodes.alloc node is).perm moved,
    (holds.owns.packs.alloc block rfl).perm moved⟩, ?_⟩
  · simp only [AlgAppRes.allocated, nextOf_update]
    exact holds.chain.update foreign
  · simp only [AlgAppRes.allocated, nextOf_update, Function.update_self, Option.bind_some]

/-- Either there is a new target to put into the list, or nothing has happened. -/
theorem insertTargetToHead_cases (fuel : Nat) (nodeAt packAt : Option Nat)
    (pack : Option TargetPackInfo)
    (aarT : AlgAppRes) :
    (∃ p t, pack = some p ∧ Insertable aarT nodeAt packAt p ∧ t.pack = p.content ∧
      aarT.nodes t.node = none ∧ aarT.packs t.block = none ∧
      insertTargetToHead fuel nodeAt packAt pack aarT =
        (if p.dataDevType = trackInfoFromUser then App.insertUserTarget t.node (aarT.allocated t)
          else App.insertDeviceTarget fuel t.node (aarT.allocated t)).map fun aarT => (0, aarT)) ∨
    ((∀ p, pack = some p → ¬ Insertable aarT nodeAt packAt p) ∧
      ∃ ret, ret ≠ 0 ∧ insertTargetToHead fuel nodeAt packAt pack aarT = some (ret, aarT)) := by
  cases pack with
  | none =>
    exact .inr ⟨fun p absent => (Option.some_ne_none p absent.symm).elim,
      retValueInvalidParm, by decide, rfl⟩
  | some p =>
      by_cases invalid : p.packLen ≤ 0
      · refine .inr ⟨fun p' same insertable => ?_,
          retValueInvalidParm, by decide, by simp only [insertTargetToHead, invalid, if_true]⟩
        obtain rfl := Option.some.inj same
        exact absurd insertable.1 (by omega)
      · cases allocNode : malloc nodeAt ⟨p.dataDevType, none, p.packLen, none⟩ aarT.nodes with
        | none =>
            refine .inr ⟨fun p' same insertable => ?_, retValueParameterNull, by decide, ?_⟩
            · obtain rfl := Option.some.inj same
              obtain ⟨-, ⟨a, rfl, fresh⟩, -⟩ := insertable
              rw [malloc_fresh fresh] at allocNode
              cases allocNode
            · simp only [insertTargetToHead, invalid, if_false, mallocNode, allocNode,
                Option.map_none]
        | some allocation =>
            obtain ⟨a, nodes⟩ := allocation
            obtain ⟨rfl, node, rfl⟩ := malloc_eq_some allocNode
            cases allocPack : malloc packAt (p.targetPack.read p.packLen.toNat) aarT.packs with
            | none =>
                refine .inr ⟨fun p' same insertable => ?_, retValueParameterNull, by decide, ?_⟩
                · obtain rfl := Option.some.inj same
                  obtain ⟨-, -, b, rfl, fresh⟩ := insertable
                  rw [malloc_fresh fresh] at allocPack
                  cases allocPack
                · have freed := free_live (Function.update_self a
                    (some ⟨p.dataDevType, none, p.packLen, none⟩) aarT.nodes)
                  rw [update_fresh node] at freed
                  simp only [insertTargetToHead, invalid, if_false, mallocNode, allocNode,
                    Option.map_some, mallocPack,
                    allocPack, Option.map_none, freeNode, freed, Int.add_sub_cancel]
            | some allocation =>
                obtain ⟨b, packs⟩ := allocation
                obtain ⟨rfl, block, rfl⟩ := malloc_eq_some allocPack
                have counted : ((p.targetPack.read p.packLen.toNat).length : Int) = p.packLen := by
                  rw [Ptr.length_read]
                  omega
                refine .inl ⟨p, ⟨a, b, p.content⟩, rfl, ⟨by omega, ⟨a, rfl, node⟩, b, rfl, block⟩,
                  rfl, node, block, ?_⟩
                simp only [insertTargetToHead, invalid, if_false, mallocNode, allocNode,
                  Option.map_some, mallocPack,
                  allocPack, modify_live _ (Function.update_self a _ aarT.nodes),
                  Function.update_idem, AlgAppRes.allocated, TargetPackInfo.content, counted]

end Insert

/-! ## What `get_and_rm_one_target` does -/

section Take

variable {aarT : AlgAppRes} {queue held : List Target} {t : Target}

theorem Holds.takeUser (holds : Holds aarT queue (some t) held) :
    ∃ aarT', getAndRmOneTarget aarT = some (some t.node, aarT') ∧
      Holds aarT' queue none (held ++ [t]) ∧
      aarT'.targetsNum = aarT.targetsNum := by
  have user : aarT.userTarget = some t.node := holds.urgent
  have moved : (queue ++ ([t] ++ held)).Perm (queue ++ ([] ++ (held ++ [t]))) :=
    List.Perm.append_left queue List.perm_append_comm
  have owns := holds.owns.perm moved
  refine ⟨{ aarT with userTarget := none }, ?_, ⟨holds.chain, rfl, owns.nodes, owns.packs⟩, rfl⟩
  simp only [getAndRmOneTarget, user]

theorem Holds.takeNothing (holds : Holds aarT [] none held) :
    getAndRmOneTarget aarT = some (none, aarT) := by
  have user : aarT.userTarget = none := holds.urgent
  have head : aarT.head = none := holds.chain
  simp only [getAndRmOneTarget, user, head]

theorem Holds.takeFirst (holds : Holds aarT (t :: queue) none held) :
    ∃ aarT', getAndRmOneTarget aarT = some (some t.node, aarT') ∧
      Holds aarT' queue none (held ++ [t]) ∧
      aarT'.targetsNum = aarT.targetsNum - 1 := by
  have user : aarT.userTarget = none := holds.urgent
  obtain ⟨head, chain⟩ := holds.chain
  have moved : (t :: queue ++ ([] ++ held)).Perm (queue ++ ([] ++ (held ++ [t]))) := by
    rw [List.perm_iff_count]
    intro u
    simp only [List.count_append, List.count_cons, List.count_nil]
    omega
  obtain ⟨b, node, written⟩ :=
    setNext_owns (holds.owns.perm moved) (by simp : t ∈ queue ++ ([] ++ (held ++ [t]))) none
  have next : nextOf aarT.nodes t.node = b.next := by simp only [nextOf, node, Option.bind_some]
  have foreign : t.node ∉ queue.map Target.node := fun member =>
    holds.owns.node_not_mem (by
      rw [List.append_eq, List.map_append]
      exact List.mem_append_left _ member)
  refine ⟨{ aarT with
    head := b.next
    nodes := Function.update aarT.nodes t.node (some { b with next := none })
    targetsNum := aarT.targetsNum - 1 }, ?_, ⟨?_, user, written.nodes, written.packs⟩, rfl⟩
  · simp only [getAndRmOneTarget, user, head, node, modify_live _ node, Option.map_some]
  · simp only [nextOf_update]
    rw [← next]
    exact chain.update foreign

end Take

/-! ## Every call -/

/-- The store is what the mailbox says, and its consumer has these targets. -/
def Stored (aarT : AlgAppRes) (m : TargetMailbox) (held : List Target) : Prop :=
  ∃ queue user, Holds aarT queue user held ∧ aarT.targetsNum = queue.length ∧
    m.queue = queue.map Target.pack ∧
    m.urgent = user.map Target.pack

section Stored

variable {aarT : AlgAppRes} {m : TargetMailbox} {held : List Target}

theorem Stored.zero : Stored AlgAppRes.zero Mailbox.empty [] :=
  ⟨[], none, ⟨rfl, rfl, Owns.nil _, Owns.nil _⟩, rfl, rfl, rfl⟩

theorem Stored.insert {fuel : Nat} (stored : Stored aarT m held) (nodeAt packAt : Option Nat)
    (pack : Option TargetPackInfo) (enough : 4 ≤ fuel) :
    (∃ p aarT', pack = some p ∧ Insertable aarT nodeAt packAt p ∧
        insertTargetToHead fuel nodeAt packAt pack aarT = some (0, aarT') ∧
        Stored aarT' (m.insert p.content) held) ∨
      ((∀ p, pack = some p → ¬ Insertable aarT nodeAt packAt p) ∧
        ∃ ret, ret ≠ 0 ∧ insertTargetToHead fuel nodeAt packAt pack aarT = some (ret, aarT)) := by
  rcases insertTargetToHead_cases fuel nodeAt packAt pack aarT with
    ⟨p, t, rfl, insertable, content, node, block, inserted⟩ | ⟨failed, ret, nonzero, refused⟩
  · obtain ⟨queue, user, holds, count, listed, urgent⟩ := stored
    obtain ⟨allocated, last⟩ := holds.allocated node block
    have bounded : queue.length ≤ 4 := by
      have bounded := m.bounded
      rwa [listed, List.length_map] at bounded
    by_cases fromUser : p.dataDevType = trackInfoFromUser
    · obtain ⟨aarT', user', holds', kept⟩ := allocated.insertUserTarget
      refine .inl ⟨p, aarT', rfl, insertable, ?_, ?_⟩
      · simp only [inserted, fromUser, if_true, user', Option.map_some]
      · have posted : m.insert p.content = m.post p.content := if_pos fromUser
        rw [posted, ← content]
        exact ⟨queue, some t, holds', kept.trans count, listed, rfl⟩
    · obtain ⟨aarT', device, holds', count'⟩ :=
        allocated.insertDeviceTarget last count bounded enough
      refine .inl ⟨p, aarT', rfl, insertable, ?_, ?_⟩
      · simp only [inserted, fromUser, if_false, device, Option.map_some]
      · have put : m.insert p.content = m.put p.content := if_neg fromUser
        rw [put, ← content]
        refine ⟨_, user, holds', count', ?_, urgent⟩
        simp only [Mailbox.put, listed, List.length_map, List.map_append, List.map_singleton]
        split
        · rfl
        · rw [List.map_tail]
  · exact .inr ⟨failed, ret, nonzero, refused⟩

theorem Stored.carries (stored : Stored aarT m held) {t : Target} (member : t ∈ held) :
    Carries aarT t.node t.pack := by
  obtain ⟨queue, user, holds, -⟩ := stored
  exact holds.owns.carries (by simp [member])

theorem Stored.targetsNum (stored : Stored aarT m held) : aarT.targetsNum = m.queue.length := by
  obtain ⟨queue, user, -, count, listed, -⟩ := stored
  rw [count, listed, List.length_map]

theorem Stored.get (stored : Stored aarT m held) :
    ∃ (t : Option Target) (aarT' : AlgAppRes), getAndRmOneTarget aarT =
      some (t.map Target.node, aarT') ∧
      m.get.1 = t.map Target.pack ∧ Stored aarT' m.get.2 (held ++ t.toList) := by
  obtain ⟨queue, user, holds, count, listed, urgent⟩ := stored
  cases user with
  | some t =>
      obtain ⟨aarT', got, holds', count'⟩ := holds.takeUser
      have taken : m.get = (some t.pack, { m with urgent := none }) := by
        simp only [Mailbox.get, urgent, Option.map_some]
      rw [taken]
      exact ⟨some t, aarT', got, rfl, queue, none, holds', count'.trans count, listed, rfl⟩
  | none =>
      have nothing : m.urgent = none := urgent
      cases queue with
      | nil =>
          have taken : m.get = (none, ⟨none, [], Nat.zero_le 4⟩) := by
            simp only [Mailbox.get, nothing, listed, List.map_nil, List.head?_nil, List.tail_nil]
          rw [taken]
          exact ⟨none, aarT, holds.takeNothing, rfl, [], none, by simpa using holds,
            count, rfl, rfl⟩
      | cons t rest =>
          obtain ⟨aarT', got, holds', count'⟩ := holds.takeFirst
          refine ⟨some t, aarT', got, ?_, rest, none, holds', ?_, ?_, ?_⟩
          · simp only [Mailbox.get, nothing, listed, List.map_cons, List.head?_cons,
              Option.map_some]
          · rw [count', count, List.length_cons]
            omega
          · simp only [Mailbox.get, nothing, listed, List.map_cons, List.tail_cons]
          · simp only [Mailbox.get, nothing, Option.map_none]

theorem Stored.destory (stored : Stored aarT m held) {i : Nat} (here : i < held.length) :
    ∃ aarT', targetNodeDestory (some held[i].node) aarT = some aarT' ∧
      Stored aarT' m (held.eraseIdx i) := by
  obtain ⟨queue, user, holds, count, listed, urgent⟩ := stored
  have moved : (queue ++ (user.toList ++ held)).Perm
      (held[i] :: (queue ++ (user.toList ++ held.eraseIdx i))) := by
    have front := (List.getElem_cons_eraseIdx_perm here).symm
    rw [← List.append_assoc, ← List.append_assoc]
    exact (List.Perm.append_left _ front).trans List.perm_middle
  have owns := holds.owns.perm moved
  have foreign : held[i].node ∉ queue.map Target.node := fun member =>
    owns.node_not_mem (by rw [List.map_append]; exact List.mem_append_left _ member)
  obtain ⟨aarT', freed, owns', nodes, head, user', count'⟩ := freeTarget_owns owns
  refine ⟨aarT', freed, queue, user, ⟨?_, user'.trans holds.urgent, owns'⟩, count'.trans count,
    listed, urgent⟩
  rw [nodes, nextOf_update, head]
  exact holds.chain.update foreign

end Stored

/-- What is in the store and in the hands of its consumer. -/
def TargetInv (w : TargetWorld) (m : TargetMailbox) : Prop :=
  ∃ queue user held, Holds w.aarT queue user held ∧ w.held = held.map Target.node ∧
    w.aarT.targetsNum = queue.length ∧ m.queue = queue.map Target.pack ∧
    m.urgent = user.map Target.pack

section Calls

variable {w : TargetWorld} {m : TargetMailbox}

theorem targetInv_iff :
    TargetInv w m ↔ ∃ held, Stored w.aarT m held ∧ w.held = held.map Target.node := by
  constructor
  · rintro ⟨queue, user, held, holds, nodes, rest⟩
    exact ⟨held, ⟨queue, user, holds, rest⟩, nodes⟩
  · rintro ⟨held, ⟨queue, user, holds, rest⟩, nodes⟩
    exact ⟨queue, user, held, holds, nodes, rest⟩

theorem TargetInv.represents (inv : TargetInv w m) : Represents w.aarT m := by
  obtain ⟨queue, user, held, holds, -, count, listed, urgent⟩ := inv
  have bounded := m.bounded
  rw [listed, List.length_map] at bounded
  refine ⟨⟨queue.map Target.node, holds.chain, ?_, ?_, ?_⟩, ?_⟩
  · rw [listed, List.forall₂_map_left_iff, List.forall₂_map_right_iff, List.forall₂_same]
    exact fun t member => holds.owns.carries (List.mem_append_left _ member)
  · rw [count, List.length_map]
  · omega
  · rw [holds.urgent, urgent]
    cases user with
    | none => exact .none
    | some t => exact .some (holds.owns.carries (by simp))

theorem TargetInv.zero : TargetInv ⟨AlgAppRes.zero, []⟩ Mailbox.empty :=
  ⟨[], none, [], ⟨rfl, rfl, Owns.nil _, Owns.nil _⟩, rfl, rfl, rfl, rfl⟩

theorem TargetInv.insert {fuel : Nat} (inv : TargetInv w m) (nodeAt packAt : Option Nat)
    (pack : Option TargetPackInfo)
    (enough : 4 ≤ fuel) :
    ∃ reply w' m', (TargetCall.insert nodeAt packAt pack).run fuel w = some (reply, w') ∧
      (TargetCall.insert nodeAt packAt pack).Agrees w w' reply m m' ∧ TargetInv w' m' := by
  obtain ⟨held, stored, nodes⟩ := targetInv_iff.mp inv
  rcases stored.insert nodeAt packAt pack enough with
    ⟨p, aarT', rfl, insertable, inserted, stored'⟩ | ⟨failed, ret, nonzero, refused⟩
  · refine ⟨.ret 0, ⟨aarT', w.held⟩, m.insert p.content, ?_, .inl ⟨p, rfl, insertable, rfl, rfl⟩,
      ?_⟩
    · simp only [TargetCall.run, inserted, Option.map_some]
    · exact targetInv_iff.mpr ⟨held, stored', nodes⟩
  · refine ⟨.ret ret, w, m, ?_, .inr ⟨failed, ⟨ret, nonzero, rfl⟩, rfl, rfl⟩, inv⟩
    simp only [TargetCall.run, refused, Option.map_some]

theorem TargetInv.get (inv : TargetInv w m) (fuel : Nat) :
    ∃ reply w' m', TargetCall.get.run fuel w = some (reply, w') ∧
      TargetCall.get.Agrees w w' reply m m' ∧
      TargetInv w' m' := by
  obtain ⟨held, stored, nodes⟩ := targetInv_iff.mp inv
  obtain ⟨t, aarT', got, first, stored'⟩ := stored.get
  have inv' : TargetInv ⟨aarT', w.held ++ (t.map Target.node).toList⟩ m.get.2 := by
    refine targetInv_iff.mpr ⟨_, stored', ?_⟩
    cases t <;> simp [nodes]
  refine ⟨.node (t.map Target.node), _, m.get.2, ?_, ⟨rfl, _, rfl, ?_⟩, inv'⟩
  · simp only [TargetCall.run, got, Option.map_some]
  · rw [first]
    cases t with
    | none => exact .none
    | some t =>
        exact .some (stored'.carries (by simp))

theorem TargetInv.destory (inv : TargetInv w m) (fuel i : Nat) :
    ∃ reply w' m', (TargetCall.destory i).run fuel w = some (reply, w') ∧
      (TargetCall.destory i).Agrees w w' reply m m' ∧
      TargetInv w' m' := by
  obtain ⟨held, stored, nodes⟩ := targetInv_iff.mp inv
  by_cases here : i < held.length
  · have taken : w.held[i]? = some held[i].node := by
      rw [nodes, List.getElem?_map, List.getElem?_eq_getElem here, Option.map_some]
    obtain ⟨aarT', freed, stored'⟩ := stored.destory here
    refine ⟨.ret 0, ⟨aarT', w.held.eraseIdx i⟩, m, ?_, rfl, targetInv_iff.mpr ⟨_, stored', ?_⟩⟩
    · simp only [TargetCall.run, taken, freed, Option.map_some]
    · rw [nodes, List.eraseIdx_map]
  · have nobody : w.held[i]? = none := by
      rw [nodes, List.getElem?_map, List.getElem?_eq_none (Nat.not_lt.mp here), Option.map_none]
    have kept : w.held.eraseIdx i = w.held :=
      List.eraseIdx_of_length_le (by rw [nodes, List.length_map]; exact Nat.not_lt.mp here)
    refine ⟨.ret 0, w, m, ?_, rfl, inv⟩
    simp only [TargetCall.run, nobody, targetNodeDestory, Option.map_some, kept]

theorem TargetInv.call {fuel : Nat} (inv : TargetInv w m) (call : TargetCall) (enough : 4 ≤ fuel) :
    ∃ reply w' m', call.run fuel w = some (reply, w') ∧ call.Agrees w w' reply m m' ∧
      TargetInv w' m' := by
  cases call with
  | insert nodeAt packAt pack => exact inv.insert nodeAt packAt pack enough
  | get => exact inv.get fuel
  | destory i => exact inv.destory fuel i

theorem TargetInv.refines {fuel : Nat} (inv : TargetInv w m) (calls : List TargetCall)
    (enough : 4 ≤ fuel) :
    Refines fuel w m calls := by
  induction calls generalizing w m with
  | nil => exact .done inv.represents
  | cons call calls ih =>
      obtain ⟨reply, w', m', ran, agrees, inv'⟩ := inv.call call enough
      exact .call inv.represents ran agrees (ih inv')

end Calls

/-- From the empty store on, whatever is called in whatever order and wherever
    memory comes from or fails to, every call returns and does to the store what
    it does to the mailbox. -/
theorem targetStore_refines (fuel : Nat) (calls : List TargetCall) :
    Refines (4 + fuel) ⟨AlgAppRes.zero, []⟩ Mailbox.empty calls :=
  TargetInv.zero.refines calls (Nat.le_add_right 4 fuel)

end PtzAgx.App
