import PtzAgx.App.TargetStore
import PtzAgx.Lib.Steps

/-! # What the target store owes

Every target takes two blocks, its node and the copy of its pack. `skyfend_malloc` and
`skyfend_free` keep count, and the count is what the targets in the store and in the hands
of its consumer account for, until a user target takes the place of another one.
-/

namespace PtzAgx.App

open Alloc Bytes Intrusive

/-- Two blocks for every target that is queued, held as user target, or got and not
    destroyed yet. -/
def Balanced (w : TargetWorld) : Prop :=
  ∃ nodes, Segment (nextOf w.aarT.nodes) w.aarT.head nodes none ∧
    w.aarT.mallocFreeCnt = 2 * (nodes.length + w.aarT.userTarget.toList.length + w.held.length)

/-- The call inserts a user target where there is one. -/
def TargetCall.Replaces (w : TargetWorld) : TargetCall → Prop
  | .insert nodeAt packAt (some pack) =>
      pack.dataDevType = trackInfoFromUser ∧ Insertable w.aarT nodeAt packAt pack ∧
        w.aarT.userTarget ≠ none
  | _ => False

/-- One call, for what it leaves. -/
def targetStep (fuel : Nat) (w : TargetWorld) (call : TargetCall) : Option TargetWorld :=
  (call.run fuel w).map Prod.snd

/-! ## What the parts do to the count -/

section Count

variable {aarT aarT' : AlgAppRes} {node head fuel : Nat} {tmp : TargetsNode} {got : Option Nat}

theorem freeNode_cnt (freed : freeNode node aarT = some aarT') :
    aarT'.mallocFreeCnt = aarT.mallocFreeCnt - 1 := by
  obtain ⟨nodes, -, rfl⟩ := Option.map_eq_some_iff.mp freed
  rfl

theorem freePack_cnt (freed : freePack node aarT = some aarT') :
    aarT'.mallocFreeCnt = aarT.mallocFreeCnt - 1 := by
  obtain ⟨packs, -, rfl⟩ := Option.map_eq_some_iff.mp freed
  rfl

/-- There is a node with a copy at this place. -/
def FullNode (aarT : AlgAppRes) (node : Nat) : Prop :=
  ∃ tmp, aarT.nodes node = some tmp ∧ tmp.targetPack ≠ none

theorem freeTarget_cnt (full : FullNode aarT node) (freed : freeTarget node aarT = some aarT') :
    aarT'.mallocFreeCnt = aarT.mallocFreeCnt - 2 := by
  obtain ⟨tmp, here, copy⟩ := full
  obtain ⟨targetPack, there⟩ := Option.ne_none_iff_exists'.mp copy
  simp only [freeTarget, here, there] at freed
  obtain ⟨between, first, second⟩ := Option.bind_eq_some_iff.mp freed
  rw [freeNode_cnt second, freePack_cnt first, Int.sub_sub]
  rfl

theorem insertUserTarget_cnt (inserted : insertUserTarget node aarT = some aarT') :
    aarT'.mallocFreeCnt = aarT.mallocFreeCnt - aarT.userTarget.toList.length := by
  unfold insertUserTarget at inserted
  cases user : aarT.userTarget with
  | none =>
      rw [user] at inserted
      obtain rfl := Option.some.inj inserted
      exact (Int.sub_zero _).symm
  | some old =>
      rw [user] at inserted
      obtain ⟨between, freed, rfl⟩ := Option.map_eq_some_iff.mp inserted
      have less := freeNode_cnt freed
      exact less

theorem appendNode_cnt (appended : appendNode fuel node aarT = some aarT') :
    aarT'.mallocFreeCnt = aarT.mallocFreeCnt := by
  unfold appendNode at appended
  split at appended
  · cases appended
  · split at appended
    · cases appended
    · obtain ⟨nodes, -, rfl⟩ := Option.map_eq_some_iff.mp appended
      rfl

theorem dropOldest_cnt (full : FullNode aarT head) (dropped : dropOldest head aarT = some aarT') :
    aarT'.mallocFreeCnt = aarT.mallocFreeCnt - 2 := by
  unfold dropOldest at dropped
  split at dropped
  · cases dropped
  · obtain ⟨between, freed, rfl⟩ := Option.map_eq_some_iff.mp dropped
    have less := freeTarget_cnt (by exact full) freed
    exact less

theorem insertDeviceTarget_cnt (full : ∀ head, aarT.head = some head → FullNode aarT head)
    (inserted : insertDeviceTarget fuel node aarT = some aarT') :
    aarT'.mallocFreeCnt =
      aarT.mallocFreeCnt -
        if aarT.head ≠ none ∧ aarT.targetsNum > targetNodeMaxNumber then 2 else 0 := by
  obtain ⟨between, stored, rfl⟩ := Option.map_eq_some_iff.mp inserted
  cases first : aarT.head with
  | none =>
      rw [first] at stored
      obtain rfl := Option.some.inj stored
      simp
  | some head =>
      rw [first] at stored
      simp only at stored
      split at stored
      case isTrue many =>
        obtain ⟨dropped, oldest, appended⟩ := Option.bind_eq_some_iff.mp stored
        rw [if_pos ⟨Option.some_ne_none head, many⟩, ← dropOldest_cnt (full head first) oldest]
        have same := appendNode_cnt appended
        exact same
      case isFalse few =>
        rw [if_neg fun both => few both.2, Int.sub_zero]
        have same := appendNode_cnt stored
        exact same

theorem getAndRmOneTarget_cnt (taken : getAndRmOneTarget aarT = some (got, aarT')) :
    aarT'.mallocFreeCnt = aarT.mallocFreeCnt := by
  unfold getAndRmOneTarget at taken
  split at taken
  · cases taken
    rfl
  · split at taken
    · cases taken
      rfl
    · split at taken
      · cases taken
      · obtain ⟨nodes, -, same⟩ := Option.map_eq_some_iff.mp taken
        cases same
        rfl

end Count

/-! ## What a call does to the balance -/

/-- The mailbox and the consumer account for all blocks but `lost`. -/
def Counted (w : TargetWorld) (m : TargetMailbox) (lost : Int) : Prop :=
  w.aarT.mallocFreeCnt = 2 * (m.queue.length + m.urgent.toList.length + w.held.length) + lost

/-- A call loses one block when it replaces a user target, and none otherwise. -/
def TargetCall.Accounts (w w' : TargetWorld) (m' : TargetMailbox) (call : TargetCall) : Prop :=
  (¬ call.Replaces w ∧ Counted w' m' 0) ∨ (call.Replaces w ∧ Counted w' m' 1)

section Balance

variable {w w' : TargetWorld} {m m' : TargetMailbox} {reply : TargetReply} {aarT : AlgAppRes}
  {queue held : List Target}
  {user : Option Target} {t : Target} {nodeAt packAt : Option Nat} {pack : Option TargetPackInfo}
  {fuel i : Nat}

theorem Holds.full (holds : Holds aarT queue user held)
    (member : t ∈ queue ++ (user.toList ++ held)) :
    FullNode aarT t.node := by
  obtain ⟨b, node, -, copy, -⟩ := holds.owns.nodes.live t member
  refine ⟨b, node, ?_⟩
  rw [copy]
  exact Option.some_ne_none t.block

theorem Holds.head_full (holds : Holds aarT queue user held) :
    ∀ head, aarT.head = some head → FullNode aarT head := by
  intro head first
  cases queue with
  | nil =>
      have empty : aarT.head = none := holds.chain
      rw [empty] at first
      cases first
  | cons q rest =>
      obtain ⟨same, -⟩ := holds.chain
      obtain rfl := Option.some.inj (first.symm.trans same)
      exact holds.full List.mem_cons_self

theorem TargetInv.users (inv : TargetInv w m) :
    w.aarT.userTarget.toList.length = m.urgent.toList.length := by
  obtain ⟨queue, user, held, holds, -, -, -, urgent⟩ := inv
  rw [holds.urgent, urgent]
  cases user <;> rfl

theorem TargetInv.balanced_iff (inv : TargetInv w m) : Balanced w ↔ Counted w m 0 := by
  have users := inv.users
  obtain ⟨queue, user, held, holds, -, -, listed, -⟩ := inv
  unfold Balanced Counted
  rw [listed, List.length_map, ← users, Int.add_zero]
  constructor
  · rintro ⟨nodes, chain, count⟩
    rwa [chain.unique holds.chain, List.length_map] at count
  · intro count
    refine ⟨queue.map Target.node, holds.chain, ?_⟩
    rwa [List.length_map]

theorem TargetInv.insertUser_counted {stored : AlgAppRes} (inv : TargetInv w m)
    (counted : Counted w m 0)
    (pack : TargetPack) (inserted : insertUserTarget t.node (w.aarT.allocated t) = some stored) :
    Counted ⟨stored, w.held⟩ (m.post pack) w.aarT.userTarget.toList.length := by
  have count := insertUserTarget_cnt inserted
  have users := inv.users
  unfold Counted Mailbox.post at *
  simp only [AlgAppRes.allocated, Option.toList_some, List.length_singleton] at count ⊢
  omega

theorem TargetInv.insertDevice_counted {stored : AlgAppRes} (inv : TargetInv w m)
    (counted : Counted w m 0)
    (pack : TargetPack) (node : w.aarT.nodes t.node = none) (block : w.aarT.packs t.block = none)
    (inserted : insertDeviceTarget fuel t.node (w.aarT.allocated t) = some stored) :
    Counted ⟨stored, w.held⟩ (m.put pack) 0 := by
  obtain ⟨queue, user, held, holds, -, number, listed, -⟩ := inv
  have count := insertDeviceTarget_cnt (holds.allocated node block).1.head_full inserted
  have queued : m.queue.length = queue.length := by rw [listed, List.length_map]
  have max : targetNodeMaxNumber = 3 := rfl
  unfold Counted at *
  have same : (w.aarT.allocated t).head = w.aarT.head ∧
    (w.aarT.allocated t).targetsNum = w.aarT.targetsNum ∧
      (w.aarT.allocated t).mallocFreeCnt = w.aarT.mallocFreeCnt + 1 + 1 := ⟨rfl, rfl, rfl⟩
  rw [same.1, same.2.1, same.2.2] at count
  by_cases room : m.queue.length < 4
  · have few : ¬ (w.aarT.head ≠ none ∧ w.aarT.targetsNum > targetNodeMaxNumber) := by omega
    rw [if_neg few] at count
    simp only [Mailbox.put, room, if_true, List.length_append, List.length_singleton]
    omega
  · have first : w.aarT.head ≠ none := by
      intro empty
      have chain := holds.chain
      rw [empty] at chain
      have none := congrArg List.length (segment_none chain).1
      rw [List.length_map, List.length_nil] at none
      omega
    have bounded := m.bounded
    have full : w.aarT.head ≠ none ∧ w.aarT.targetsNum > targetNodeMaxNumber := ⟨first, by omega⟩
    rw [if_pos full] at count
    simp only [Mailbox.put, room, if_false, List.length_append, List.length_singleton,
      List.length_tail]
    omega

theorem TargetInv.insert_accounts (inv : TargetInv w m) (counted : Counted w m 0)
    (ran : (TargetCall.insert nodeAt packAt pack).run fuel w = some (reply, w'))
    (agrees : (TargetCall.insert nodeAt packAt pack).Agrees w w' reply m m') :
    (TargetCall.insert nodeAt packAt pack).Accounts w w' m' := by
  obtain ⟨p, rfl, insertable, -, rfl⟩ | ⟨failed, -, rfl, rfl⟩ := agrees
  · rcases insertTargetToHead_cases fuel nodeAt packAt (some p) w.aarT with
      ⟨p', t, same, -, -, node, block, inserted⟩ | ⟨failed, -⟩
    · obtain rfl := Option.some.inj same
      obtain ⟨⟨ret, aarT'⟩, returned, made⟩ := Option.map_eq_some_iff.mp ran
      rw [inserted] at returned
      obtain ⟨stored, done, same⟩ := Option.map_eq_some_iff.mp returned
      cases same
      cases made
      by_cases fromUser : p.dataDevType = trackInfoFromUser
      · rw [if_pos fromUser] at done
        have count := inv.insertUser_counted counted p.content done
        have posted : m.insert p.content = m.post p.content := if_pos fromUser
        rw [TargetCall.Accounts, posted]
        cases old : w.aarT.userTarget with
        | none =>
            rw [old] at count
            exact .inl ⟨fun replaces => replaces.2.2 old, count⟩
        | some node =>
            rw [old] at count
            exact .inr ⟨⟨fromUser, insertable, by rw [old]; exact Option.some_ne_none node⟩, count⟩
      · rw [if_neg fromUser] at done
        have put : m.insert p.content = m.put p.content := if_neg fromUser
        rw [TargetCall.Accounts, put]
        exact .inl ⟨fun replaces => fromUser replaces.1,
          inv.insertDevice_counted counted p.content node block done⟩
    · exact absurd insertable (failed p rfl)
  · refine .inl ⟨fun replaces => ?_, counted⟩
    cases pack with
    | none => exact replaces
    | some p => exact failed p rfl replaces.2.1

theorem TargetInv.get_accounts (counted : Counted w m 0)
    (ran : TargetCall.get.run fuel w = some (reply, w'))
    (agrees : TargetCall.get.Agrees w w' reply m m') : TargetCall.get.Accounts w w' m' := by
  obtain ⟨rfl, node, rfl, delivered⟩ := agrees
  obtain ⟨⟨got, aarT'⟩, taken, same⟩ := Option.map_eq_some_iff.mp ran
  cases same
  have count := getAndRmOneTarget_cnt taken
  have total := m.get_length
  have one : node.toList.length = m.get.1.toList.length := by
    generalize m.get.1 = sent at delivered ⊢
    cases delivered <;> rfl
  refine .inl ⟨fun replaces => replaces, ?_⟩
  unfold Counted at *
  simp only [List.length_append, one]
  omega

theorem TargetInv.destory_accounts (inv : TargetInv w m) (counted : Counted w m 0)
    (ran : (TargetCall.destory i).run fuel w = some (reply, w'))
    (agrees : (TargetCall.destory i).Agrees w w' reply m m') :
    (TargetCall.destory i).Accounts w w' m' := by
  obtain rfl : m' = m := agrees
  obtain ⟨aarT', freed, same⟩ := Option.map_eq_some_iff.mp ran
  cases same
  refine .inl ⟨fun replaces => replaces, ?_⟩
  unfold Counted at *
  cases here : w.held[i]? with
  | none =>
      rw [here] at freed
      obtain rfl := Option.some.inj freed
      rw [List.eraseIdx_of_length_le (List.getElem?_eq_none_iff.mp here)]
      exact counted
  | some node =>
      rw [here] at freed
      obtain ⟨queue, user, held, holds, heldNodes, -⟩ := inv
      have member : node ∈ held.map Target.node := by
        rw [← heldNodes]
        exact List.mem_of_getElem? here
      obtain ⟨t, among, rfl⟩ := List.mem_map.mp member
      have full :=
        holds.full (List.mem_append_right queue (List.mem_append_right user.toList among))
      have count := freeTarget_cnt full freed
      obtain ⟨within, -⟩ := List.getElem?_eq_some_iff.mp here
      rw [count, counted, List.length_eraseIdx_of_lt within]
      omega

theorem TargetInv.returns (inv : TargetInv w m) (calls : List TargetCall) (enough : 4 ≤ fuel) :
    ∃ last, calls.foldlM (targetStep fuel) w = some last := by
  induction calls generalizing w m with
  | nil => exact ⟨w, rfl⟩
  | cons call calls ih =>
      obtain ⟨reply, next, m', ran, -, inv'⟩ := inv.call call enough
      obtain ⟨last, rest⟩ := ih inv'
      refine ⟨last, ?_⟩
      rw [List.foldlM_cons, targetStep, ran]
      exact rest

/-- A state of the store that owes nothing. -/
def Settled (w : TargetWorld) : Prop := ∃ m, TargetInv w m ∧ Balanced w

/-- From a balanced store every call leaves a balanced one, unless it replaces a user target. -/
theorem Settled.step {call : TargetCall} (settled : Settled w) (enough : 4 ≤ fuel)
    (stepped : targetStep fuel w call = some w') :
    ∃ m', TargetInv w' m' ∧ (Balanced w' ↔ ¬ call.Replaces w) := by
  obtain ⟨m, inv, balanced⟩ := settled
  obtain ⟨reply, next, m', ran, agrees, inv'⟩ := inv.call call enough
  rw [targetStep, ran] at stepped
  obtain rfl := Option.some.inj stepped
  have counted := inv.balanced_iff.mp balanced
  refine ⟨m', inv', ?_⟩
  have accounts : call.Accounts w next m' := by
    cases call with
    | insert nodeAt packAt pack => exact inv.insert_accounts counted ran agrees
    | get => exact TargetInv.get_accounts counted ran agrees
    | destory i => exact inv.destory_accounts counted ran agrees
  rw [inv'.balanced_iff]
  rcases accounts with ⟨kept, even⟩ | ⟨replaces, odd⟩
  · exact iff_of_true even kept
  · refine iff_of_false (fun even => ?_) fun kept => kept replaces
    unfold Counted at even odd
    omega

end Balance

/-- From the empty store on every call returns, and the balance is even all along
    exactly when no call replaces a user target. -/
theorem targetStore_balanced_iff (fuel : Nat) (calls : List TargetCall) :
    (∃ last, calls.foldlM (targetStep (4 + fuel)) ⟨AlgAppRes.zero, []⟩ = some last) ∧
      (AllSteps (targetStep (4 + fuel)) (fun _ _ w' => Balanced w') ⟨AlgAppRes.zero, []⟩ calls ↔
        AllSteps (targetStep (4 + fuel)) (fun w call _ => ¬ call.Replaces w) ⟨AlgAppRes.zero,
          []⟩ calls) := by
  have enough : 4 ≤ 4 + fuel := Nat.le_add_right 4 fuel
  have start : Settled ⟨AlgAppRes.zero, []⟩ := ⟨Mailbox.empty, .zero, [], rfl, rfl⟩
  refine ⟨TargetInv.zero.returns calls enough, fun balanced => ?_, fun kept => ?_⟩
  · apply balanced.of_invariant start
    intro w call w' settled stepped even
    obtain ⟨m', inv', same⟩ := settled.step enough stepped
    exact ⟨⟨m', inv', even⟩, same.mp even⟩
  · apply kept.of_invariant start
    intro w call w' settled stepped plain
    obtain ⟨m', inv', same⟩ := settled.step enough stepped
    exact ⟨⟨m', inv', same.mpr plain⟩, same.mpr plain⟩

/-- A pack of one byte from the user, with both blocks at this place. -/
def insertUser (a : Nat) : TargetCall :=
  .insert (some a) (some a) (some ⟨trackInfoFromUser, fun _ => 0, 1⟩)

/-- Of the first of two user targets the copy is lost. -/
theorem targetStore_leaks :
    ¬ ∀ calls : List TargetCall,
      AllSteps (targetStep 4) (fun _ _ w' => Balanced w') ⟨AlgAppRes.zero, []⟩ calls := by
  intro balanced
  obtain ⟨w, w', first, second, count⟩ :
    ∃ w w', targetStep 4 ⟨AlgAppRes.zero, []⟩ (insertUser 0) = some w ∧
      targetStep 4 w (insertUser 1) = some w' ∧ w'.aarT.mallocFreeCnt = 3 := ⟨_, _, rfl, rfl, rfl⟩
  have both := balanced [insertUser 0, insertUser 1]
  obtain ⟨nodes, -, even⟩ := ((both w first).2 w' second).1
  omega

end PtzAgx.App
