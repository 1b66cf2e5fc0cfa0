import PtzAgx.Lib.Intrusive

/-! # The subscribers of an upload package

`alink_package_connect_send` and `alink_package_disconnect_send` of
`upload/alink_package.c`. A subscriber node brings its own `psNext`, which
survives a disconnect, so what an operation does depends on the history of
nodes that are not even listed. Both functions always return 0, which is left
out.
-/

namespace PtzAgx.Alink

open Intrusive

variable {ν : Type} [DecidableEq ν]

/-- `psSendList` of a package as `head`, and `psNext` of all the
    `alink_send_list_t` nodes there are as `next`. -/
abbrev SendLists (ν : Type) := Links ν

def alinkPackageConnectSend (fuel : Nat) (psPackage : SendLists ν) (psSendList : ν) :
    Option (SendLists ν) :=
  psPackage.append fuel psSendList

/-- The loop of `alink_package_disconnect_send`. Without a last node the whole
    list is dropped. -/
def alinkPackageDisconnectFrom (psSendList : ν) :
    Nat → SendLists ν → (psSendListLast psSendListNow : Option ν) → Option (SendLists ν)
  | _, psPackage, _, none => some psPackage
  | 0, _, _, some _ => none
  | fuel + 1, psPackage, psSendListLast, some psSendListNow =>
      if psSendListNow = psSendList then
        match psSendListLast with
        | some last =>
            some
              { psPackage with
                  next := Function.update psPackage.next last (psPackage.next psSendListNow) }
        | none => some { psPackage with head := none }
      else alinkPackageDisconnectFrom psSendList fuel psPackage (some psSendListNow)
        (psPackage.next psSendListNow)

def alinkPackageDisconnectSend (fuel : Nat) (psPackage : SendLists ν) (psSendList : ν) :
    Option (SendLists ν) :=
  alinkPackageDisconnectFrom psSendList fuel psPackage none psPackage.head

/-- One call on the package. -/
inductive SendCall (ν : Type) where
  | connect (psSendList : ν)
  | disconnect (psSendList : ν)
  deriving Repr, DecidableEq

def SendCall.run (fuel : Nat) (psPackage : SendLists ν) : SendCall ν → Option (SendLists ν)
  | .connect psSendList => alinkPackageConnectSend fuel psPackage psSendList
  | .disconnect psSendList => alinkPackageDisconnectSend fuel psPackage psSendList

/-- The call returns and leaves these links. -/
def SendCall.Returns (call : SendCall ν) (psPackage psPackage' : SendLists ν) : Prop :=
  ∃ fuel, call.run fuel psPackage = some psPackage'

/-- Calls that all return, one after the other. -/
inductive SendRun : SendLists ν → List (SendCall ν) → SendLists ν → Prop where
  | done (psPackage) : SendRun psPackage [] psPackage
  | call {psPackage psPackage' last call calls} : call.Returns psPackage psPackage' →
      SendRun psPackage' calls last → SendRun psPackage (call :: calls) last

/-! ## What the calls are for -/

/-- The subscribers after a call: who was connected and not since disconnected,
    in order of connection. -/
def SendCall.expected (subscribers : List ν) : SendCall ν → List ν
  | .connect psSendList =>
    if psSendList ∈ subscribers then subscribers else subscribers ++ [psSendList]
  | .disconnect psSendList => subscribers.erase psSendList

def expectedSubscribers (subscribers : List ν) (calls : List (SendCall ν)) : List ν :=
  calls.foldl SendCall.expected subscribers

/-- No node is listed and no node points anywhere. -/
def noSubscribers : SendLists ν where
  head := none
  next := fun _ => none

/-- The calls return and the chain holds the expected subscribers. -/
def Delivers (psPackage : SendLists ν) (subscribers : List ν) (calls : List (SendCall ν)) : Prop :=
  ∃ last, SendRun psPackage calls last ∧ last.Holds (expectedSubscribers subscribers calls)

/-- A call that finds the links in order for it: a node to connect is listed or
    points nowhere, and a node to disconnect is not the first of several. -/
def SendCall.Safe (psPackage : SendLists ν) : SendCall ν → Prop
  | .connect psSendList =>
      psPackage.next psSendList = none ∨ ∃ subscribers, psPackage.Holds subscribers ∧
        psSendList ∈ subscribers
  | .disconnect psSendList => psPackage.head = some psSendList → psPackage.next psSendList = none

/-- Every call is safe in the state it finds. -/
def AllSafe : SendLists ν → List (SendCall ν) → Prop
  | _, [] => True
  | psPackage, call :: calls =>
      call.Safe psPackage ∧ ∀ psPackage', call.Returns psPackage psPackage' →
        AllSafe psPackage' calls

/-! ## Single calls -/

section Calls

variable {psPackage psPackage' psPackage'' : SendLists ν} {node prev : ν}
  {subscribers before : List ν}

theorem disconnectFrom_end (fuel : Nat) (last : Option ν) :
    alinkPackageDisconnectFrom node fuel psPackage last none = some psPackage := by
  cases fuel <;> rfl

theorem disconnectFrom_pass {fuel : Nat} {last : Option ν} {x : ν} (other : x ≠ node) :
    alinkPackageDisconnectFrom node (fuel + 1) psPackage last (some x) =
      alinkPackageDisconnectFrom node fuel psPackage (some x) (psPackage.next x) := by
  simp only [alinkPackageDisconnectFrom, other, if_false]

theorem disconnectFrom_first (fuel : Nat) :
    alinkPackageDisconnectFrom node (fuel + 1) psPackage none (some node) =
      some { psPackage with head := none } := by
  simp only [alinkPackageDisconnectFrom, if_true]

theorem disconnectFrom_later (fuel : Nat) :
    alinkPackageDisconnectFrom node (fuel + 1) psPackage (some prev) (some node) =
      some
      { psPackage with next := Function.update psPackage.next prev (psPackage.next node) } := by
  simp only [alinkPackageDisconnectFrom, if_true]

theorem disconnectFrom_mono {result : SendLists ν} {fuel : Nat} {last now : Option ν} (extra : Nat)
    (returned : alinkPackageDisconnectFrom node fuel psPackage last now = some result) :
    alinkPackageDisconnectFrom node (fuel + extra) psPackage last now = some result := by
  induction fuel generalizing last now with
  | zero =>
      cases now with
      | none => rwa [disconnectFrom_end] at returned ⊢
      | some x => simp [alinkPackageDisconnectFrom] at returned
  | succ fuel ih =>
      cases now with
      | none => rwa [disconnectFrom_end] at returned ⊢
      | some x =>
          rw [Nat.add_right_comm]
          by_cases found : x = node
          · subst found
            cases last with
            | none => rwa [disconnectFrom_first] at returned ⊢
            | some prev => rwa [disconnectFrom_later] at returned ⊢
          · rw [disconnectFrom_pass found] at returned ⊢
            exact ih returned

theorem SendCall.run_mono {call : SendCall ν} {fuel : Nat} (extra : Nat)
    (returned : call.run fuel psPackage = some psPackage') :
    call.run (fuel + extra) psPackage = some psPackage' := by
  cases call with
  | connect node => exact Links.append_mono extra returned
  | disconnect node => exact disconnectFrom_mono extra returned

theorem SendCall.Returns.unique {call : SendCall ν} (one : call.Returns psPackage psPackage')
    (other : call.Returns psPackage psPackage'') : psPackage' = psPackage'' := by
  obtain ⟨fuel, ran⟩ := one
  obtain ⟨fuel', ran'⟩ := other
  have longer := call.run_mono fuel' ran
  have longer' := call.run_mono fuel ran'
  rw [Nat.add_comm, longer] at longer'
  exact Option.some.inj longer'

theorem SendRun.unique {calls : List (SendCall ν)} (one : SendRun psPackage calls psPackage')
    (other : SendRun psPackage calls psPackage'') : psPackage' = psPackage'' := by
  induction one with
  | done _ => cases other with | done _ => rfl
  | call first _ ih =>
      cases other with
      | call first' rest' =>
          obtain rfl := first.unique first'
          exact ih rest'

theorem disconnectFrom_walk {p q last : Option ν} (k : Nat)
    (reach : Segment psPackage.next p (before ++ [prev]) q)
    (absent : node ∉ before ++ [prev]) :
    alinkPackageDisconnectFrom node (k + (before ++ [prev]).length) psPackage last p =
      alinkPackageDisconnectFrom node k psPackage (some prev) q := by
  induction before generalizing p last with
  | nil =>
      obtain ⟨rfl, rfl⟩ := reach
      have other : prev ≠ node := ne_of_mem_of_not_mem List.mem_cons_self absent
      rw [List.nil_append, List.length_singleton, disconnectFrom_pass other]
  | cons x rest ih =>
      obtain ⟨rfl, tail⟩ := reach
      have other : x ≠ node := ne_of_mem_of_not_mem List.mem_cons_self absent
      have later : node ∉ rest ++ [prev] := fun member => absent (List.mem_cons_of_mem x member)
      rw [List.cons_append, List.length_cons, ← Nat.add_assoc, disconnectFrom_pass other,
        ih tail later]

/-! ## What a call does to links that hold a list -/

theorem connect_spec (held : psPackage.Holds subscribers) :
    ∃ last, (SendCall.connect node).Returns psPackage last ∧
      (last.Holds ((SendCall.connect node).expected subscribers) ↔
        (SendCall.connect node).Safe psPackage) := by
  by_cases member : node ∈ subscribers
  · refine ⟨psPackage, ⟨subscribers.length, Links.append_member held member (Nat.le_refl _)⟩, ?_⟩
    simp only [SendCall.expected, member, if_true]
    exact iff_of_true held (.inr ⟨subscribers, held, member⟩)
  · obtain ⟨last, returned, segment, -⟩ := Links.append_absent held member (Nat.le_refl _)
    refine ⟨last, ⟨subscribers.length, returned⟩, ?_⟩
    simp only [SendCall.expected, member, if_false]
    constructor
    · intro ends
      exact .inl (segment.end_unique ends)
    · rintro (stale | ⟨listed, held', listedMember⟩)
      · rwa [stale] at segment
      · rw [held.unique held'] at member
        exact absurd listedMember member

theorem disconnect_absent (held : psPackage.Holds subscribers) (absent : node ∉ subscribers) :
    (SendCall.disconnect node).Returns psPackage psPackage := by
  rcases List.eq_nil_or_concat' subscribers with rfl | ⟨front, prev, rfl⟩
  · have empty : psPackage.head = none := held
    refine ⟨0, ?_⟩
    simp only [SendCall.run, alinkPackageDisconnectSend, empty, disconnectFrom_end]
  · refine ⟨0 + (front ++ [prev]).length, ?_⟩
    simp only [SendCall.run, alinkPackageDisconnectSend]
    rw [disconnectFrom_walk 0 held absent, disconnectFrom_end]

theorem disconnect_first (first : psPackage.head = some node) :
    (SendCall.disconnect node).Returns psPackage { psPackage with head := none } := by
  refine ⟨1, ?_⟩
  simp only [SendCall.run, alinkPackageDisconnectSend, first]
  exact disconnectFrom_first 0

theorem disconnect_later {after : List ν} (held : psPackage.Holds (before ++ prev :: node :: after))
    (absent : node ∉ before ++ [prev]) :
    (SendCall.disconnect node).Returns psPackage
      { psPackage with next := Function.update psPackage.next prev (psPackage.next node) } := by
  refine ⟨1 + (before ++ [prev]).length, ?_⟩
  have split : before ++ prev :: node :: after = (before ++ [prev]) ++ node :: after := by simp
  rw [Links.Holds, split] at held
  obtain ⟨r, reach, here, -⟩ := segment_append.mp held
  rw [here] at reach
  simp only [SendCall.run, alinkPackageDisconnectSend]
  rw [disconnectFrom_walk 1 reach absent]
  exact disconnectFrom_later 0

theorem disconnect_spec (held : psPackage.Holds subscribers) :
    ∃ last, (SendCall.disconnect node).Returns psPackage last ∧
      (last.Holds ((SendCall.disconnect node).expected subscribers) ↔
        (SendCall.disconnect node).Safe psPackage) := by
  simp only [SendCall.expected, SendCall.Safe]
  by_cases member : node ∈ subscribers
  · obtain ⟨front, after, rfl, absent⟩ := List.eq_append_cons_of_mem member
    rcases List.eq_nil_or_concat' front with rfl | ⟨before, prev, rfl⟩
    · -- The first node: the head is cleared, so only an empty rest survives.
      obtain ⟨first, rest⟩ := held
      refine ⟨_, disconnect_first first, ?_⟩
      simp only [List.nil_append, List.erase_cons_head, first, true_implies]
      constructor
      · intro cleared
        obtain ⟨rfl, -⟩ := segment_none cleared
        exact rest
      · intro stop
        rw [stop] at rest
        obtain ⟨rfl, -⟩ := segment_none rest
        rfl
    · have split : before ++ [prev] ++ node :: after = before ++ prev :: node :: after := by simp
      rw [split] at held
      refine ⟨_, disconnect_later held absent, ?_⟩
      have erased : (before ++ [prev] ++ node :: after).erase node = before ++ prev :: after := by
        rw [List.erase_append_right _ absent, List.erase_cons_head]
        simp
      rw [erased]
      refine iff_of_true held.unlink ?_
      intro first
      rw [Links.Holds, first, ← split] at held
      exact absurd (held.start_mem (by simp)) absent
  · refine ⟨psPackage, disconnect_absent held member, ?_⟩
    rw [List.erase_of_not_mem member]
    refine iff_of_true held ?_
    intro first
    rw [Links.Holds, first] at held
    cases subscribers with
    | nil => exact absurd held (Option.some_ne_none node)
    | cons x rest => exact absurd (List.mem_cons.mpr (.inl (Option.some.inj held.1))) member

theorem SendCall.spec (call : SendCall ν) (held : psPackage.Holds subscribers) :
    ∃ last, call.Returns psPackage last ∧ (last.Holds (call.expected subscribers) ↔
      call.Safe psPackage) := by
  cases call with
  | connect node => exact connect_spec held
  | disconnect node => exact disconnect_spec held

/-! ## Whole histories -/

theorem delivers_cons {call : SendCall ν} {calls : List (SendCall ν)}
    (returned : call.Returns psPackage psPackage') :
    Delivers psPackage subscribers (call :: calls) ↔
      Delivers psPackage' (call.expected subscribers) calls := by
  constructor
  · rintro ⟨last, ran, holds⟩
    cases ran with
    | call first rest =>
        obtain rfl := returned.unique first
        exact ⟨last, rest, holds⟩
  · rintro ⟨last, ran, holds⟩
    exact ⟨last, .call returned ran, holds⟩

theorem delivers_nil : Delivers psPackage subscribers [] ↔ psPackage.Holds subscribers := by
  constructor
  · rintro ⟨last, ran, holds⟩
    cases ran
    exact holds
  · intro holds
    exact ⟨psPackage, .done psPackage, holds⟩

/-- From links that hold a list, all states on the way are right exactly when
    all calls are safe. -/
theorem delivers_iff_allSafe {calls : List (SendCall ν)} (held : psPackage.Holds subscribers) :
    (∀ made, made <+: calls → Delivers psPackage subscribers made) ↔ AllSafe psPackage calls := by
  induction calls generalizing psPackage subscribers with
  | nil =>
      refine iff_of_true ?_ trivial
      intro made start
      obtain rfl := List.prefix_nil.mp start
      exact delivers_nil.mpr held
  | cons call calls ih =>
      obtain ⟨next, returned, right⟩ := call.spec held
      constructor
      · intro delivers
        have first := delivers [call] (by simp)
        have holds := delivers_nil.mp ((delivers_cons returned).mp first)
        refine ⟨right.mp holds, ?_⟩
        intro other returned'
        obtain rfl := returned.unique returned'
        refine (ih holds).mp ?_
        intro made start
        exact (delivers_cons returned).mp
          (delivers (call :: made) (List.cons_prefix_cons.mpr ⟨rfl, start⟩))
      · rintro ⟨safe, later⟩ made start
        cases made with
        | nil => exact delivers_nil.mpr held
        | cons first made =>
            obtain ⟨rfl, tail⟩ := List.cons_prefix_cons.mp start
            exact (delivers_cons returned).mpr
              ((ih (right.mpr safe)).mpr (later next returned) made tail)

end Calls

/-- The chain holds the subscribers in every state reached exactly when every
    call is safe where it is made. -/
theorem subscribers_iff (calls : List (SendCall ν)) :
    (∀ made, made <+: calls → Delivers noSubscribers [] made) ↔ AllSafe noSubscribers calls :=
  delivers_iff_allSafe rfl

/-- Disconnecting the first of two subscribers drops both. -/
theorem subscribers_lost : ¬ ∀ calls : List (SendCall Nat), Delivers noSubscribers [] calls := by
  intro delivered
  obtain ⟨last, ran, holds⟩ := delivered [.connect 1, .connect 2, .disconnect 1]
  have dropped : SendRun noSubscribers [.connect 1, .connect 2, .disconnect 1]
      { head := none, next := Function.update (fun _ => none) 1 (some 2) } :=
    .call ⟨1, rfl⟩ (.call ⟨1, rfl⟩ (.call ⟨1, rfl⟩ (.done _)))
  obtain rfl := ran.unique dropped
  exact absurd holds.1 (Option.some_ne_none 2).symm

end PtzAgx.Alink
