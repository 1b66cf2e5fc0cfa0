import PtzAgx.Lib.Alloc
import PtzAgx.Lib.Intrusive

/-! # Lists of connections

`eth_link.c` keeps its TCP clients and `eth_link_server.c` its TCP servers in a
list below an `eth_link_list_t`, and both take an entry out with the same code.
The entries are allocated blocks; `psNext` is kept apart from their other
fields, which are no concern of the list.
-/

namespace PtzAgx.EthLink

open Alloc Intrusive

/-- `psRoot->list` with the entries there are, listed or not. -/
structure TcpList (β : Type) where
  list : Links Nat
  entries : Heap β

/-- `for( ; psIndex; psIndex = psIndex->psNext )`. `psLast` stays what it is. -/
def unlinkFrom (psList psLast : Nat) : Nat → Links Nat → Option Nat → Option (Links Nat)
  | _, l, none => some l
  | 0, _, some _ => none
  | fuel + 1, l, some psIndex =>
      if psList = psIndex
        then some { l with next := Function.update l.next psLast (l.next psIndex) }
      else unlinkFrom psList psLast fuel l (l.next psIndex)

def unlink (fuel psList : Nat) (l : Links Nat) : Option (Links Nat) :=
  match l.head with
  | none => some l
  | some psIndex =>
      if psList = psIndex then some { l with head := l.next psIndex }
      else
        let psLast := psIndex
        unlinkFrom psList psLast fuel l (some psIndex)

/-- Take an entry out of its list and free it. -/
def TcpList.del {β : Type} (fuel psList : Nat) (t : TcpList β) : Option (TcpList β) :=
  (unlink fuel psList t.list).bind fun list => (free psList t.entries).map fun entries =>
    { list, entries }

/-- `tcp_client_cfg_t`, as far as an entry is told apart by it. -/
structure TcpClient where
  uRemoteIp : UInt32
  wRemotePort : UInt16
  deriving Repr, DecidableEq

/-- The parts of `eth_link_tcp_server_list_t` the list is searched for. `radarSn`
    has 32 bytes. -/
structure TcpServer where
  radarSn : List UInt8
  wlocalPort : UInt16
  deriving Repr, DecidableEq

/-- `psList->psNext = ...` at the last entry of a list. -/
def TcpList.hang {β : Type} (last : Nat) (psNext : Option Nat) (t : TcpList β) : TcpList β :=
  { t with list := { t.list with next := Function.update t.list.next last psNext } }

def ethLinkDelTcpClientList (fuel psList : Nat) (t : TcpList TcpClient) :
    Option (TcpList TcpClient) := t.del fuel psList

def ethLinkDelTcpServerList (fuel psList : Nat) (t : TcpList TcpServer) :
    Option (TcpList TcpServer) := t.del fuel psList

/-! ## What is left -/

section Unlink

variable {l : Links Nat} {x psIndex psLast fuel : Nat} {p : Option Nat} {mid after : List Nat}

theorem unlinkFrom_walk (reach : Segment l.next p mid (some x)) (absent : x ∉ mid)
    (enough : mid.length < fuel) :
    unlinkFrom x psLast fuel l p =
      some { l with next := Function.update l.next psLast (l.next x) } := by
  induction mid generalizing p fuel with
  | nil =>
      obtain rfl : p = some x := reach
      obtain ⟨fuel, rfl⟩ := Nat.exists_eq_succ_of_ne_zero (Nat.ne_of_gt enough)
      rw [unlinkFrom, if_pos rfl]
  | cons y mid ih =>
      obtain ⟨rfl, tail⟩ := reach
      obtain ⟨fuel, rfl⟩ := Nat.exists_eq_succ_of_ne_zero (Nat.ne_zero_of_lt enough)
      have other : x ≠ y := List.ne_of_not_mem_cons absent
      rw [unlinkFrom, if_neg other]
      exact ih tail (List.not_mem_of_not_mem_cons absent) (Nat.lt_of_succ_lt_succ enough)

theorem unlink_head (fuel : Nat) (held : l.Holds (x :: after)) :
    ∃ l', unlink fuel x l = some l' ∧ l'.Holds after := by
  obtain ⟨first, rest⟩ := held
  refine ⟨{ l with head := l.next x }, ?_, rest⟩
  simp only [unlink, first, if_true]

/-- Behind the head every entry is taken out together with those between. -/
theorem unlink_behind (held : l.Holds (psIndex :: (mid ++ x :: after)))
    (enough : mid.length + 2 ≤ fuel) :
    ∃ l', unlink fuel x l = some l' ∧ l'.Holds (psIndex :: after) := by
  have distinct : (psIndex :: (mid ++ x :: after)).Nodup := held.nodup
  obtain ⟨first, rest⟩ := held
  obtain ⟨r, reach, rfl, tail⟩ := segment_append.mp rest
  obtain ⟨alone, others⟩ := List.nodup_cons.mp distinct
  have other : x ≠ psIndex :=
    fun same => alone (same ▸ List.mem_append_right mid List.mem_cons_self)
  have passed : x ∉ mid :=
    fun member => (List.nodup_append.mp others).2.2 x member x List.mem_cons_self rfl
  have late : psIndex ∉ after :=
    fun member => alone (List.mem_append_right mid (List.mem_cons_of_mem x member))
  have whole : Segment l.next (some psIndex) (psIndex :: mid) (some x) := ⟨rfl, reach⟩
  have short : (psIndex :: mid).length < fuel := by
    rw [List.length_cons]
    omega
  refine ⟨{ l with next := Function.update l.next psIndex (l.next x) }, ?_, first, ?_⟩
  · simp only [unlink, first, other, if_false]
    rw [unlinkFrom_walk whole (List.not_mem_cons_of_ne_of_not_mem other passed) short, first]
  · show Segment _ (Function.update l.next psIndex (l.next x) psIndex) after none
    rw [Function.update_self]
    exact tail.update late

theorem unlinkFrom_absent {xs : List Nat} (held : Segment l.next p xs none) (absent : x ∉ xs)
    (enough : xs.length ≤ fuel) : unlinkFrom x psLast fuel l p = some l := by
  induction xs generalizing p fuel with
  | nil =>
      obtain rfl : p = none := held
      cases fuel <;> rfl
  | cons y xs ih =>
      obtain ⟨rfl, tail⟩ := held
      obtain ⟨fuel, rfl⟩ := Nat.exists_eq_succ_of_ne_zero (Nat.ne_zero_of_lt enough)
      rw [unlinkFrom, if_neg (List.ne_of_not_mem_cons absent)]
      exact ih tail (List.not_mem_of_not_mem_cons absent) (Nat.le_of_succ_le_succ enough)

theorem unlink_absent {xs : List Nat} (held : l.Holds xs) (absent : x ∉ xs)
    (enough : xs.length ≤ fuel) :
    unlink fuel x l = some l := by
  cases first : l.head with
  | none => simp only [unlink, first]
  | some psIndex =>
      have chain : Segment l.next (some psIndex) xs none := first ▸ held
      have other : x ≠ psIndex := by
        rintro rfl
        cases xs with
        | nil => cases chain
        | cons y xs => exact absent (Option.some.inj chain.1 ▸ List.mem_cons_self)
      simp only [unlink, first, other, if_false]
      exact unlinkFrom_absent chain absent enough

end Unlink

/-! ## Exactly the others -/

section Del

variable {β : Type} {t : TcpList β} {x fuel : Nat} {xs : List Nat}

/-- The entry is taken out, and the others are all still there in their order. -/
def RemovesOnly (x : Nat) (xs : List Nat) (result : Option (TcpList β)) : Prop :=
  ∃ t', result = some t' ∧ t'.list.Holds (xs.erase x)

theorem TcpList.del_of_unlink {b : β} {list : Links Nat} (live : t.entries x = some b)
    (unlinked : unlink fuel x t.list = some list) :
    t.del fuel x = some { list, entries := Function.update t.entries x none } := by
  rw [del, unlinked, free_live live]
  rfl

theorem TcpList.del_frees {t' : TcpList β} (removed : t.del fuel x = some t') :
    t'.entries x = none := by
  obtain ⟨list, -, rest⟩ := Option.bind_eq_some_iff.mp removed
  obtain ⟨entries, freed, rfl⟩ := Option.map_eq_some_iff.mp rest
  exact free_frees freed

/-- The first entry and the second are taken out alone. -/
theorem TcpList.del_iff (held : t.list.Holds xs) (member : x ∈ xs) (live : (t.entries x).isSome)
    (enough : xs.length ≤ fuel) : RemovesOnly x xs (t.del fuel x) ↔ xs.idxOf x ≤ 1 := by
  obtain ⟨b, allocated⟩ := Option.isSome_iff_exists.mp live
  obtain ⟨before, after, rfl, absent⟩ := List.eq_append_cons_of_mem member
  rw [List.idxOf_append_of_notMem absent, List.idxOf_cons_self, Nat.add_zero, RemovesOnly,
    List.erase_append_right _ absent, List.erase_cons_head]
  cases before with
  | nil =>
      obtain ⟨list, unlinked, rest⟩ := unlink_head _ held
      exact iff_of_true ⟨_, del_of_unlink allocated unlinked, rest⟩ (Nat.zero_le 1)
  | cons psIndex mid =>
      have short : mid.length + 2 ≤ fuel := by
        simp only [List.length_append, List.length_cons] at enough
        omega
      obtain ⟨list, unlinked, rest⟩ := unlink_behind held short
      rw [del_of_unlink allocated unlinked]
      constructor
      · rintro ⟨t', same, others⟩
        cases same
        have lengths := congrArg List.length (Segment.unique rest others)
        simp only [List.length_cons, List.length_append] at lengths ⊢
        omega
      · intro near
        obtain rfl : mid = [] := List.eq_nil_of_length_eq_zero (by simpa using near)
        exact ⟨_, rfl, rest⟩

end Del

/-! ## Entries with their contents -/

/-- Go along a list and read every entry. -/
def TcpList.walk {β : Type} (t : TcpList β) : Nat → Option Nat → Option (List (Nat × β))
  | _, none => some []
  | 0, some _ => none
  | fuel + 1, some psList =>
      match t.entries psList with
      | none => none
      | some entry => (t.walk fuel (t.list.next psList)).map fun rest => (psList, entry) :: rest

/-- The list consists of these entries, each at its place. -/
structure TcpList.Lists {β : Type} (t : TcpList β) (listed : List (Nat × β)) : Prop where
  chain : t.list.Holds (listed.map Prod.fst)
  contents : ∀ e ∈ listed, t.entries e.1 = some e.2

namespace TcpList

variable {β : Type} {t : TcpList β} {listed : List (Nat × β)} {x fuel : Nat}

theorem Lists.walk (lists : t.Lists listed) (enough : listed.length ≤ fuel) :
    t.walk fuel t.list.head = some listed := by
  have along : ∀ (p : Option Nat) (fuel : Nat), Segment t.list.next p (listed.map Prod.fst) none →
      listed.length ≤ fuel → t.walk fuel p = some listed := by
    have contents := lists.contents
    clear lists enough
    induction listed with
    | nil =>
        rintro p fuel (rfl : p = none) -
        cases fuel <;> rfl
    | cons e rest ih =>
        rintro p fuel ⟨rfl, tail⟩ enough
        obtain ⟨fuel, rfl⟩ := Nat.exists_eq_succ_of_ne_zero (Nat.ne_zero_of_lt enough)
        have later := ih (fun f member => contents f (List.mem_cons_of_mem e member)) _ fuel tail
          (Nat.le_of_succ_le_succ enough)
        rw [TcpList.walk, contents e List.mem_cons_self, later]
        rfl
  exact along _ fuel lists.chain enough

theorem Lists.unique {others : List (Nat × β)} (lists : t.Lists listed) (same : t.Lists others) :
    listed = others := by
  have one := lists.walk (Nat.le_max_left listed.length others.length)
  have other := same.walk (Nat.le_max_right listed.length others.length)
  exact Option.some.inj (one.symm.trans other)

theorem Lists.fresh (lists : t.Lists listed) (free : t.entries x = none) :
    x ∉ listed.map Prod.fst := by
  intro member
  obtain ⟨e, here, rfl⟩ := List.mem_map.mp member
  rw [lists.contents e here] at free
  cases free

theorem Lists.update {list : Links Nat} (contents : ∀ e ∈ listed, t.entries e.1 = some e.2)
    (chain : list.Holds (listed.map Prod.fst)) (foreign : x ∉ listed.map Prod.fst) (v : Option β) :
    ({ list, entries := Function.update t.entries x v } : TcpList β).Lists listed := by
  refine ⟨chain, fun e member => ?_⟩
  have other : e.1 ≠ x := ne_of_mem_of_not_mem (List.mem_map_of_mem member) foreign
  exact (Function.update_of_ne other v t.entries).trans (contents e member)

theorem Lists.single (t : TcpList β) (a : Nat) (entry : β) :
    ({ list := { head := some a, next := Function.update t.list.next a none }
       entries := Function.update t.entries a (some entry) } : TcpList β).Lists [(a, entry)] := by
  constructor
  · exact ⟨rfl,
      (Function.update_self a none t.list.next : Function.update t.list.next a none a = none)⟩
  · intro e member
    obtain rfl := List.mem_singleton.mp member
    exact Function.update_self _ _ _

theorem Lists.concat {a last : Nat} {entry lastEntry : β} {front : List (Nat × β)}
    (lists : t.Lists (front ++ [(last, lastEntry)])) (free : t.entries a = none) :
    ({ list := { t.list with
         next := Function.update (Function.update t.list.next a none) last (some a) }
       entries := Function.update t.entries a (some entry) } : TcpList β).Lists
      (front ++ [(last, lastEntry)] ++ [(a, entry)]) := by
  have foreign := lists.fresh free
  have chain := lists.chain
  have distinct := lists.chain.nodup
  rw [List.map_append, List.map_singleton] at foreign distinct
  rw [Links.Holds, List.map_append, List.map_singleton] at chain
  have alone : last ∉ front.map Prod.fst := fun member =>
    (List.nodup_append.mp distinct).2.2 last member last List.mem_cons_self rfl
  have other : a ≠ last := by
    rintro rfl
    exact foreign (List.mem_append_right _ List.mem_cons_self)
  constructor
  · rw [List.map_append, List.map_append, List.map_singleton, List.map_singleton]
    refine segment_append.mpr ⟨some a, (chain.update foreign).redirect alone, rfl, ?_⟩
    exact (Function.update_of_ne other _ _).trans (Function.update_self a none t.list.next)
  · intro e member
    rcases List.mem_append.mp member with listed | new
    · have elsewhere : e.1 ≠ a :=
        ne_of_mem_of_not_mem (List.mem_map_of_mem listed) (lists.fresh free)
      exact (Function.update_of_ne elsewhere _ _).trans (lists.contents e listed)
    · obtain rfl := List.mem_singleton.mp new
      exact Function.update_self _ _ _

theorem Lists.hang_none {e : Nat × β} {front : List (Nat × β)} (lists : t.Lists (front ++ [e])) :
    (t.hang e.1 none).Lists (front ++ [e]) := by
  have distinct := lists.chain.nodup
  have held := lists.chain
  rw [List.map_append, List.map_singleton] at distinct
  rw [Links.Holds, List.map_append, List.map_singleton] at held
  have single : e.1 ∉ front.map Prod.fst := fun member =>
    (List.nodup_append.mp distinct).2.2 e.1 member e.1 List.mem_cons_self rfl
  refine ⟨?_, lists.contents⟩
  rw [List.map_append, List.map_singleton]
  exact held.redirect single

/-- What is left after a removal is part of what was there before. -/
theorem Lists.del (lists : t.Lists listed) (live : (t.entries x).isSome)
    (enough : listed.length ≤ fuel) :
    ∃ t' left, t.del fuel x = some t' ∧ t'.Lists left ∧ left.Sublist listed := by
  obtain ⟨b, allocated⟩ := Option.isSome_iff_exists.mp live
  by_cases member : x ∈ listed.map Prod.fst
  · obtain ⟨d, here, rfl⟩ := List.mem_map.mp member
    obtain ⟨before, after, rfl⟩ := List.append_of_mem here
    have distinct := lists.chain.nodup
    have contents (left : List (Nat × β)) (part : left.Sublist (before ++ d :: after)) :
        ∀ e ∈ left, t.entries e.1 = some e.2 :=
          fun e member => lists.contents e (part.subset member)
    cases before with
    | nil =>
        obtain ⟨list, unlinked, rest⟩ := unlink_head fuel lists.chain
        have part : after.Sublist (d :: after) := List.sublist_cons_self d after
        exact ⟨_, after, del_of_unlink allocated unlinked,
          Lists.update (contents after part) rest (List.nodup_cons.mp distinct).1 none, part⟩
    | cons e mid =>
        simp only [List.cons_append, List.map_cons, List.map_append] at distinct
        have held := lists.chain
        simp only [List.cons_append, List.map_cons, List.map_append] at held
        have short : (mid.map Prod.fst).length + 2 ≤ fuel := by
          simp only [List.length_append, List.length_cons, List.length_map] at enough ⊢
          omega
        obtain ⟨list, unlinked, rest⟩ := unlink_behind held short
        have part : (e :: after).Sublist (e :: mid ++ d :: after) :=
          ((List.sublist_cons_self d after).trans (List.sublist_append_right mid _)).cons_cons e
        refine ⟨_, e :: after, del_of_unlink allocated unlinked,
          Lists.update (contents _ part) rest ?_ none, part⟩
        intro again
        obtain ⟨alone, others⟩ := List.nodup_cons.mp distinct
        rcases List.mem_cons.mp again with same | later
        · exact alone (List.mem_append_right _ (same ▸ List.mem_cons_self))
        · exact (List.nodup_cons.mp (List.nodup_append.mp others).2.1).1 later
  · have unlinked := unlink_absent lists.chain member (by simpa using enough)
    exact ⟨_, listed, del_of_unlink allocated unlinked,
      Lists.update lists.contents lists.chain member none, List.Sublist.refl listed⟩

end TcpList

/-- Only the first two entries of a list are taken out without taking others
    with them. -/
theorem ethLinkDelTcp_iff (clients : TcpList TcpClient) (servers : TcpList TcpServer)
    (xs ys : List Nat) (x y : Nat)
    (clientsHeld : clients.list.Holds xs) (client : x ∈ xs)
    (clientLive : (clients.entries x).isSome)
    (serversHeld : servers.list.Holds ys) (server : y ∈ ys)
    (serverLive : (servers.entries y).isSome) :
    (RemovesOnly x xs (ethLinkDelTcpClientList xs.length x clients) ↔ xs.idxOf x ≤ 1) ∧
      (RemovesOnly y ys (ethLinkDelTcpServerList ys.length y servers) ↔ ys.idxOf y ≤ 1) :=
  ⟨TcpList.del_iff clientsHeld client clientLive (Nat.le_refl _),
    TcpList.del_iff serversHeld server serverLive (Nat.le_refl _)⟩

/-- The list `[0, 1, ..., n - 1]`. -/
def countList {β : Type} (n : Nat) (b : β) : TcpList β where
  list :=
    { head := if n = 0 then none else some 0,
      next := fun i => if i + 1 < n then some (i + 1) else none }
  entries := fun i => if i < n then some b else none

theorem ethLinkDelTcp_iff_second :
    (RemovesOnly 1 [0, 1, 2] (ethLinkDelTcpClientList 3 1 (countList 3 ⟨0, 0⟩)) ↔
      [0, 1, 2].idxOf 1 ≤ 1) ∧
      (RemovesOnly 2 [0, 1, 2] (ethLinkDelTcpServerList 3 2 (countList 3 ⟨[], 0⟩)) ↔
        [0, 1, 2].idxOf 2 ≤ 1) :=
  ethLinkDelTcp_iff (countList 3 ⟨0, 0⟩) (countList 3 ⟨[], 0⟩) [0, 1, 2] [0, 1, 2] 1 2
    ⟨rfl, rfl, rfl, rfl⟩ (by decide)
    rfl ⟨rfl, rfl, rfl, rfl⟩ (by decide) rfl

/-- Taking the third of four servers out takes the second one with it. -/
theorem ethLinkDelTcp_drops :
    ¬ RemovesOnly 2 [0, 1, 2, 3] (ethLinkDelTcpServerList 4 2 (countList 4 ⟨[], 0⟩)) := by
  rintro ⟨t', removed, others⟩
  cases removed
  exact absurd others.2.1 (by decide)

end PtzAgx.EthLink
