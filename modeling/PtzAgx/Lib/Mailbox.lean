import Mathlib.Algebra.GroupWithZero.Nat
import Mathlib.Algebra.NeZero
import Mathlib.Tactic.Common

/-! # A bounded queue with a place for something urgent

What is urgent replaces what was urgent before and is taken out first. The queue
keeps the last `bound` elements that are still to be taken.
-/

namespace PtzAgx

structure Mailbox (α : Type) (bound : Nat) where
  urgent : Option α
  queue : List α
  bounded : queue.length ≤ bound

namespace Mailbox

variable {α : Type} {bound : Nat}

def empty : Mailbox α bound := ⟨none, [], Nat.zero_le bound⟩

def post (m : Mailbox α bound) (x : α) : Mailbox α bound := { m with urgent := some x }

/-- A full queue loses its oldest element first. -/
def put [NeZero bound] (m : Mailbox α bound) (x : α) : Mailbox α bound where
  urgent := m.urgent
  queue := (if m.queue.length < bound then m.queue else m.queue.tail) ++ [x]
  bounded := by
    have positive := Nat.pos_of_neZero bound
    have bounded := m.bounded
    split
    · rw [List.length_append, List.length_singleton]
      omega
    · rw [List.length_append, List.length_singleton, List.length_tail]
      omega

def get (m : Mailbox α bound) : Option α × Mailbox α bound :=
  match m.urgent with
  | some x => (some x, { m with urgent := none })
  | none =>
    (m.queue.head?,
      ⟨none, m.queue.tail, by rw [List.length_tail]; exact Nat.le_trans (Nat.sub_le _ _) m.bounded⟩)

theorem get_length (m : Mailbox α bound) :
    m.get.2.queue.length + m.get.2.urgent.toList.length + m.get.1.toList.length =
      m.queue.length + m.urgent.toList.length := by
  obtain ⟨urgent, queue, bounded⟩ := m
  cases urgent with
  | some x => rfl
  | none => cases queue <;> rfl

theorem get_eq_none {m : Mailbox α bound} (nothing : m.get.1 = none) :
    m.queue = [] ∧ m.urgent = none := by
  obtain ⟨urgent, queue, bounded⟩ := m
  cases urgent with
  | some x => cases nothing
  | none => exact ⟨List.head?_eq_none_iff.mp nothing, rfl⟩

/-! ## What goes through -/

/-- What was taken and what is still there was sent, none of it twice, and what is
    urgent as well as what is not in the order in which it was sent. -/
structure Passes (urgent : α → Bool) (sent taken : List α) (m : Mailbox α bound) : Prop where
  rest : (taken.filter (!urgent ·) ++ m.queue).Sublist (sent.filter (!urgent ·))
  first : (taken.filter urgent ++ m.urgent.toList).Sublist (sent.filter urgent)

section Passes

variable {urgent : α → Bool} {sent taken : List α} {m : Mailbox α bound} {x : α}

theorem Passes.empty (urgent : α → Bool) : Passes urgent [] [] (empty : Mailbox α bound) :=
  ⟨.slnil, .slnil⟩

theorem Passes.miss (passes : Passes urgent sent taken m) (x : α) :
    Passes urgent (sent ++ [x]) taken m := by
  constructor
  · rw [List.filter_append]
    exact passes.rest.trans (List.sublist_append_left _ _)
  · rw [List.filter_append]
    exact passes.first.trans (List.sublist_append_left _ _)

theorem Passes.post (passes : Passes urgent sent taken m) (is : urgent x = true) :
    Passes urgent (sent ++ [x]) taken (m.post x) := by
  constructor
  · simpa [Mailbox.post, is] using passes.rest
  · have before := (List.sublist_append_left _ _).trans passes.first
    simpa [Mailbox.post, is] using before.append_right [x]

theorem Passes.put [NeZero bound] (passes : Passes urgent sent taken m) (is : urgent x = false) :
    Passes urgent (sent ++ [x]) taken (m.put x) := by
  constructor
  · have kept : (if m.queue.length < bound then m.queue else m.queue.tail).Sublist m.queue := by
      split
      · exact .refl _
      · exact List.tail_sublist _
    have before := (kept.append_left (taken.filter (!urgent ·))).trans passes.rest
    simpa [Mailbox.put, is] using before.append_right [x]
  · simpa [Mailbox.put, is] using passes.first

theorem Passes.urgent_first (passes : Passes urgent sent taken m) (there : m.urgent = some x) :
    urgent x = true := by
  have member : x ∈ sent.filter urgent := passes.first.subset (by simp [there])
  exact (List.mem_filter.mp member).2

theorem Passes.urgent_rest (passes : Passes urgent sent taken m) (there : x ∈ m.queue) :
    urgent x = false := by
  have member : x ∈ sent.filter (!urgent ·) := passes.rest.subset (by simp [there])
  simpa using (List.mem_filter.mp member).2

theorem Passes.taken_sent (passes : Passes urgent sent taken m) (there : x ∈ taken) : x ∈ sent := by
  cases is : urgent x with
  | true =>
      have member : x ∈ sent.filter urgent := passes.first.subset (by simp [there, is])
      exact (List.mem_filter.mp member).1
  | false =>
      have member : x ∈ sent.filter (!urgent ·) := passes.rest.subset (by simp [there, is])
      exact (List.mem_filter.mp member).1

theorem Passes.get_moves (passes : Passes urgent sent taken m) :
    (taken ++ m.get.1.toList).filter (!urgent ·) ++ m.get.2.queue =
        taken.filter (!urgent ·) ++ m.queue ∧
      (taken ++ m.get.1.toList).filter urgent ++ m.get.2.urgent.toList = taken.filter urgent ++
      m.urgent.toList := by
  cases there : m.urgent with
  | some x =>
      have is := passes.urgent_first there
      simp [Mailbox.get, there, is]
  | none =>
      cases waiting : m.queue with
      | nil => simp [Mailbox.get, there, waiting]
      | cons x queue =>
          have is := passes.urgent_rest (x := x) (by simp [waiting])
          simp [Mailbox.get, there, waiting, is]

theorem Passes.get (passes : Passes urgent sent taken m) :
    Passes urgent sent (taken ++ m.get.1.toList) m.get.2 := by
  obtain ⟨rest, first⟩ := passes.get_moves
  exact ⟨rest ▸ passes.rest, first ▸ passes.first⟩

end Passes

/-- Nothing that is not urgent was lost. -/
def Lossless (urgent : α → Bool) (sent taken : List α) (m : Mailbox α bound) : Prop :=
  taken.filter (!urgent ·) ++ m.queue = sent.filter (!urgent ·)

section Lossless

variable {urgent : α → Bool} {sent taken : List α} {m : Mailbox α bound} {x : α}

theorem Lossless.post (lossless : Lossless urgent sent taken m) (is : urgent x = true) :
    Lossless urgent (sent ++ [x]) taken (m.post x) := by
  simpa [Lossless, Mailbox.post, is] using lossless

theorem Lossless.put [NeZero bound] (lossless : Lossless urgent sent taken m)
    (is : urgent x = false)
    (room : m.queue.length < bound) : Lossless urgent (sent ++ [x]) taken (m.put x) := by
  simp [Lossless, Mailbox.put, is, room, ← show _ = _ from lossless]

theorem Lossless.get (lossless : Lossless urgent sent taken m)
    (passes : Passes urgent sent taken m) :
    Lossless urgent sent (taken ++ m.get.1.toList) m.get.2 :=
  passes.get_moves.1.trans lossless

end Lossless

end Mailbox

end PtzAgx
