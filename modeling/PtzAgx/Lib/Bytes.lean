import Mathlib.Data.List.Basic
import Mathlib.Logic.Function.Basic
import Mathlib.Tactic.Common

/-! # Memory seen through a pointer

A pointer is the function from an index to the cell found there, so pointer
arithmetic is a shift of that function and a bounded access is a prefix of it.
Nothing here says which cells belong to an object: bounds are the business of
the code that is given the pointer.
-/

namespace PtzAgx.Bytes

/-- Cell `i` of what a pointer points to. -/
abbrev Ptr (β : Type) := Nat → β

namespace Ptr

variable {β : Type}

/-- `p + n`. -/
def advance (p : Ptr β) (n : Nat) : Ptr β := fun i => p (n + i)

/-- The first `n` cells. -/
def read (p : Ptr β) (n : Nat) : List β := (List.range n).map p

/-- Memory after copying `cells` to address `a`, as `memcpy` does. -/
def store (m : Ptr β) (a : Nat) (cells : List β) : Ptr β := fun i =>
  if a ≤ i then (cells[i - a]?).getD (m i) else m i

/-- A pointer to the start of an object with these cells. -/
def ofList [Inhabited β] (cells : List β) : Ptr β := fun i => cells.getD i default

@[simp] theorem advance_apply (p : Ptr β) (n i : Nat) : p.advance n i = p (n + i) := rfl

@[simp] theorem advance_zero (p : Ptr β) : p.advance 0 = p := by
  funext i
  simp only [advance, Nat.zero_add]

@[simp] theorem advance_advance (p : Ptr β) (m n : Nat) :
    (p.advance m).advance n = p.advance (m + n) := by
  funext i
  simp only [advance, Nat.add_assoc]

@[simp] theorem length_read (p : Ptr β) (n : Nat) : (p.read n).length = n := by
  simp [read]

@[simp] theorem read_zero (p : Ptr β) : p.read 0 = [] := rfl

@[simp] theorem getElem_read (p : Ptr β) (n i : Nat) (inside : i < (p.read n).length) :
    (p.read n)[i] = p i := by
  simp [read]

theorem getElem?_read (p : Ptr β) {n i : Nat} (inside : i < n) : (p.read n)[i]? = some (p i) := by
  simp [read, inside]

theorem read_congr {p q : Ptr β} {n : Nat} (agree : ∀ i < n, p i = q i) : p.read n = q.read n :=
  List.map_congr_left fun i member => agree i (List.mem_range.mp member)

theorem apply_of_read {p q : Ptr β} {n : Nat} (same : p.read n = q.read n) {i : Nat}
    (inside : i < n) :
    p i = q i := by
  have cell := congrArg (·[i]?) same
  simpa [getElem?_read, inside] using cell

theorem read_add (p : Ptr β) (m n : Nat) : p.read (m + n) = p.read m ++ (p.advance m).read n := by
  simp only [read, List.range_add, List.map_append, List.map_map]
  rfl

theorem read_succ (p : Ptr β) (n : Nat) : p.read (n + 1) = p 0 :: (p.advance 1).read n := by
  rw [Nat.add_comm, read_add]
  rfl

theorem take_read (p : Ptr β) {k n : Nat} (le : k ≤ n) : (p.read n).take k = p.read k := by
  obtain ⟨m, rfl⟩ := Nat.exists_eq_add_of_le le
  rw [read_add, List.take_left' (length_read p k)]

theorem drop_read (p : Ptr β) {k n : Nat} (le : k ≤ n) :
    (p.read n).drop k = (p.advance k).read (n - k) := by
  obtain ⟨m, rfl⟩ := Nat.exists_eq_add_of_le le
  rw [read_add, List.drop_left' (length_read p k), Nat.add_sub_cancel_left]

theorem read_of_append {p : Ptr β} {n : Nat} {front back : List β}
    (same : p.read n = front ++ back) :
    p.read front.length = front ∧ (p.advance front.length).read back.length = back := by
  have total : n = front.length + back.length := by
    simpa using congrArg List.length same
  subst total
  rw [read_add] at same
  exact List.append_inj same (length_read p _)

@[simp] theorem read_ofList [Inhabited β] (cells : List β) :
    (ofList cells).read cells.length = cells := by
  apply List.ext_getElem (length_read _ _)
  intro i _ inside
  simp [ofList, inside]

theorem ofList_apply [Inhabited β] {cells : List β} {i : Nat} (inside : i < cells.length) :
    ofList cells i = cells[i] := by
  simp [ofList, inside]

theorem ofList_read [Inhabited β] (p : Ptr β) {n i : Nat} (inside : i < n) :
    ofList (p.read n) i = p i := by
  simp [ofList, inside]

theorem ofList_take [Inhabited β] (cells : List β) {k i : Nat} (inside : i < k) :
    ofList (cells.take k) i = ofList cells i := by
  simp only [ofList, List.getD_eq_getElem?_getD, List.getElem?_take_of_lt inside]

theorem ofList_front [Inhabited β] (front back : List β) {i : Nat} (inside : i < front.length) :
    ofList (front ++ back) i = ofList front i := by
  have taken := ofList_take (front ++ back) inside
  rw [List.take_left] at taken
  exact taken.symm

theorem ofList_append_cons [Inhabited β] (front : List β) (cell : β) (back : List β) :
    ofList (front ++ cell :: back) front.length = cell := by
  simp [ofList]

theorem read_ofList_append [Inhabited β] (front back : List β) :
    (ofList (front ++ back)).read front.length = front :=
  (read_of_append (read_ofList (front ++ back))).1

/-- An object that ends with two cells of their own: what it has between its
    first cell and these, and the two. -/
theorem ofList_trailer [Inhabited β] {body : List β} {n : Nat} (length : body.length = n + 1)
    (low high : β) :
    ((ofList (body ++ [low, high])).advance 1).read n = body.tail ∧
      ofList (body ++ [low, high]) (n + 1) = low ∧ ofList (body ++ [low, high]) (n + 2) = high := by
  obtain ⟨front, trailer⟩ := read_of_append (read_ofList (body ++ [low, high]))
  rw [length] at front trailer
  obtain ⟨first, rest⟩ := List.cons.inj trailer
  have tail := drop_read (ofList (body ++ [low, high])) (Nat.le_add_left 1 n)
  rw [front, List.drop_one] at tail
  exact ⟨tail.symm, first, (List.cons.inj rest).1⟩

theorem ofList_outside [Inhabited β] {cells : List β} {i : Nat} (outside : cells.length ≤ i) :
    ofList cells i = default := by
  simp [ofList, outside]

theorem store_before (m : Ptr β) {a i : Nat} (cells : List β) (before : i < a) :
    m.store a cells i = m i := by
  simp [store, Nat.not_le.mpr before]

theorem store_after (m : Ptr β) {a i : Nat} (cells : List β) (after : a + cells.length ≤ i) :
    m.store a cells i = m i := by
  have outside : cells.length ≤ i - a := by omega
  simp [store, outside]

theorem store_inside (m : Ptr β) (a : Nat) {cells : List β} {i : Nat} (inside : i < cells.length) :
    m.store a cells (a + i) = cells[i] := by
  simp [store, inside]

theorem store_congr {m m' : Ptr β} (a : Nat) (cells : List β) {i : Nat} (same : m i = m' i) :
    m.store a cells i = m'.store a cells i := by
  simp only [store, same]

@[simp] theorem read_store (m : Ptr β) (a : Nat) (cells : List β) :
    ((m.store a cells).advance a).read cells.length = cells := by
  apply List.ext_getElem (length_read _ _)
  intro i _ inside
  simp only [getElem_read, advance_apply, store_inside m a inside]

theorem advance_store (m : Ptr β) (a : Nat) (cells : List β) :
    (m.store a cells).advance a = (m.advance a).store 0 cells := by
  funext i
  simp [store]

theorem store_store (m : Ptr β) (a : Nat) (cells front : List β) :
    (m.store a cells).store a front = m.store a (front ++ cells.drop front.length) := by
  funext i
  by_cases behind : a ≤ i
  · cases Nat.lt_or_ge (i - a) front.length with
    | inl written => simp [store, behind, written, List.getElem?_append_left written]
    | inr kept =>
        have place : front.length + (i - a - front.length) = i - a := by omega
        simp [store, behind, kept, List.getElem?_append_right kept, List.getElem?_drop, place]
  · simp [store, behind]

theorem read_update_before (p : Ptr β) {a i : Nat} (n : Nat) (v : β) (before : i < a) :
    (advance (Function.update p i v) a).read n = (p.advance a).read n := by
  apply read_congr
  intro j _
  exact Function.update_of_ne (by omega : a + j ≠ i) v p

theorem read_update_after (p : Ptr β) {n i : Nat} (v : β) (after : n ≤ i) :
    read (Function.update p i v) n = p.read n := by
  apply read_congr
  intro j small
  exact Function.update_of_ne (by omega : j ≠ i) v p

theorem read_store_append (m : Ptr β) (a j : Nat) (cells : List β) :
    ((m.store (a + j) cells).advance a).read (j + cells.length) =
      (m.advance a).read j ++ cells := by
  have front : ((m.store (a + j) cells).advance a).read j = (m.advance a).read j :=
    read_congr fun i small => store_before m cells (by omega)
  rw [read_add, front, advance_advance, read_store]

end Ptr

end PtzAgx.Bytes
