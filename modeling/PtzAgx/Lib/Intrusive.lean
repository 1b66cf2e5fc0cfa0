import Mathlib.Data.List.Nodup
import Mathlib.Logic.Function.Basic
import Mathlib.Tactic.Common

/-! # Singly linked lists inside their own nodes

The links of an intrusive list are a head pointer and one successor per node, of
every node there is, listed or not. Nothing forces the successors to describe a
list: a chain may run into itself, and a node outside keeps its old successor.
`Segment` says that the links do describe one, and the loops that walk the links
come with fuel because in general they need not end.
-/

namespace PtzAgx.Intrusive

variable {ν : Type}

/-- The links a list is made of; `none` is `NULL`. -/
structure Links (ν : Type) where
  head : Option ν
  next : ν → Option ν

/-- The nodes `xs` follow one another from the pointer `p`, and the last one
    points to `q`. -/
def Segment (next : ν → Option ν) (p : Option ν) (xs : List ν) (q : Option ν) : Prop :=
  match xs with
  | [] => p = q
  | x :: rest => p = some x ∧ Segment next (next x) rest q

/-- The links describe exactly the list `xs`. -/
def Links.Holds (l : Links ν) (xs : List ν) : Prop := Segment l.next l.head xs none

section Segments

variable {next next' : ν → Option ν} {p q : Option ν} {xs ys : List ν} {x : ν}

theorem segment_append : Segment next p (xs ++ ys) q ↔ ∃ r, Segment next p xs r ∧
    Segment next r ys q := by
  induction xs generalizing p with
  | nil => simp [Segment]
  | cons x rest ih => simp [Segment, ih, and_assoc]

theorem Segment.congr (agree : ∀ x ∈ xs, next x = next' x) (segment : Segment next p xs q) :
    Segment next' p xs q := by
  induction xs generalizing p with
  | nil => exact segment
  | cons x rest ih =>
      refine ⟨segment.1, ?_⟩
      rw [← agree x List.mem_cons_self]
      exact ih (fun y member => agree y (List.mem_cons_of_mem x member)) segment.2

theorem segment_none (segment : Segment next none xs q) : xs = [] ∧ q = none := by
  cases xs with
  | nil => exact ⟨rfl, (segment : none = q).symm⟩
  | cons x rest => exact absurd segment.1.symm (Option.some_ne_none x)

theorem Segment.start_mem (segment : Segment next (some x) (xs ++ ys) q) (nonempty : xs ≠ []) :
    x ∈ xs := by
  cases xs with
  | nil => exact absurd rfl nonempty
  | cons y rest =>
      obtain rfl := Option.some.inj segment.1
      exact List.mem_cons_self

theorem Segment.end_unique {q' : Option ν} (one : Segment next p xs q)
    (other : Segment next p xs q') : q = q' := by
  induction xs generalizing p with
  | nil => exact (one : p = q).symm.trans other
  | cons x rest ih => exact ih one.2 other.2

theorem Segment.unique (one : Segment next p xs none) (other : Segment next p ys none) :
    xs = ys := by
  induction xs generalizing p ys with
  | nil =>
      obtain rfl : p = none := one
      cases ys with
      | nil => rfl
      | cons y rest => exact absurd other.1 (Option.some_ne_none y).symm
  | cons x rest ih =>
      obtain ⟨rfl, tail⟩ := one
      cases ys with
      | nil => exact absurd other (Option.some_ne_none x)
      | cons y others =>
          obtain ⟨same, tail'⟩ := other
          obtain rfl := Option.some.inj same
          rw [ih tail tail']

/-- A chain that ends passes no node twice. -/
theorem Segment.nodup (segment : Segment next p xs none) : xs.Nodup := by
  induction xs generalizing p with
  | nil => exact List.nodup_nil
  | cons x rest ih =>
      refine List.nodup_cons.mpr ⟨?_, ih segment.2⟩
      intro again
      -- From a second `x` on, the rest would be the whole tail once more.
      obtain ⟨before, after, rfl⟩ := List.append_of_mem again
      obtain ⟨r, -, reach⟩ := segment_append.mp segment.2
      have same := Segment.unique segment.2 reach.2
      have lengths := congrArg List.length same
      simp at lengths
      omega

variable [DecidableEq ν] {n : ν} {v : Option ν}

theorem Segment.update (absent : n ∉ xs) (segment : Segment next p xs q) :
    Segment (Function.update next n v) p xs q := by
  refine segment.congr ?_
  intro x member
  rw [Function.update_of_ne (ne_of_mem_of_not_mem member absent)]

theorem Segment.redirect (absent : x ∉ xs) (segment : Segment next p (xs ++ [x]) q) :
    Segment (Function.update next x v) p (xs ++ [x]) v := by
  obtain ⟨r, front, here, -⟩ := segment_append.mp segment
  exact segment_append.mpr ⟨r, front.update absent, here, by simp [Segment]⟩

end Segments

/-! ## Appending a node that is not in the list yet -/

section Append

variable [DecidableEq ν]

/-- `for( ; now != node; now = now->psNext )`, hanging `node` behind the last
    node and stopping there. -/
def Links.appendFrom (node : ν) : Nat → Links ν → ν → Option (Links ν)
  | 0, _, _ => none
  | fuel + 1, l, now =>
      if now = node then some l
      else
        match l.next now with
        | none => some { l with next := Function.update l.next now (some node) }
        | some after => appendFrom node fuel l after

/-- Append `node` unless the list has it; an empty list gets it as its head. -/
def Links.append (fuel : Nat) (l : Links ν) (node : ν) : Option (Links ν) :=
  match l.head with
  | none => some { l with head := some node }
  | some first => l.appendFrom node fuel first

variable {l : Links ν} {node x y : ν} {xs before : List ν} {fuel : Nat}

theorem Links.appendFrom_walk (k : Nat) (reach : Segment l.next (some x) before (some y))
    (absent : node ∉ before) :
    l.appendFrom node (k + before.length) x = l.appendFrom node k y := by
  induction before generalizing x with
  | nil =>
      obtain rfl := Option.some.inj reach
      rfl
  | cons z rest ih =>
      obtain ⟨same, tail⟩ := reach
      obtain rfl := Option.some.inj same
      have other : x ≠ node := (ne_of_mem_of_not_mem List.mem_cons_self absent)
      have later : node ∉ rest := fun member => absent (List.mem_cons_of_mem x member)
      rw [List.length_cons, ← Nat.add_assoc, appendFrom, if_neg other]
      cases after : l.next x with
      | none =>
          rw [after] at tail
          exact absurd (segment_none tail).2 (Option.some_ne_none y)
      | some z =>
          rw [after] at tail
          exact ih tail later

theorem Links.appendFrom_mono {result : Links ν} (extra : Nat)
    (returned : l.appendFrom node fuel x = some result) :
    l.appendFrom node (fuel + extra) x = some result := by
  induction fuel generalizing x with
  | zero => simp [appendFrom] at returned
  | succ fuel ih =>
      rw [Nat.succ_add]
      simp only [appendFrom] at returned ⊢
      by_cases found : x = node
      · simpa only [found, if_true] using returned
      · simp only [found, if_false] at returned ⊢
        cases after : l.next x with
        | none => simpa only [after] using returned
        | some z =>
            simp only [after] at returned
            exact ih returned

theorem Links.append_mono {result : Links ν} (extra : Nat)
    (returned : l.append fuel node = some result) :
    l.append (fuel + extra) node = some result := by
  cases first : l.head with
  | none => simpa only [append, first] using returned
  | some x =>
      simp only [append, first] at returned ⊢
      exact appendFrom_mono extra returned

theorem Links.append_member (held : l.Holds xs) (member : node ∈ xs) (enough : xs.length ≤ fuel) :
    l.append fuel node = some l := by
  obtain ⟨before, after, rfl, absent⟩ := List.eq_append_cons_of_mem member
  obtain ⟨r, reach, here, -⟩ := segment_append.mp held
  obtain ⟨k, rfl⟩ : ∃ k, fuel = k + 1 + before.length := by
    rw [List.length_append, List.length_cons] at enough
    exact ⟨fuel - before.length - 1, by omega⟩
  cases first : l.head with
  | none =>
      rw [first, here] at reach
      exact absurd (segment_none reach).2 (Option.some_ne_none node)
  | some x =>
      rw [first, here] at reach
      simp only [append, first]
      rw [appendFrom_walk (k + 1) reach absent, appendFrom, if_pos rfl]

/-- A node that is not listed ends up behind the others, with whatever it points
    to. -/
theorem Links.append_absent (held : l.Holds xs) (absent : node ∉ xs) (enough : xs.length ≤ fuel) :
    ∃ l', l.append fuel node = some l' ∧ Segment l'.next l'.head (xs ++ [node]) (l.next node) ∧
      ∀ x ∉ xs, l'.next x = l.next x := by
  rcases List.eq_nil_or_concat' xs with rfl | ⟨front, last, rfl⟩
  · have empty : l.head = none := held
    exact ⟨{ l with head := some node }, by simp only [append, empty], ⟨rfl, rfl⟩, fun _ _ => rfl⟩
  · obtain ⟨r, reach, here, ends⟩ := segment_append.mp held
    obtain ⟨k, rfl⟩ : ∃ k, fuel = k + 1 + front.length := by
      rw [List.length_append, List.length_singleton] at enough
      exact ⟨fuel - front.length - 1, by omega⟩
    have passed : node ∉ front := fun member => absent (List.mem_append_left [last] member)
    have other : last ≠ node :=
      ne_of_mem_of_not_mem (List.mem_append_right front List.mem_cons_self) absent
    have single : last ∉ front := fun member =>
      (List.nodup_append.mp held.nodup).2.2 last member last List.mem_cons_self rfl
    refine ⟨{ l with next := Function.update l.next last (some node) }, ?_, ?_, ?_⟩
    · cases first : l.head with
      | none =>
          rw [first, here] at reach
          exact absurd (segment_none reach).2 (Option.some_ne_none last)
      | some x =>
          rw [first, here] at reach
          have stop : l.next last = none := ends
          simp only [append, first]
          rw [appendFrom_walk (k + 1) reach passed, appendFrom, if_neg other, stop]
          simp only [first]
    · refine segment_append.mpr ⟨some node, Segment.redirect single held, rfl, ?_⟩
      exact Function.update_of_ne other.symm _ _
    · intro x outside
      have different : x ≠ last := fun same => outside (by rw [same]; simp)
      exact Function.update_of_ne different _ _

end Append

/-! ## Taking a node out -/

/-- Leading `prev` past its successor takes that successor out of the list. -/
theorem Segment.unlink [DecidableEq ν] {next : ν → Option ν} {p : Option ν} {before after : List ν}
    {prev x : ν}
    (held : Segment next p (before ++ prev :: x :: after) none) :
    Segment (Function.update next prev (next x)) p (before ++ prev :: after) none := by
  have distinct := held.nodup
  obtain ⟨r, reach, here, _, rest⟩ := segment_append.mp held
  have early : prev ∉ before := by
    intro member
    exact (List.nodup_append.mp distinct).2.2 prev member prev List.mem_cons_self rfl
  have late : prev ∉ after := by
    intro member
    have tail := (List.nodup_cons.mp (List.nodup_append.mp distinct).2.1).1
    exact tail (List.mem_cons_of_mem x member)
  refine segment_append.mpr ⟨r, reach.update early, here, ?_⟩
  rw [Function.update_self]
  exact rest.update late

end PtzAgx.Intrusive
