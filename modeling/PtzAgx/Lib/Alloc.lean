import Mathlib.Data.List.Nodup
import Mathlib.Logic.Function.Basic
import Mathlib.Tactic.Common

/-! # A heap of blocks of one kind

A block that is not allocated has no contents, and touching it has no result.
Where a new block lies is the allocator's choice, and so is whether there is one.
A choice that is taken already is a failure, so every choice is a possible one.

`Owns` says which blocks somebody relies on, and what he relies on in them.
-/

namespace PtzAgx.Alloc

variable {β τ : Type}

abbrev Heap (β : Type) := Nat → Option β

def malloc (choice : Option Nat) (b : β) (h : Heap β) : Option (Nat × Heap β) :=
  match choice with
  | none => none
  | some a => if (h a).isSome then none else some (a, Function.update h a (some b))

def free (a : Nat) (h : Heap β) : Option (Heap β) :=
  match h a with
  | none => none
  | some _ => some (Function.update h a none)

def modify (a : Nat) (f : β → β) (h : Heap β) : Option (Heap β) :=
  match h a with
  | none => none
  | some b => some (Function.update h a (some (f b)))

section Operations

variable {h h' : Heap β} {a : Nat} {b : β}

theorem malloc_eq_some {choice : Option Nat} (allocated : malloc choice b h = some (a, h')) :
    choice = some a ∧ h a = none ∧ h' = Function.update h a (some b) := by
  cases choice with
  | none => cases allocated
  | some c =>
      unfold malloc at allocated
      cases here : h c with
      | some old => simp [here] at allocated
      | none =>
          simp only [here, Option.isSome_none, Bool.false_eq_true, if_false, Option.some.injEq,
            Prod.mk.injEq] at allocated
          obtain ⟨rfl, rfl⟩ := allocated
          exact ⟨rfl, here, rfl⟩

theorem malloc_fresh (fresh : h a = none) (b : β) :
    malloc (some a) b h = some (a, Function.update h a (some b)) := by
  simp only [malloc, fresh, Option.isSome_none, Bool.false_eq_true, if_false]

theorem free_live (live : h a = some b) : free a h = some (Function.update h a none) := by
  simp only [free, live]

theorem modify_live (f : β → β) (live : h a = some b) :
    modify a f h = some (Function.update h a (some (f b))) := by
  simp only [modify, live]

theorem update_keeps {x : Nat} (live : (h x).isSome) (a : Nat) (b : β) :
    (Function.update h a (some b) x).isSome := by
  by_cases here : x = a
  · rw [here, Function.update_self]
    rfl
  · rwa [Function.update_of_ne here]

theorem malloc_keeps {choice : Option Nat} {x : Nat} (live : (h x).isSome)
    (allocated : malloc choice b h = some (a, h')) :
    (h' x).isSome := by
  obtain ⟨-, -, rfl⟩ := malloc_eq_some allocated
  exact update_keeps live a b

theorem modify_keeps {f : β → β} {x : Nat} (live : (h x).isSome)
    (modified : modify a f h = some h') :
    (h' x).isSome := by
  unfold modify at modified
  cases here : h a with
  | none => simp [here] at modified
  | some b =>
      simp only [here, Option.some.injEq] at modified
      rw [← modified]
      exact update_keeps live a (f b)

theorem free_keeps {x : Nat} (live : (h x).isSome) (other : x ≠ a) (freed : free a h = some h') :
    (h' x).isSome := by
  unfold free at freed
  cases here : h a with
  | none => simp [here] at freed
  | some b =>
      simp only [here, Option.some.injEq] at freed
      rwa [← freed, Function.update_of_ne other]

theorem free_frees (freed : free a h = some h') : h' a = none := by
  unfold free at freed
  cases here : h a with
  | none => simp [here] at freed
  | some b =>
      simp only [here, Option.some.injEq] at freed
      rw [← freed, Function.update_self]

theorem update_fresh (fresh : h a = none) (b : Option β) :
    Function.update (Function.update h a b) a none = h := by
  rw [Function.update_idem, ← fresh, Function.update_eq_self]

end Operations

/-- The blocks at the places of `owned` are allocated, no two of them are the
    same, and their contents are as `P` wants them. -/
structure Owns (h : Heap β) (place : τ → Nat) (P : τ → β → Prop) (owned : List τ) : Prop where
  distinct : (owned.map place).Nodup
  live : ∀ t ∈ owned, ∃ b, h (place t) = some b ∧ P t b

namespace Owns

variable {h : Heap β} {place : τ → Nat} {P : τ → β → Prop} {owned owned' : List τ} {t : τ}
  {a : Nat} {b : β}

theorem nil (h : Heap β) : Owns h place P [] :=
  ⟨List.nodup_nil, fun _ member => absurd member List.not_mem_nil⟩

theorem perm (owns : Owns h place P owned) (same : owned.Perm owned') : Owns h place P owned' :=
  ⟨(same.map place).nodup_iff.mp owns.distinct, fun t member => owns.live t
    (same.mem_iff.mpr member)⟩

theorem tail (owns : Owns h place P (t :: owned)) : Owns h place P owned :=
  ⟨owns.distinct.of_cons, fun u member => owns.live u (List.mem_cons_of_mem t member)⟩

theorem not_mem (owns : Owns h place P owned) (fresh : h a = none) : a ∉ owned.map place := by
  intro member
  obtain ⟨t, listed, rfl⟩ := List.mem_map.mp member
  obtain ⟨b, live, -⟩ := owns.live t listed
  rw [fresh] at live
  cases live

theorem frame (owns : Owns h place P owned) (foreign : a ∉ owned.map place) (v : Option β) :
    Owns (Function.update h a v) place P owned := by
  refine ⟨owns.distinct, fun t member => ?_⟩
  have other : place t ≠ a := ne_of_mem_of_not_mem (List.mem_map_of_mem member) foreign
  rw [Function.update_of_ne other]
  exact owns.live t member

theorem alloc (owns : Owns h place P owned) (fresh : h (place t) = none) (contents : P t b) :
    Owns (Function.update h (place t) (some b)) place P (t :: owned) := by
  have foreign := owns.not_mem fresh
  have kept := owns.frame foreign (some b)
  refine ⟨List.nodup_cons.mpr ⟨foreign, owns.distinct⟩, fun u member => ?_⟩
  cases member with
  | head => exact ⟨b, Function.update_self (place t) (some b) h, contents⟩
  | tail _ listed => exact kept.live u listed

theorem dealloc (owns : Owns h place P (t :: owned)) :
    Owns (Function.update h (place t) none) place P owned :=
  owns.tail.frame (List.nodup_cons.mp owns.distinct).1 none

theorem write (owns : Owns h place P owned) (member : t ∈ owned) (contents : P t b) :
    Owns (Function.update h (place t) (some b)) place P owned := by
  refine ⟨owns.distinct, fun u listed => ?_⟩
  by_cases here : place u = place t
  · obtain rfl := List.inj_on_of_nodup_map owns.distinct listed member here
    exact ⟨b, Function.update_self (place u) (some b) h, contents⟩
  · rw [Function.update_of_ne here]
    exact owns.live u listed

end Owns

end PtzAgx.Alloc
