import PtzAgx.Lib.Bytes
import PtzAgx.Lib.Object

/-! # Counted arrays in a record

A record with a one-byte count and, further on, items of one size. The record
has places for so many items, and its reader goes through as many as the count
says. Which of them a shorter source has brought along depends on three numbers
that are independent of each other: the count, the places and the length of the
source.
-/

namespace PtzAgx.Counted

open Bytes

/-- Where the count and the first item are, how large an item is, and how many
    places there are. -/
structure Layout where
  count : Nat
  first : Nat
  size : Nat
  places : Nat
  deriving Repr, DecidableEq

namespace Layout

variable (l : Layout)

/-- What the record takes. -/
def extent : Nat := l.first + l.places * l.size

def num (record : Ptr UInt8) : Nat := (record l.count).toNat

def item (record : Ptr UInt8) (i : Nat) : Ptr UInt8 := record.advance (l.first + i * l.size)

/-- A source of this length brings along `num` items, for which there are places. -/
def Fits (num len : Nat) : Prop := num = 0 ∨ (num ≤ l.places ∧ l.first + num * l.size ≤ len)

instance (num len : Nat) : Decidable (l.Fits num len) := inferInstanceAs (Decidable (_ ∨ _))

/-- Every item that is read has a place and comes, as a whole, from a source of
    this length. -/
def Backed (record source : Ptr UInt8) (len : Nat) : Prop :=
  ∀ i < l.num record, i < l.places ∧ l.first + i * l.size + l.size ≤ len ∧
    (l.item record i).read l.size = (l.item source i).read l.size

variable {l} {record record' source : Ptr UInt8} {num len i : Nat}

theorem fits_iff :
    l.Fits num len ↔ ∀ i < num, i < l.places ∧ l.first + i * l.size + l.size ≤ len := by
  constructor
  · rintro (none | ⟨places, long⟩) i small
    · omega
    · have upTo := Nat.mul_le_mul_right l.size (Nat.succ_le_of_lt small)
      rw [Nat.succ_mul] at upTo
      exact ⟨by omega, by omega⟩
  · intro each
    cases num with
    | zero => exact .inl rfl
    | succ last =>
        obtain ⟨places, long⟩ := each last (Nat.lt_succ_self last)
        refine .inr ⟨places, ?_⟩
        rw [Nat.succ_mul]
        omega

theorem item_end_le (place : i < l.places) : l.first + i * l.size + l.size ≤ l.extent := by
  have upTo := Nat.mul_le_mul_right l.size (Nat.succ_le_of_lt place)
  rw [Nat.succ_mul] at upTo
  unfold extent
  omega

theorem item_congr (same : ∀ j, l.first + i * l.size ≤ j → j < l.first + i * l.size + l.size →
    record j = record' j) :
    (l.item record i).read l.size = (l.item record' i).read l.size := by
  apply Ptr.read_congr
  intro j inside
  exact same _ (by omega) (by omega)

/-- A record that has been copied from the source holds the source's items
    exactly when the count in it fits. -/
theorem backed_iff (copied : ∀ j < len, j < l.extent → record j = source j) :
    l.Backed record source len ↔ l.Fits (l.num record) len := by
  rw [fits_iff]
  constructor
  · intro backed i small
    obtain ⟨place, inside, -⟩ := backed i small
    exact ⟨place, inside⟩
  · intro fits i small
    obtain ⟨place, inside⟩ := fits i small
    have ends := item_end_le (l := l) place
    exact ⟨place, inside, item_congr fun j _ before => copied j (by omega) (by omega)⟩

/-! ## Readers of memory that ends -/

section Readers

variable {α γ : Type} {f : List UInt8 → Option α} {memory : List UInt8} {xs : List α}

variable (l) in
/-- The items one after the other, each read by `f` in the memory from its first byte on. -/
def readItems (f : List UInt8 → Option α) (memory : List UInt8) : Option (List α) :=
  (memory[l.count]?).bind fun num =>
    (List.range num.toNat).mapM fun i => f (memory.drop (l.first + i * l.size))

theorem readItems_isSome {num : UInt8} (counted : memory[l.count]? = some num)
    (each : ∀ i < num.toNat, (f (memory.drop (l.first + i * l.size))).isSome) :
    (l.readItems f memory).isSome := by
  rw [readItems, counted, Option.bind_some]
  exact Object.mapM_isSome fun i member => each i (List.mem_range.mp member)

theorem ofList_drop (memory : List UInt8) (n : Nat) :
    Ptr.ofList (memory.drop n) = (Ptr.ofList memory).advance n := by
  funext i
  simp [Ptr.ofList, List.getD_eq_getElem?_getD]

/-- What a reader makes of items that are backed, but for what `h` forgets, is made of the
    source's. -/
theorem readItems_backed {h : α → γ} {g : Ptr UInt8 → γ} (ran : l.readItems f memory = some xs)
    (backed : l.Backed (Ptr.ofList memory) source len)
    (within : ∀ memory x p, f memory = some x → p.read l.size = (Ptr.ofList memory).read l.size →
      h x = g p) :
    xs.map h = (List.range xs.length).map fun i => g (l.item source i) := by
  obtain ⟨n, counted, ran⟩ := Option.bind_eq_some_iff.mp ran
  have same : n.toNat = l.num (Ptr.ofList memory) := by
    obtain ⟨inside, rfl⟩ := List.getElem?_eq_some_iff.mp counted
    rw [num, Ptr.ofList_apply inside]
  have made := Object.map_of_mapM (h := h)
    (g := fun i => g (l.item source i)) ran fun i member x found => by
    refine within _ x _ found ?_
    rw [ofList_drop]
    exact (backed i (same ▸ List.mem_range.mp member)).2.2.symm
  have length : xs.length = n.toNat := by simpa using congrArg List.length made
  rw [made, length]

end Readers

end Layout

end PtzAgx.Counted
