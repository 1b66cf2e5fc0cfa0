import Mathlib.Algebra.Order.BigOperators.Group.Finset
import Mathlib.Data.List.Nodup
import Mathlib.Data.List.Perm.Subperm
import Mathlib.Order.Defs.LinearOrder

/-! # Lists whose items have keys

Joining a list with the new items of another one, and a map from the keys as a list
that is sorted by them.
-/

namespace PtzAgx

variable {α κ : Type} {key : α → κ} {s t : α} {l items : List α} {k : κ}

/-! ## Joining -/

section Join

variable [DecidableEq κ]

def appendNew (key : α → κ) (l : List α) (t : α) : List α :=
  if key t ∈ l.map key then l else l ++ [t]

def joinNew (key : α → κ) (l items : List α) : List α := items.foldl (appendNew key) l

theorem mem_appendNew (member : s ∈ appendNew key l t) : s ∈ l ∨ s = t := by
  unfold appendNew at member
  split at member
  · exact .inl member
  · rwa [List.mem_append, List.mem_singleton] at member

theorem appendNew_keys : k ∈ (appendNew key l t).map key ↔ k ∈ l.map key ∨ k = key t := by
  unfold appendNew
  split
  · rename_i known
    refine ⟨.inl, ?_⟩
    rintro (had | rfl)
    · exact had
    · exact known
  · rw [List.map_append, List.mem_append, List.map_singleton, List.mem_singleton]

theorem appendNew_nodup (nodup : (l.map key).Nodup) : ((appendNew key l t).map key).Nodup := by
  unfold appendNew
  split
  · exact nodup
  · rename_i unknown
    rw [List.map_append, List.map_singleton]
    refine List.nodup_append.mpr ⟨nodup, List.nodup_singleton _, ?_⟩
    intro k member other same rfl
    exact unknown (List.mem_singleton.mp same ▸ member)

theorem mem_joinNew (member : s ∈ joinNew key l items) : s ∈ l ∨ s ∈ items := by
  induction items generalizing l with
  | nil => exact .inl member
  | cons t items ih =>
      obtain before | later := ih member
      · obtain old | rfl := mem_appendNew before
        · exact .inl old
        · exact .inr List.mem_cons_self
      · exact .inr (List.mem_cons_of_mem t later)

theorem mem_joinNew_of_mem (member : s ∈ l) : s ∈ joinNew key l items := by
  induction items generalizing l with
  | nil => exact member
  | cons t items ih =>
      refine ih ?_
      unfold appendNew
      split
      · exact member
      · exact List.mem_append_left _ member

theorem joinNew_keys : k ∈ (joinNew key l items).map key ↔ k ∈ l.map key ∨ k ∈ items.map key := by
  induction items generalizing l with
  | nil => simp [joinNew]
  | cons t items ih =>
      rw [joinNew, List.foldl_cons, ← joinNew, ih, appendNew_keys, List.map_cons,
        List.mem_cons, or_assoc]

theorem joinNew_nodup (nodup : (l.map key).Nodup) : ((joinNew key l items).map key).Nodup := by
  induction items generalizing l with
  | nil => exact nodup
  | cons t items ih => exact ih (appendNew_nodup nodup)

end Join

/-! ## Maps -/

section Map

variable [LinearOrder κ]

/-- What is there under the key stays. -/
def insertKeyed (key : α → κ) (t : α) : List α → List α
  | [] => [t]
  | s :: rest =>
      if key t < key s then t :: s :: rest
      else if key t = key s then s :: rest
      else s :: insertKeyed key t rest

theorem mem_insertKeyed (member : s ∈ insertKeyed key t l) : s = t ∨ s ∈ l := by
  induction l with
  | nil => exact .inl (List.mem_singleton.mp member)
  | cons u rest ih =>
      unfold insertKeyed at member
      split at member
      · exact List.mem_cons.mp member
      · split at member
        · exact .inr member
        · obtain rfl | later := List.mem_cons.mp member
          · exact .inr List.mem_cons_self
          · exact (ih later).imp_right (List.mem_cons_of_mem u)

theorem insertKeyed_keys : k ∈ (insertKeyed key t l).map key ↔ k = key t ∨ k ∈ l.map key := by
  induction l with
  | nil => simp [insertKeyed]
  | cons u rest ih =>
      unfold insertKeyed
      split
      · rw [List.map_cons, List.mem_cons]
      · split
        · rename_i same
          rw [List.map_cons, List.mem_cons, same]
          exact ⟨.inr, fun either => either.elim .inl id⟩
        · rw [List.map_cons, List.mem_cons, ih, List.map_cons, List.mem_cons]
          exact or_left_comm

theorem insertKeyed_sorted (sorted : (l.map key).Pairwise (· < ·)) :
    ((insertKeyed key t l).map key).Pairwise (· < ·) := by
  induction l with
  | nil => exact List.pairwise_singleton _ _
  | cons u rest ih =>
      have above : ∀ k ∈ rest.map key, key u < k := (List.pairwise_cons.mp sorted).1
      unfold insertKeyed
      split
      · rename_i less
        refine List.pairwise_cons.mpr ⟨fun k member => ?_, sorted⟩
        obtain rfl | later := List.mem_cons.mp member
        · exact less
        · exact lt_trans less (above k later)
      · split
        · exact sorted
        · rename_i not_less other
          refine List.pairwise_cons.mpr ⟨fun k member => ?_, ih sorted.of_cons⟩
          obtain rfl | later := insertKeyed_keys.mp member
          · exact lt_of_le_of_ne (not_lt.mp not_less) (Ne.symm other)
          · exact above k later

/-- The map that has been filled with a list. -/
def keyedMap (key : α → κ) (l : List α) : List α :=
  l.foldl (fun found t => insertKeyed key t found) []

theorem foldl_insertKeyed {found : List α} (sorted : (found.map key).Pairwise (· < ·)) :
    let filled := items.foldl (fun found t => insertKeyed key t found) found
    (filled.map key).Pairwise (· < ·) ∧ (∀ s ∈ filled, s ∈ found ∨ s ∈ items) ∧
      ∀ k, k ∈ filled.map key ↔ k ∈ found.map key ∨ k ∈ items.map key := by
  induction items generalizing found with
  | nil => exact ⟨sorted, fun s => .inl, fun k => by simp⟩
  | cons t items ih =>
      obtain ⟨kept, members, keys⟩ := ih (insertKeyed_sorted (t := t) sorted)
      refine ⟨kept, fun s member => ?_, fun k => ?_⟩
      · obtain before | later := members s member
        · obtain rfl | old := mem_insertKeyed before
          · exact .inr List.mem_cons_self
          · exact .inl old
        · exact .inr (List.mem_cons_of_mem t later)
      · rw [List.foldl_cons, keys, insertKeyed_keys, List.map_cons, List.mem_cons,
          or_left_comm, or_assoc]

theorem mem_keyedMap (member : s ∈ keyedMap key l) : s ∈ l :=
  ((foldl_insertKeyed .nil).2.1 s member).resolve_left List.not_mem_nil

theorem keyedMap_nodup : ((keyedMap key l).map key).Nodup :=
  (foldl_insertKeyed .nil).1.imp fun less => ne_of_lt less

/-- The items whose keys are in no other list. -/
def eraseKeys (key : α → κ) (l items : List α) : List α :=
  items.foldl (fun left t => left.filter fun s => key s ≠ key t) l

theorem mem_eraseKeys : s ∈ eraseKeys key l items ↔ s ∈ l ∧ key s ∉ items.map key := by
  induction items generalizing l with
  | nil => simp [eraseKeys]
  | cons t items ih =>
      rw [eraseKeys, List.foldl_cons, ← eraseKeys, ih, List.mem_filter, decide_eq_true_iff,
        List.map_cons, List.mem_cons, not_or, and_assoc]

theorem eraseKeys_sublist : (eraseKeys key l items).Sublist l := by
  induction items generalizing l with
  | nil => exact List.Sublist.refl l
  | cons t items ih => exact ih.trans List.filter_sublist

end Map

/-! ## Counting -/

section Counting

theorem length_le_of_keys {β : Type} (f : β → κ) (others : List β) (nodup : (l.map key).Nodup)
    (known : ∀ s ∈ l, key s ∈ others.map f) : l.length ≤ others.length := by
  have subset : l.map key ⊆ others.map f := by
    intro k member
    obtain ⟨s, found, rfl⟩ := List.mem_map.mp member
    exact known s found
  have le := (nodup.subperm subset).length_le
  rwa [List.length_map, List.length_map] at le

/-- Few items for each key, and few keys. -/
theorem length_le_of_classes [DecidableEq κ] (keys : Finset κ) (bound : Nat)
    (inside : ∀ s ∈ l, key s ∈ keys)
    (few : ∀ k, (l.filter fun s => key s = k).length ≤ bound) : l.length ≤ keys.card * bound := by
  have each (k : κ) : (l.map key).count k ≤ bound := by
    rw [List.count_eq_countP, List.countP_map, List.countP_eq_length_filter]
    exact few k
  have subset : (l.map key).toFinset ⊆ keys := by
    intro k member
    obtain ⟨s, found, rfl⟩ := List.mem_map.mp (List.mem_toFinset.mp member)
    exact inside s found
  calc l.length = ∑ k ∈ (l.map key).toFinset, (l.map key).count k := by
        rw [List.sum_toFinset_count_eq_length, List.length_map]
    _ ≤ (l.map key).toFinset.card * bound := Finset.sum_le_card_nsmul _ _ _ fun k _ => each k
    _ ≤ keys.card * bound := Nat.mul_le_mul_right bound (Finset.card_le_card subset)

end Counting

end PtzAgx
