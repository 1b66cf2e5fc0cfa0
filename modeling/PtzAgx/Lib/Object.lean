import Mathlib.Algebra.GroupWithZero.Nat
import Mathlib.Data.List.Basic
import Mathlib.Tactic.Common

/-! # Objects with bounds

An object is the list of its cells. An access has a result only when it lies
inside the object, at whatever signed place it asks for, so a computation of
type `Option` that returns has made no access outside.
-/

namespace PtzAgx.Object

variable {β σ : Type}

/-- The `n` cells from place `i` on. -/
def slice (o : List β) (i : Int) (n : Nat) : Option (List β) :=
  if 0 ≤ i ∧ i + n ≤ o.length then some ((o.drop i.toNat).take n) else none

/-- The object after the cells from place `i` on have been overwritten. -/
def write (o : List β) (i : Nat) (cells : List β) : Option (List β) :=
  if i + cells.length ≤ o.length then some (o.take i ++ cells ++ o.drop (i + cells.length))
    else none

/-- The loop over `n` cells from `i` on. It ends without a result at the first
    cell that is not there. -/
def foldFrom (f : σ → β → σ) (o : List β) : (n i : Nat) → σ → Option σ
  | 0, _, s => some s
  | n + 1, i, s =>
      match o[i]? with
      | none => none
      | some b => foldFrom f o n (i + 1) (f s b)

section Slice

variable {o : List β} {i : Int} {n : Nat}

theorem slice_inside {i : Nat} (inside : i + n ≤ o.length) :
    slice o i n = some ((o.drop i).take n) := by
  have fits : (i : Int) + n ≤ o.length := by omega
  simp only [slice, Int.natCast_nonneg, fits, and_self, if_true, Int.toNat_natCast]

theorem slice_bind {α : Type} {i : Nat} (inside : i + n ≤ o.length) (f : List β → Option α) :
    (slice o i n >>= f) = f ((o.drop i).take n) := by
  rw [slice_inside inside]
  rfl

theorem slice_outside (outside : i < 0 ∨ (o.length : Int) < i + n) : slice o i n = none := by
  unfold slice
  rw [if_neg (by omega)]

theorem length_slice {cells : List β} (copied : slice o i n = some cells) : cells.length = n := by
  unfold slice at copied
  split at copied
  · obtain rfl := Option.some.inj copied
    rw [List.length_take, List.length_drop]
    omega
  · cases copied

theorem slice_append {cells : List β} (copied : slice o i n = some cells) (rest : List β) :
    slice (o ++ rest) i n = some cells := by
  unfold slice at copied
  split at copied
  · rename_i inside
    obtain rfl := Option.some.inj copied
    have larger : 0 ≤ i ∧ i + n ≤ (o ++ rest).length := by
      rw [List.length_append]
      omega
    rw [slice, if_pos larger, List.drop_append_of_le_length (by omega),
      List.take_append_of_le_length (by rw [List.length_drop]; omega)]
  · cases copied

end Slice

theorem write_cell {o : List β} {i : Nat} (here : i < o.length) (cell : β) :
    write o i [cell] = some (o.set i cell) := by
  rw [write, List.length_singleton, if_pos (Nat.succ_le_of_lt here),
    List.set_eq_take_append_cons_drop, if_pos here, List.append_assoc, List.singleton_append]

theorem write_whole {o cells : List β} (same : cells.length = o.length) :
    write o 0 cells = some cells := by
  rw [write, if_pos (by omega), List.take_zero, List.nil_append, List.drop_of_length_le (by omega),
    List.append_nil]

theorem write_some {o o' cells : List β} {i : Nat} (written : write o i cells = some o') :
    i + cells.length ≤ o.length ∧ o'.length = o.length := by
  unfold write at written
  split at written
  · rename_i inside
    obtain rfl := Option.some.inj written
    refine ⟨inside, ?_⟩
    rw [List.length_append, List.length_append, List.length_take_of_le (by omega), List.length_drop]
    omega
  · cases written

/-! ## Filling an object from the front -/

/-- The object with `front` written over its beginning. -/
def overlay (o front : List β) : List β := front ++ o.drop front.length

section Overlay

variable {o front cells : List β} {i : Nat}

theorem length_overlay (fits : front.length ≤ o.length) : (overlay o front).length = o.length := by
  rw [overlay, List.length_append, List.length_drop, Nat.add_sub_cancel' fits]

theorem take_overlay (o front : List β) : (overlay o front).take front.length = front :=
  List.take_left

theorem write_overlay (here : i = front.length) (fits : i + cells.length ≤ o.length) :
    write (overlay o front) i cells = some (overlay o (front ++ cells)) := by
  subst here
  have inside : front.length + cells.length ≤ (overlay o front).length := by
    rwa [length_overlay (by omega)]
  have behind : (overlay o front).drop (front.length + cells.length) = o.drop
      (front.length + cells.length) := by
    rw [overlay, ← List.drop_drop, List.drop_left, List.drop_drop]
  rw [write, if_pos inside, take_overlay, behind, overlay, List.length_append]

theorem write_bind {α : Type} (here : i = front.length) (fits : i + cells.length ≤ o.length)
    (f : List β → Option α) :
    (write (overlay o front) i cells >>= f) = f (overlay o (front ++ cells)) := by
  rw [write_overlay here fits]
  rfl

theorem write_front (fits : cells.length ≤ o.length) : write o 0 cells = some (overlay o cells) :=
  @write_overlay β o [] cells 0 rfl (by omega)

theorem overlay_kept (o front : List β) (n : Nat) :
    overlay o (front ++ (o.drop front.length).take n) = overlay o front := by
  have kept := List.take_append_drop n (o.drop front.length)
  by_cases enough : n ≤ (o.drop front.length).length
  · have length : (front ++ (o.drop front.length).take n).length = front.length + n := by
      rw [List.length_append, List.length_take_of_le enough]
    rw [overlay, length, ← List.drop_drop, List.append_assoc, kept, overlay]
  · have whole : (o.drop front.length).take n = o.drop front.length :=
      List.take_of_length_le (by omega)
    have nothing : o.drop (front ++ o.drop front.length).length = [] := by
      apply List.drop_of_length_le
      rw [List.length_append, List.length_drop]
      omega
    rw [whole, overlay, nothing, List.append_nil, overlay]

/-- What lies behind a place is written over by what comes after as much. -/
theorem drop_overlay (o front : List β) (n : Nat) :
    (overlay o front).drop n = overlay (o.drop n) (front.drop n) := by
  rw [overlay, overlay, List.drop_append, List.drop_drop, List.drop_drop, List.length_drop]
  congr 2
  omega

theorem take_overlay_eq_iff (n : Nat) (fits : front.length ≤ o.length) :
    (overlay o front).take n = o.take n ↔ front.take n = (o.take n).take front.length := by
  by_cases short : front.length ≤ n
  · obtain ⟨m, rfl⟩ := Nat.exists_eq_add_of_le short
    have prefixes : (o.take (front.length + m)).take front.length = o.take front.length := by
      rw [List.take_take, Nat.min_eq_left short]
    have lengths : (o.take front.length).length = front.length := List.length_take_of_le fits
    have parts : o.take (front.length + m) = o.take front.length ++ (o.drop front.length).take m :=
      List.take_add
    rw [prefixes, List.take_of_length_le short, overlay, List.take_length_add_append, parts]
    constructor
    · exact fun same => (List.append_inj same lengths.symm).1
    · exact fun same => congrArg (· ++ (o.drop front.length).take m) same
  · have within : n ≤ front.length := by omega
    have whole : (o.take n).take front.length = o.take n := by
      rw [List.take_take, Nat.min_eq_right within]
    rw [whole, overlay, List.take_append_of_le_length within]

theorem overlay_whole (all : o.length ≤ front.length) : overlay o front = front := by
  rw [overlay, List.drop_of_length_le all, List.append_nil]

end Overlay

section Fold

variable (f : σ → β → σ) {o : List β} {n i : Nat} (s : σ)

theorem foldFrom_inside (inside : i + n ≤ o.length) :
    foldFrom f o n i s = some (((o.drop i).take n).foldl f s) := by
  induction n generalizing i s with
  | zero => rfl
  | succ n ih =>
      have here : i < o.length := by omega
      rw [foldFrom, List.getElem?_eq_getElem here, List.drop_eq_getElem_cons here,
        List.take_succ_cons, List.foldl_cons]
      exact ih _ (by omega)

end Fold

/-! ## Records -/

/-- Fields of these widths, one behind the other. -/
def fields (o : List β) : (i : Nat) → (widths : List Nat) → Option (List (List β))
  | _, [] => some []
  | i, n :: widths =>
    (slice o i n).bind fun field => (fields o (i + n) widths).map fun rest => field :: rest

/-- `n` records of one kind, one behind the other. -/
def records (o : List β) (widths : List Nat) : (n i : Nat) → Option (List (List (List β)))
  | 0, _ => some []
  | n + 1, i =>
    (fields o i widths).bind fun record => (records o widths n (i + widths.sum)).map fun rest =>
      record :: rest

section Records

variable {o : List β} {i n : Nat} {widths : List Nat}

theorem slice_isSome_iff : (slice o i n).isSome ↔ i + n ≤ o.length := by
  by_cases inside : i + n ≤ o.length
  · rw [slice_inside inside]
    exact iff_of_true rfl inside
  · rw [slice_outside (by omega)]
    exact iff_of_false Bool.noConfusion inside

theorem isSome_bind_map {α γ δ : Type} (x : Option α) (y : Option γ) (f : α → γ → δ) :
    (x.bind fun a => y.map (f a)).isSome ↔ x.isSome ∧ y.isSome := by
  cases x <;> cases y <;> simp

theorem fields_isSome_iff :
    (fields o i widths).isSome ↔ widths = [] ∨ i + widths.sum ≤ o.length := by
  induction widths generalizing i with
  | nil => exact iff_of_true rfl (.inl rfl)
  | cons n widths ih =>
      rw [fields, isSome_bind_map, ih, slice_isSome_iff, List.sum_cons]
      cases widths with
      | nil => simp
      | cons m widths =>
          simp only [reduceCtorEq, false_or]
          omega

theorem records_isSome_iff (some_fields : widths ≠ []) :
    (records o widths n i).isSome ↔ n = 0 ∨ i + n * widths.sum ≤ o.length := by
  induction n generalizing i with
  | zero => exact iff_of_true rfl (.inl rfl)
  | succ n ih =>
      rw [records, isSome_bind_map, ih, fields_isSome_iff, Nat.succ_mul]
      simp only [some_fields, false_or, Nat.succ_ne_zero]
      cases n with
      | zero => simp
      | succ n =>
          simp only [Nat.succ_ne_zero, false_or]
          omega

end Records

/-! ## Reading one after the other -/

section Loops

variable {ι α γ : Type} {f : ι → Option α} {ids : List ι} {xs : List α} {x : α}

theorem mapM_isSome (each : ∀ a ∈ ids, (f a).isSome) : (ids.mapM f).isSome := by
  induction ids with
  | nil => rfl
  | cons a ids ih =>
      obtain ⟨x, first⟩ := Option.isSome_iff_exists.mp (each a (by simp))
      obtain ⟨xs, rest⟩ :=
        Option.isSome_iff_exists.mp (ih fun b member => each b (by simp [member]))
      simp [first, rest]

theorem mapM_cons_eq_some_iff {a : ι} : (a :: ids).mapM f = some xs ↔
    ∃ x, f a = some x ∧ ∃ rest, ids.mapM f = some rest ∧ x :: rest = xs := by
  simp only [List.mapM_cons, Option.bind_eq_bind, Option.bind_eq_some_iff, Option.pure_def,
    Option.some.injEq]

theorem map_of_mapM {h : α → γ} {g : ι → γ} (ran : ids.mapM f = some xs)
    (each : ∀ a ∈ ids, ∀ x, f a = some x → h x = g a) : xs.map h = ids.map g := by
  induction ids generalizing xs with
  | nil =>
      cases ran
      rfl
  | cons a ids ih =>
      obtain ⟨x, first, rest, later, rfl⟩ := mapM_cons_eq_some_iff.mp ran
      rw [List.map_cons, List.map_cons, each a (by simp) x first,
        ih later fun b member => each b (by simp [member])]

theorem mem_of_mapM (ran : ids.mapM f = some xs) (member : x ∈ xs) : ∃ a ∈ ids, f a = some x := by
  induction ids generalizing xs with
  | nil =>
      cases ran
      cases member
  | cons a ids ih =>
      obtain ⟨y, first, rest, later, rfl⟩ := mapM_cons_eq_some_iff.mp ran
      rcases List.mem_cons.mp member with rfl | member
      · exact ⟨a, by simp, first⟩
      · obtain ⟨b, member', found⟩ := ih later member
        exact ⟨b, by simp [member'], found⟩

end Loops

end PtzAgx.Object
