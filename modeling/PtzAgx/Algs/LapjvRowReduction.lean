import Mathlib.Algebra.Order.Ring.Nat
import PtzAgx.Algs.LapjvReduction

/-! # Augmenting row reduction

Each free row takes the column of its least reduced cost, or that of its second
least. What is kept is the same as in the reductions before; that it ends is due to
the count of the rounds, with which no row is put in front any more.
-/

namespace PtzAgx.Algs

/-! ## Where a row goes -/

section Rows

variable {K : Type} {n : Nat} {freeI i0 : Fin n} {taken : Taken n K}

theorem carrRow_none (s : Carr n K) (had : taken.i0 = none) :
    carrRow freeI taken s =
      { s with
        lap :=
          { s.lap with
            x := Function.update s.lap.x freeI (some taken.j1)
            y := Function.update s.lap.y taken.j1 (some freeI)
            v := taken.v } } := by
  rw [carrRow, had]

/-- A row that loses its column comes next, or stays free. -/
theorem carrRow_some (s : Carr n K) (had : taken.i0 = some i0) :
    carrRow freeI taken s =
      { s with
        current := if taken.next then s.current - 1 else s.current
        newFreeRows := if taken.next then s.newFreeRows else s.newFreeRows + 1
        lap :=
          { freeRows := s.lap.freeRows.set (if taken.next then s.current - 1 else s.newFreeRows) i0
            x := Function.update s.lap.x freeI (some taken.j1)
            y := Function.update s.lap.y taken.j1 (some freeI)
            v := taken.v } } := by
  unfold carrRow
  rw [had]
  cases taken.next <;> rfl

end Rows

variable {K : Type} [Field K] [LinearOrder K] {n : Nat} {cost : Fin n → Fin n → K}

/-! ## The two least reduced costs -/

/-- They are the least ones of the columns seen. -/
structure RowMins.Of (r : Fin n → K) (seen : List (Fin n)) (mins : RowMins n K) : Prop where
  first : r mins.j1 = mins.v1
  least : ∀ k ∈ seen, mins.v1 ≤ r k
  second : ∀ k ∈ seen, k ≠ mins.j1 → mins.v2 ≤ r k
  ordered : mins.v1 ≤ mins.v2
  other : ∀ {k}, mins.j2 = some k → r k = mins.v2

theorem RowMins.Of.step {v : Fin n → K} {freeI : Fin n} {seen : List (Fin n)} {mins : RowMins n K}
    (of : mins.Of (fun k => cost freeI k - v k) seen) (j : Fin n) :
    (rowMinsStep cost v freeI mins j).Of (fun k => cost freeI k - v k) (j :: seen) := by
  have ordered := of.ordered
  unfold rowMinsStep
  dsimp only
  split
  · rename_i less
    split
    · -- Between the two.
      rename_i between
      refine ⟨of.first, List.forall_mem_cons.mpr ⟨between, of.least⟩, List.forall_mem_cons.mpr
        ⟨fun _ => le_rfl, ?_⟩, between, ?_⟩
      · intro k member other
        exact (le_of_lt less).trans (of.second k member other)
      · rintro k ⟨⟩
        rfl
    · -- Less than both.
      rename_i below
      have below := lt_of_not_ge below
      refine ⟨rfl, List.forall_mem_cons.mpr ⟨le_rfl, ?_⟩, List.forall_mem_cons.mpr
        ⟨fun other => absurd rfl other, ?_⟩, le_of_lt below, ?_⟩
      · intro k member
        exact (le_of_lt below).trans (of.least k member)
      · intro k member _
        exact of.least k member
      · rintro k ⟨⟩
        exact of.first
  · rename_i above
    have above := le_of_not_gt above
    exact ⟨of.first, List.forall_mem_cons.mpr ⟨ordered.trans above, of.least⟩,
      List.forall_mem_cons.mpr ⟨fun _ => above, of.second⟩, ordered, of.other⟩

theorem RowMins.Of.fold {v : Fin n → K} {freeI : Fin n} (columns : List (Fin n))
    {seen : List (Fin n)}
    {mins : RowMins n K} (of : mins.Of (fun k => cost freeI k - v k) seen) :
    (columns.foldl (rowMinsStep cost v freeI) mins).Of (fun k => cost freeI k - v k)
      (columns.reverse ++ seen) := by
  induction columns generalizing seen mins with
  | nil => exact of
  | cons j columns ih =>
      rw [List.reverse_cons, List.append_assoc]
      exact ih (of.step j)

theorem rowMins_of [NeZero n] {v : Fin n → K} {freeI : Fin n} (start : cost freeI 0 - v 0 ≤ large) :
    (rowMins cost v freeI).Of (fun k => cost freeI k - v k) (List.finRange n) := by
  have one : RowMins.Of (fun k => cost freeI k - v k) [0] ⟨0, cost freeI 0 - v 0, none, large⟩ := by
    refine ⟨rfl, ?_, ?_, start, ?_⟩
    · intro k member
      rw [List.mem_singleton.mp member]
    · intro k member other
      exact absurd (List.mem_singleton.mp member) other
    · intro k given
      cases given
  have all := one.fold (List.finRange n).tail
  have every (k : Fin n) : k ∈ (List.finRange n).tail.reverse ++ [0] := by
    obtain ⟨m, rfl⟩ := Nat.exists_eq_succ_of_ne_zero (NeZero.ne n)
    have listed := List.mem_finRange k
    rw [List.finRange_succ, List.mem_cons] at listed
    rw [List.mem_append, List.mem_reverse, List.mem_singleton, List.finRange_succ, List.tail_cons]
    exact listed.symm
  exact ⟨all.first, fun k _ => all.least k (every k), fun k _ => all.second k (every k),
    all.ordered, all.other⟩

/-! ## What a row takes -/

/-- The column is the row's cheapest, at prices of which only its own has fallen. -/
structure Taken.Fits (cost : Fin n → Fin n → K) (freeI : Fin n) (lap : Lap n K)
    (taken : Taken n K) : Prop where
  had : taken.i0 = lap.y taken.j1
  fall : ∀ k, taken.v k ≤ lap.v k
  same : ∀ k, k ≠ taken.j1 → taken.v k = lap.v k
  cheapest : Cheapest cost taken.v freeI taken.j1
  all : (∃ k, k ≠ taken.j1 ∧ lap.y k = none) → ∀ i j, cost i j - taken.v j ≤ large

/-- Nothing changes its price, and the column's reduced cost is the least. -/
theorem fits_least {lap : Lap n K} {freeI j : Fin n} {next : Bool}
    (within : WithinLarge cost lap.y lap.v)
    (cheapest : Cheapest cost lap.v freeI j) :
    Taken.Fits cost freeI lap ⟨j, lap.y j, lap.v, next⟩ where
  had := rfl
  fall _ := le_rfl
  same _ _ := rfl
  cheapest := cheapest
  all := fun ⟨k, _, nobody⟩ => within.all ⟨k, nobody⟩

/-- A row is put in front only while the rounds are few. -/
theorem carrTaken_next {s : Carr n K} {mins : RowMins n K} (next : (carrTaken s mins).next = true) :
    s.rrCnt < s.current * n % 2 ^ 32 := by
  by_contra many
  unfold carrTaken at next
  dsimp only at next
  rw [if_neg many] at next
  cases next

section Taken

variable [IsStrictOrderedRing K]

theorem carrTaken_fits [NeZero n] {s : Carr n K} {freeI : Fin n} (moderate : Moderate cost)
    (within : WithinLarge cost s.lap.y s.lap.v) {mins : RowMins n K}
    (of : mins.Of (fun k => cost freeI k - s.lap.v k) (List.finRange n)) :
    (carrTaken s mins).Fits cost freeI s.lap := by
  have first : cost freeI mins.j1 - s.lap.v mins.j1 = mins.v1 := of.first
  have ordered := of.ordered
  have least : Cheapest cost s.lap.v freeI mins.j1 := by
    intro k
    rw [first]
    exact of.least k (List.mem_finRange k)
  unfold carrTaken
  dsimp only
  split
  · split
    · -- The price of the column falls to where it costs as much as the second one.
      rename_i lowers
      have new : s.lap.v mins.j1 - (mins.v2 - mins.v1) = cost freeI mins.j1 - mins.v2 := by linarith
      constructor
      case had => rfl
      case fall =>
        intro k
        dsimp only
        by_cases here : k = mins.j1
        · rw [here, Function.update_self]
          exact le_of_lt lowers
        · rw [Function.update_of_ne here]
      case same => exact fun k other => Function.update_of_ne other _ _
      case cheapest =>
        intro k
        dsimp only
        rw [Function.update_self, new]
        by_cases here : k = mins.j1
        · rw [here, Function.update_self]
        · have second := of.second k (List.mem_finRange k) here
          rw [Function.update_of_ne here]
          linarith
      case all =>
        rintro ⟨k, other, nobody⟩ i j
        dsimp only at other ⊢
        by_cases here : j = mins.j1
        · have second := of.second k (List.mem_finRange k) other
          have unused := within.unused nobody freeI
          have spread := moderate.spread i mins.j1 freeI mins.j1
          rw [here, Function.update_self, new]
          linarith
        · rw [Function.update_of_ne here]
          exact within.all ⟨k, nobody⟩ i j
    · -- Both cost the same, so the row may have the other one.
      rename_i same
      have equal : mins.v2 = mins.v1 := by
        have above := le_of_not_gt same
        linarith
      split
      · rename_i j2 _ second
        refine fits_least within fun k => ?_
        have reduced : cost freeI j2 - s.lap.v j2 = mins.v2 := of.other second
        have le := of.least k (List.mem_finRange k)
        rw [reduced, equal]
        exact le
      · exact fits_least within least
  · exact fits_least within least

end Taken

/-! ## The rounds -/

/-- What a round starts with. The rows to come and those that stay free are the free
    ones; behind the last count there is no way back. -/
structure Carr.Holds (cost : Fin n → Fin n → K) (nFreeRows : Nat) (s : Carr n K) : Prop where
  assigns : Assigns cost s.lap.v s.lap.x s.lap.y
  within : WithinLarge cost s.lap.y s.lap.v
  length : s.lap.freeRows.length = nFreeRows
  behind : s.newFreeRows ≤ s.current
  inside : s.current ≤ nFreeRows
  free : FreeList s.lap.y (s.lap.freeRows.drop s.current ++ s.lap.freeRows.take s.newFreeRows)
  count : s.rrCnt ≤ nFreeRows * n + s.current

/-- How many rounds are left at most. -/
def Carr.left (nFreeRows : Nat) (s : Carr n K) : Nat :=
  nFreeRows * n - s.rrCnt + (nFreeRows - s.current)

/-- Counted, but with the row still to be given its column. -/
structure Carr.Begun (cost : Fin n → Fin n → K) (nFreeRows : Nat) (freeI : Fin n) (s : Carr n K) :
    Prop where
  assigns : Assigns cost s.lap.v s.lap.x s.lap.y
  within : WithinLarge cost s.lap.y s.lap.v
  length : s.lap.freeRows.length = nFreeRows
  positive : 0 < s.current
  behind : s.newFreeRows < s.current
  inside : s.current ≤ nFreeRows
  free :
    FreeList s.lap.y (freeI :: (s.lap.freeRows.drop s.current ++ s.lap.freeRows.take s.newFreeRows))
  count : s.rrCnt ≤ nFreeRows * n + s.current

/-- With the count that the rounds can have, it does not wrap. -/
theorem Carr.Holds.begin {nFreeRows : Nat} {s : Carr n K} (holds : s.Holds cost nFreeRows)
    (more : s.current < nFreeRows)
    (small : nFreeRows * n + nFreeRows < 2 ^ 32) :
    ∃ freeI, s.lap.freeRows[s.current]? = some freeI ∧
      Carr.Begun cost nFreeRows freeI { s with current := s.current + 1,
                                               rrCnt := (s.rrCnt + 1) % 2 ^ 32 } ∧
      (s.rrCnt + 1) % 2 ^ 32 = s.rrCnt + 1 := by
  have count := holds.count
  have behind := holds.behind
  have there : s.current < s.lap.freeRows.length := holds.length ▸ more
  have plain : (s.rrCnt + 1) % 2 ^ 32 = s.rrCnt + 1 := Nat.mod_eq_of_lt (by omega)
  have free := holds.free
  rw [List.drop_eq_getElem_cons there, List.cons_append] at free
  refine ⟨_, List.getElem?_eq_getElem there, ?_, plain⟩
  exact ⟨holds.assigns, holds.within, holds.length, Nat.succ_pos _, Nat.lt_succ_of_le behind,
    more, free, by simp only; omega⟩

section Rounds

variable [IsStrictOrderedRing K]

theorem Taken.Fits.lap {lap : Lap n K} {freeI : Fin n} {taken : Taken n K}
    (fits : taken.Fits cost freeI lap)
    (assigns : Assigns cost lap.v lap.x lap.y) (within : WithinLarge cost lap.y lap.v)
    (free : Free lap.y freeI) :
    Assigns cost taken.v (Function.update lap.x freeI (some taken.j1))
      (Function.update lap.y taken.j1 (some freeI)) ∧
      WithinLarge cost (Function.update lap.y taken.j1 (some freeI)) taken.v := by
  have unused {k : Fin n} (nobody : Function.update lap.y taken.j1 (some freeI) k = none) :
      k ≠ taken.j1 ∧ lap.y k = none := by
    have other : k ≠ taken.j1 := by
      rintro rfl
      rw [Function.update_self] at nobody
      cases nobody
    rw [Function.update_of_ne other] at nobody
    exact ⟨other, nobody⟩
  refine ⟨assigns.take free fits.fall fits.same fits.cheapest, ?_, ?_⟩
  · intro k nobody i
    obtain ⟨other, before⟩ := unused nobody
    rw [fits.same k other]
    exact within.unused before i
  · rintro ⟨k, nobody⟩
    exact fits.all ⟨k, unused nobody⟩

theorem Carr.Begun.carrRow {nFreeRows : Nat} {freeI : Fin n} {s : Carr n K}
    (begun : s.Begun cost nFreeRows freeI)
    {taken : Taken n K} (fits : taken.Fits cost freeI s.lap)
    (next : taken.next = true → s.rrCnt < s.current * n % 2 ^ 32) :
    let after := Algs.carrRow freeI taken s
    after.Holds cost nFreeRows ∧ after.left nFreeRows < nFreeRows * n + 1 - s.rrCnt +
    (nFreeRows + 1 - s.current) := by
  have positive := begun.positive
  have inside := begun.inside
  have behind := begun.behind
  have length := begun.length
  have count := begun.count
  have alone : Free s.lap.y freeI := (begun.free.free freeI).mp List.mem_cons_self
  obtain ⟨assigns, within⟩ := fits.lap begun.assigns begun.within alone
  have inj {r k l : Fin n} (first : s.lap.y k = some r) (second : s.lap.y l = some r) : k = l :=
    begun.assigns.inj first second
  cases had : taken.i0 with
  | none =>
      rw [carrRow_none s had]
      refine ⟨⟨assigns, within, length, le_of_lt behind, inside, ?_, count⟩, by
        simp only [Carr.left]; omega⟩
      exact begun.free.take_none inj (fits.had ▸ had)
  | some i0 =>
      have list := begun.free.take_some inj (fits.had ▸ had)
      by_cases front : taken.next = true
      · -- It is the next row.
        have few := next front
        have least := Nat.mod_le (s.current * n) (2 ^ 32)
        have bound : s.current * n ≤ nFreeRows * n := Nat.mul_le_mul_right n inside
        have rest : s.current - 1 + 1 = s.current := by omega
        have low : s.newFreeRows ≤ s.current - 1 := Nat.le_sub_one_of_lt behind
        rw [carrRow_some s had]
        simp only [front, if_true]
        refine ⟨⟨assigns, within, (List.length_set ..).trans length, low, by simp only; omega, ?_,
          by simp only; omega⟩, by simp only [Carr.left]; omega⟩
        have place : s.current - 1 < (s.lap.freeRows.set (s.current - 1) i0).length := by
          rw [List.length_set]
          omega
        rw [List.drop_eq_getElem_cons place, List.getElem_set_self, rest,
          List.drop_set_of_lt (by omega), List.take_set_of_le low]
        exact list
      · -- It stays free.
        rw [carrRow_some s had]
        simp only [front, Bool.false_eq_true, if_false]
        refine ⟨⟨assigns, within, (List.length_set ..).trans length, behind, inside, ?_, count⟩,
          by simp only [Carr.left]; omega⟩
        have place : s.newFreeRows < (s.lap.freeRows.set s.newFreeRows i0).length := by
          rw [List.length_set]
          omega
        rw [List.drop_set_of_lt behind, List.take_succ_eq_append_getElem place,
          List.getElem_set_self, List.take_set_of_le le_rfl]
        refine list.perm ?_
        rw [← List.append_assoc]
        exact (List.perm_append_singleton i0 _).symm

theorem carrLoop_holds [NeZero n] (moderate : Moderate cost) {nFreeRows : Nat}
    (small : nFreeRows * n + nFreeRows < 2 ^ 32) (fuel : Nat) {s : Carr n K}
    (holds : s.Holds cost nFreeRows)
    (enough : s.left nFreeRows < fuel) :
    ∃ after, carrLoop cost nFreeRows fuel s = some after ∧ after.Holds cost nFreeRows ∧
      after.current = nFreeRows := by
  induction fuel generalizing s with
  | zero => exact absurd enough (Nat.not_lt_zero _)
  | succ fuel ih =>
      rw [carrLoop]
      by_cases more : s.current < nFreeRows
      · obtain ⟨freeI, here, begun, plain⟩ := holds.begin more small
        have free : Free s.lap.y freeI := (begun.free.free freeI).mp List.mem_cons_self
        have start := holds.within.all (holds.assigns.exists_none rfl free) freeI 0
        have fits := carrTaken_fits
            (s := { s with current := s.current + 1, rrCnt := (s.rrCnt + 1) % 2 ^ 32 }) moderate
          holds.within (rowMins_of start)
        obtain ⟨next, fewer⟩ := begun.carrRow fits carrTaken_next
        rw [if_pos more, here]
        apply ih next
        refine Nat.lt_of_lt_of_le fewer ?_
        simp only [Carr.left] at enough
        simp only [plain]
        omega
      · rw [if_neg more]
        exact ⟨s, rfl, holds, Nat.le_antisymm holds.inside (Nat.le_of_not_lt more)⟩

theorem freeList_length {y : Fin n → Option (Fin n)} {rows : List (Fin n)}
    (list : FreeList y rows) :
    rows.length ≤ n := by
  have le := list.nodup.length_le_card
  rwa [Fintype.card_fin] at le

theorem carrDense_sound [NeZero n] (moderate : Moderate cost) (small : n < 2 ^ 16) {lap : Lap n K}
    (sound : lap.Sound cost) : ∃ after, carrDense cost lap = some after ∧ after.Sound cost := by
  have few := freeList_length sound.free
  have product : lap.freeRows.length * n ≤ 65535 * 65535 := Nat.mul_le_mul (by omega) (by omega)
  have start : Carr.Holds cost lap.freeRows.length ⟨0, 0, 0, lap⟩ :=
    { assigns := sound.assigns
      within := sound.within
      length := rfl
      behind := Nat.le_refl 0
      inside := Nat.zero_le _
      free := by
        rw [List.drop_zero, List.take_zero, List.append_nil]
        exact sound.free
      count := Nat.zero_le _ }
  obtain ⟨after, ran, holds, done⟩ :=
    carrLoop_holds moderate (by omega) (lap.freeRows.length * n + lap.freeRows.length + 1)
    start (by simp only [Carr.left]; omega)
  refine ⟨{ after.lap with freeRows := after.lap.freeRows.take after.newFreeRows },
    by rw [carrDense, ran, Option.map_some], holds.assigns, ?_, holds.within⟩
  have free := holds.free
  rwa [done, ← holds.length, List.drop_length, List.nil_append] at free

end Rounds

end PtzAgx.Algs
