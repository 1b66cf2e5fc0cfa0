import PtzAgx.Algs.Lapjv
import PtzAgx.Lib.Assignment

/-! # The reductions of the assignment solver

What column reduction, reduction transfer and augmenting row reduction keep: every
row that has a column has its cheapest one, and the list of the free rows is right.
`LARGE` stands for infinity in them, so a column that nobody has must not have
become too dear, nor any column as long as there is such a one.
-/

namespace PtzAgx.Algs

variable {K : Type} [LinearOrder K] {n : Nat} {cost : Fin n → Fin n → K}

/-! ## One step of a minimum -/

theorem reduceColumn_le (i : Fin n) (found : (Fin n → K) × (Fin n → Fin n)) (j k : Fin n) :
    (reduceColumn cost i found j).1 k ≤ found.1 k := by
  unfold reduceColumn
  split
  · rename_i less
    dsimp only
    by_cases here : k = j
    · subst here
      rw [Function.update_self]
      exact le_of_lt less
    · rw [Function.update_of_ne here]
  · exact le_rfl

theorem reduceColumn_here (i : Fin n) (found : (Fin n → K) × (Fin n → Fin n)) (j : Fin n) :
    (reduceColumn cost i found j).1 j ≤ cost i j := by
  unfold reduceColumn
  split
  · exact le_of_eq (Function.update_self j (cost i j) found.1)
  · rename_i less
    exact le_of_not_gt less

theorem otherMin_fold (r : Fin n → K) (j : Fin n) (columns : List (Fin n)) (min : K) :
    let least :=
  columns.foldl (fun min j2 => if j2 = j then min else if r j2 < min then r j2 else min) min
    least ≤ min ∧ (∀ k ∈ columns, k ≠ j → least ≤ r k) ∧ ∀ b, b ≤ min → (∀ k, b ≤ r k) →
    b ≤ least := by
  induction columns generalizing min with
  | nil => exact ⟨le_rfl, fun k member => absurd member List.not_mem_nil, fun b le _ => le⟩
  | cons k columns ih =>
      by_cases own : k = j
      · obtain ⟨fall, reached, bound⟩ := ih min
        simp only [List.foldl_cons, if_pos own]
        exact ⟨fall, List.forall_mem_cons.mpr ⟨fun other => absurd own other, reached⟩, bound⟩
      · by_cases less : r k < min
        · obtain ⟨fall, reached, bound⟩ := ih (r k)
          simp only [List.foldl_cons, if_neg own, if_pos less]
          exact ⟨fall.trans (le_of_lt less), List.forall_mem_cons.mpr ⟨fun _ => fall, reached⟩,
            fun b _ below => bound b (below k) below⟩
        · obtain ⟨fall, reached, bound⟩ := ih min
          simp only [List.foldl_cons, if_neg own, if_neg less]
          exact ⟨fall, List.forall_mem_cons.mpr ⟨fun _ => fall.trans (le_of_not_gt less), reached⟩,
            bound⟩

variable [Field K]

/-! ## What is kept -/

/-- The costs are small against `LARGE`, and so are their differences. -/
structure Moderate (cost : Fin n → Fin n → K) : Prop where
  below : ∀ i j, cost i j ≤ large
  spread : ∀ i j k l, 2 * (cost i j - cost k l) ≤ large

/-- `LARGE` is more than every reduced cost that is compared with it. -/
structure WithinLarge (cost : Fin n → Fin n → K) (y : Fin n → Option (Fin n)) (v : Fin n → K) :
    Prop where
  unused : ∀ {j}, y j = none → ∀ i, 2 * (cost i j - v j) ≤ large
  all : (∃ j, y j = none) → ∀ i j, cost i j - v j ≤ large

structure Lap.Sound (cost : Fin n → Fin n → K) (lap : Lap n K) : Prop where
  assigns : Assigns cost lap.v lap.x lap.y
  free : FreeList lap.y lap.freeRows
  within : WithinLarge cost lap.y lap.v

section Large

variable [IsStrictOrderedRing K]

theorem large_pos : (0 : K) < large := by
  unfold large
  norm_num

end Large

/-! ## Column reduction -/

/-- Each price is from a row, or the first price still. -/
def Priced [NeZero n] (cost : Fin n → Fin n → K) (found : (Fin n → K) × (Fin n → Fin n)) : Prop :=
  ∀ j, found.1 j = cost (found.2 j) j ∨ (found.1 j = large ∧ found.2 j = 0)

theorem Priced.reduceColumn [NeZero n] {found : (Fin n → K) × (Fin n → Fin n)}
    (priced : Priced cost found)
    (i j : Fin n) : Priced cost (reduceColumn cost i found j) := by
  intro k
  unfold Algs.reduceColumn
  split
  · dsimp only
    by_cases here : k = j
    · subst here
      rw [Function.update_self, Function.update_self]
      exact .inl rfl
    · rw [Function.update_of_ne here, Function.update_of_ne here]
      exact priced k
  · exact priced k

theorem reduceRow [NeZero n] (i : Fin n) (columns : List (Fin n))
    {found : (Fin n → K) × (Fin n → Fin n)}
    (priced : Priced cost found) :
    let after := columns.foldl (Algs.reduceColumn cost i) found
    Priced cost after ∧ (∀ j, after.1 j ≤ found.1 j) ∧ ∀ j ∈ columns, after.1 j ≤ cost i j := by
  induction columns generalizing found with
  | nil => exact ⟨priced, fun _ => le_rfl, fun _ member => absurd member List.not_mem_nil⟩
  | cons j columns ih =>
      obtain ⟨later, fall, reached⟩ := ih (priced.reduceColumn i j)
      refine ⟨later, fun k => (fall k).trans (reduceColumn_le i found j k), List.forall_mem_cons.mpr
        ⟨?_, reached⟩⟩
      exact (fall j).trans (reduceColumn_here i found j)

theorem reduceRows [NeZero n] (rows : List (Fin n)) {found : (Fin n → K) × (Fin n → Fin n)}
    (priced : Priced cost found) :
    let after :=
  rows.foldl (fun found i => (List.finRange n).foldl (Algs.reduceColumn cost i) found) found
    Priced cost after ∧ (∀ j, after.1 j ≤ found.1 j) ∧ ∀ i ∈ rows, ∀ j, after.1 j ≤ cost i j := by
  induction rows generalizing found with
  | nil => exact ⟨priced, fun _ => le_rfl, fun _ member => absurd member List.not_mem_nil⟩
  | cons i rows ih =>
      obtain ⟨first, fallen, row⟩ := reduceRow i (List.finRange n) priced
      obtain ⟨later, fall, reached⟩ := ih first
      refine ⟨later, fun k => (fall k).trans (fallen k), List.forall_mem_cons.mpr
        ⟨fun j => ?_, reached⟩⟩
      exact (fall j).trans (row j (List.mem_finRange j))

/-- The price of a column is its least cost, and that of the row found for it. -/
theorem columnReduction_least [NeZero n] (below : ∀ i j, cost i j ≤ large) (j : Fin n) :
    (columnReduction cost).1 j = cost ((columnReduction cost).2 j) j ∧ ∀ i,
      (columnReduction cost).1 j ≤ cost i j := by
  have start : Priced cost ((fun _ => large, fun _ => 0) : (Fin n → K) × (Fin n → Fin n)) :=
    fun j => .inr ⟨rfl, rfl⟩
  obtain ⟨priced, -, reached⟩ := reduceRows (List.finRange n) start
  have least : ∀ i, (columnReduction cost).1 j ≤ cost i j :=
    fun i => reached i (List.mem_finRange i) j
  refine ⟨?_, least⟩
  rcases priced j with same | ⟨kept, row⟩
  · exact same
  · -- No row was cheaper than `LARGE`, so the first one is not.
    have zero : (columnReduction cost).2 j = 0 := row
    have price : (columnReduction cost).1 j = large := kept
    rw [zero, price]
    exact le_antisymm (price ▸ least 0) (below 0 j)

/-! ## Who gets which column -/

/-- Columns that are still to come have their rows in `y`, the others have been
    given to them or to nobody. -/
structure Assigning (row : Fin n → Fin n) (rest : List (Fin n)) (x y : Fin n → Option (Fin n)) :
    Prop where
  row_of : ∀ {j i}, y j = some i → i = row j
  waiting : ∀ j ∈ rest, y j = some (row j)
  held : ∀ {i j}, x i = some j → y j = some i ∧ j ∉ rest
  given : ∀ {i j}, j ∉ rest → y j = some i → x i = some j

theorem Assigning.assignColumn {row : Fin n → Fin n} {j : Fin n} {rest : List (Fin n)}
    {s : Unique n}
    (assigning : Assigning row (j :: rest) s.x s.y) (absent : j ∉ rest) :
    Assigning row rest (assignColumn row s j).x (assignColumn row s j).y := by
  have here := assigning.waiting j List.mem_cons_self
  by_cases empty : s.x (row j) = none
  · simp only [Algs.assignColumn, if_pos empty]
    constructor
    case row_of => exact assigning.row_of
    case waiting => exact fun k member => assigning.waiting k (List.mem_cons_of_mem j member)
    case held =>
      intro i k had
      by_cases same : i = row j
      · subst same
        rw [Function.update_self, Option.some.injEq] at had
        exact had ▸ ⟨here, absent⟩
      · rw [Function.update_of_ne same] at had
        obtain ⟨back, unseen⟩ := assigning.held had
        exact ⟨back, fun member => unseen (List.mem_cons_of_mem j member)⟩
    case given =>
      intro i k unseen had
      by_cases same : i = row j
      · subst same
        rw [Function.update_self, Option.some.injEq]
        by_contra other
        have before :=
          assigning.given (List.not_mem_cons_of_ne_of_not_mem (Ne.symm other) unseen) had
        rw [empty] at before
        cases before
      · rw [Function.update_of_ne same]
        have other : k ≠ j := fun at_j => same (assigning.row_of (at_j ▸ had))
        exact assigning.given (List.not_mem_cons_of_ne_of_not_mem other unseen) had
  · simp only [Algs.assignColumn, if_neg empty]
    constructor
    case row_of =>
      intro k i had
      by_cases same : k = j
      · subst same
        rw [Function.update_self] at had
        cases had
      · rw [Function.update_of_ne same] at had
        exact assigning.row_of had
    case waiting =>
      intro k member
      have other : k ≠ j := fun same => absent (same ▸ member)
      rw [Function.update_of_ne other]
      exact assigning.waiting k (List.mem_cons_of_mem j member)
    case held =>
      intro i k had
      obtain ⟨back, unseen⟩ := assigning.held had
      rw [Function.update_of_ne (List.ne_of_not_mem_cons unseen)]
      exact ⟨back, List.not_mem_of_not_mem_cons unseen⟩
    case given =>
      intro i k unseen had
      have other : k ≠ j := by
        rintro rfl
        rw [Function.update_self] at had
        cases had
      rw [Function.update_of_ne other] at had
      exact assigning.given (List.not_mem_cons_of_ne_of_not_mem other unseen) had

theorem Assigning.all {row : Fin n → Fin n} {columns : List (Fin n)} (nodup : columns.Nodup)
    {s : Unique n}
    (assigning : Assigning row columns s.x s.y) :
    let after := columns.foldl (Algs.assignColumn row) s
    Assigning row [] after.x after.y := by
  induction columns generalizing s with
  | nil => exact assigning
  | cons j columns ih =>
      obtain ⟨absent, nodup⟩ := List.nodup_cons.mp nodup
      exact ih nodup (assigning.assignColumn absent)

theorem assignColumns_assigning (row : Fin n → Fin n) :
    Assigning row [] (assignColumns row).x (assignColumns row).y := by
  have every (j : Fin n) : j ∈ (List.finRange n).reverse :=
    List.mem_reverse.mpr (List.mem_finRange j)
  refine Assigning.all (List.nodup_reverse.mpr (List.nodup_finRange n)) ⟨?_, ?_, ?_, ?_⟩
  · intro j i had
    exact (Option.some.inj had).symm
  · intro j _
    rfl
  · intro i j had
    cases had
  · intro i j unseen
    exact absurd (every j) unseen

/-! ## Reduction transfer -/

theorem otherMin_le (cost : Fin n → Fin n → K) (v : Fin n → K) (i : Fin n) {j k : Fin n}
    (other : k ≠ j) :
    otherMin cost v i j ≤ cost i k - v k :=
  (otherMin_fold (fun k => cost i k - v k) j (List.finRange n) large).2.1 k
    (List.mem_finRange k) other

section Transfer

variable [IsStrictOrderedRing K]

theorem otherMin_nonneg {v : Fin n → K} (least : ∀ i j, v j ≤ cost i j) (i j : Fin n) :
    0 ≤ otherMin cost v i j :=
  (otherMin_fold (fun k => cost i k - v k) j (List.finRange n) large).2.2 0 (le_of_lt large_pos)
    fun k => sub_nonneg.mpr (least i k)

/-- `x` and `y` of the column reduction with the prices so far. The rows that are
    still to come have the prices their columns were found at. -/
structure Transferring (cost : Fin n → Fin n → K) (v₀ : Fin n → K) (x y : Fin n → Option (Fin n))
    (rest : List (Fin n))
    (v : Fin n → K) : Prop where
  cheapest : ∀ {j i}, y j = some i → Cheapest cost v i j
  least : ∀ i j, v j ≤ cost i j
  waiting : ∀ i ∈ rest, ∀ {j}, x i = some j → cost i j = v j
  unused : ∀ {j}, y j = none → v j = v₀ j
  all : (∃ j, y j = none) → ∀ i j, cost i j - v j ≤ large

theorem Transferring.transfer {v₀ v : Fin n → K} {x y : Fin n → Option (Fin n)} {i j : Fin n}
    {rest : List (Fin n)}
    (transferring : Transferring cost v₀ x y (i :: rest) v) (moderate : Moderate cost)
    (first : ∀ j, ∃ i, v₀ j = cost i j) (held : ∀ {i j}, x i = some j → y j = some i)
    (absent : i ∉ rest)
    (own : x i = some j) :
    Transferring cost v₀ x y rest (Function.update v j (v j - otherMin cost v i j)) := by
  have price := transferring.waiting i List.mem_cons_self own
  have positive := otherMin_nonneg transferring.least i j
  have fall : ∀ k, Function.update v j (v j - otherMin cost v i j) k ≤ v k := by
    intro k
    by_cases here : k = j
    · subst here
      rw [Function.update_self]
      linarith
    · rw [Function.update_of_ne here]
  constructor
  case cheapest =>
    intro k r had
    by_cases here : k = j
    · subst here
      obtain rfl : r = i := Option.some.inj (had.symm.trans (held own))
      intro l
      by_cases same : l = k
      · rw [same]
      · have le := otherMin_le cost v r same
        rw [Function.update_self, Function.update_of_ne same]
        linarith
    · exact (transferring.cheapest had).mono fall (Function.update_of_ne here _ _)
  case least => exact fun r k => (fall k).trans (transferring.least r k)
  case waiting =>
    intro r member k had
    have other : k ≠ j := by
      rintro rfl
      exact absent (Option.some.inj ((held own).symm.trans (held had)) ▸ member)
    rw [Function.update_of_ne other]
    exact transferring.waiting r (List.mem_cons_of_mem i member) had
  case unused =>
    intro k nobody
    have other : k ≠ j := fun same => by rw [same, held own] at nobody; cases nobody
    rw [Function.update_of_ne other]
    exact transferring.unused nobody
  case all =>
    rintro ⟨k, nobody⟩ r l
    by_cases here : l = j
    · subst here
      have other : k ≠ l := fun same => by rw [same, held own] at nobody; cases nobody
      have le := otherMin_le cost v i other
      obtain ⟨from_row, origin⟩ := first k
      have near := moderate.spread i k from_row k
      have far := moderate.spread r l i l
      rw [transferring.unused nobody, origin] at le
      rw [Function.update_self]
      linarith
    · rw [Function.update_of_ne here]
      exact transferring.all ⟨k, nobody⟩ r l

theorem transferRows {v₀ : Fin n → K} {s : Unique n} (moderate : Moderate cost)
    (first : ∀ j, ∃ i, v₀ j = cost i j)
    (held : ∀ {i j}, s.x i = some j → s.y j = some i) (rows : List (Fin n)) (nodup : rows.Nodup)
    {freeRows : List (Fin n)} {v : Fin n → K} (transferring : Transferring cost v₀ s.x s.y rows v) :
    let after := rows.foldl (transferRow cost s) (freeRows, v)
    after.1 = freeRows ++ rows.filter (fun i => s.x i = none) ∧ Transferring cost v₀ s.x s.y
    [] after.2 := by
  induction rows generalizing freeRows v with
  | nil => exact ⟨(List.append_nil freeRows).symm, transferring⟩
  | cons i rows ih =>
      obtain ⟨absent, nodup⟩ := List.nodup_cons.mp nodup
      have skip : Transferring cost v₀ s.x s.y rows v :=
        { transferring with
            waiting := fun r member => transferring.waiting r (List.mem_cons_of_mem i member) }
      rw [List.foldl_cons, List.filter_cons]
      cases own : s.x i with
      | none =>
          have step : transferRow cost s (freeRows, v) i = (freeRows ++ [i], v) := by
            rw [transferRow, own]
          rw [step]
          obtain ⟨listed, kept⟩ := ih nodup skip
          refine ⟨?_, kept⟩
          rw [listed, List.append_assoc]
          rfl
      | some j =>
          by_cases unique : s.unique i = true
          · have step : transferRow cost s (freeRows, v) i =
                (freeRows, Function.update v j (v j - otherMin cost v i j)) := by
              simp only [transferRow, own, unique, if_true]
            rw [step]
            exact ih nodup (transferring.transfer moderate first held absent own)
          · have step : transferRow cost s (freeRows, v) i = (freeRows, v) := by
              simp only [transferRow, own, unique, Bool.false_eq_true, if_false]
            rw [step]
            exact ih nodup skip

theorem ccrrtDense_sound [NeZero n] (moderate : Moderate cost) : (ccrrtDense cost).Sound cost := by
  have least := columnReduction_least moderate.below
  have assigning := assignColumns_assigning (columnReduction cost).2
  have held {i j : Fin n} (had : (assignColumns (columnReduction cost).2).x i = some j) :
      (assignColumns (columnReduction cost).2).y j = some i := (assigning.held had).1
  have given {i j : Fin n} (had : (assignColumns (columnReduction cost).2).y j = some i) :
      (assignColumns (columnReduction cost).2).x i = some j := assigning.given List.not_mem_nil had
  have first (j : Fin n) : ∃ i, (columnReduction cost).1 j = cost i j := ⟨_, (least j).1⟩
  have start : Transferring cost (columnReduction cost).1 (assignColumns (columnReduction cost).2).x
      (assignColumns (columnReduction cost).2).y (List.finRange n) (columnReduction cost).1 := by
    constructor
    case cheapest =>
      intro j i had k
      have price := (least j).1
      rw [← assigning.row_of had] at price
      have other := (least k).2 i
      linarith
    case least => exact fun i j => (least j).2 i
    case waiting =>
      intro i _ j own
      rw [(least j).1, ← assigning.row_of (held own)]
    case unused => exact fun _ => rfl
    case all =>
      rintro - i j
      have near := moderate.spread i j ((columnReduction cost).2 j) j
      have positive := large_pos (K := K)
      rw [(least j).1]
      linarith
  obtain ⟨listed, done⟩ :=
    transferRows moderate first held (List.finRange n) (List.nodup_finRange n) start
  constructor
  case assigns => exact ⟨given, done.cheapest⟩
  case free =>
    have rows : (ccrrtDense cost).freeRows =
        (List.finRange n).filter fun i => (assignColumns (columnReduction cost).2).x i = none :=
          listed
    rw [rows]
    refine ⟨(List.nodup_finRange n).filter _, fun i => ?_⟩
    rw [List.mem_filter, decide_eq_true_iff]
    constructor
    · rintro ⟨-, empty⟩ j had
      rw [given had] at empty
      cases empty
    · intro free
      refine ⟨List.mem_finRange i, Option.eq_none_iff_forall_ne_some.mpr fun j own => free j
        (held own)⟩
  case within =>
    refine ⟨fun {j} nobody i => ?_, done.all⟩
    have same := done.unused nobody
    have near := moderate.spread i j ((columnReduction cost).2 j) j
    rw [← (least j).1, ← same] at near
    exact near

end Transfer

end PtzAgx.Algs
