import PtzAgx.Algs.LapjvReduction
import PtzAgx.Lib.AugmentingPath

/-! # The shortest path of the assignment solver

The columns stand in three parts of one list: those that are ready, those at the
last distance and those to do. What a swap and a scan do to the list is said once;
the labels are the ones of a shortest augmenting path.
-/

namespace PtzAgx.Algs

/-! ## Columns that change places -/

section Swap

variable {α : Type} {l : List α} {k hi m : Nat}

theorem take_succ_mem {c : α} (inside : k < l.length) :
    c ∈ l.take (k + 1) ↔ c ∈ l.take k ∨ c = l[k] := by
  rw [List.take_succ_eq_append_getElem inside, List.mem_append, List.mem_singleton]

theorem getElem_not_mem_take (nodup : l.Nodup) (inside : k < l.length) (le : m ≤ k) :
    l[k] ∉ l.take m := by
  intro member
  obtain ⟨i, small, same⟩ := List.mem_take_iff_getElem.mp member
  have equal := (List.Nodup.getElem_inj_iff nodup).mp same
  omega

theorem swap_take (le : m ≤ hi) (below : hi ≤ k) (inside : k < l.length) :
    ((l.set k l[hi]).set hi l[k]).take m = l.take m := by
  rw [List.take_set_of_le le, List.take_set_of_le (le.trans below)]

theorem swap_take_succ (below : hi ≤ k) (inside : k < l.length) :
    ((l.set k l[hi]).set hi l[k]).take (hi + 1) = l.take hi ++ [l[k]] := by
  have place : hi < ((l.set k l[hi]).set hi l[k]).length := by
    rw [List.length_set, List.length_set]
    omega
  rw [List.take_succ_eq_append_getElem place, List.getElem_set_self, swap_take le_rfl below inside]

theorem swap_mem_take {c : α} (below : hi ≤ k) (inside : k < l.length)
    (member : c ∈ ((l.set k l[hi]).set hi l[k]).take (k + 1)) : c ∈ l.take (k + 1) := by
  obtain ⟨i, small, rfl⟩ := List.mem_take_iff_getElem.mp member
  rw [List.length_set, List.length_set] at small
  have here {p : Nat} (le : p ≤ k) : l[p] ∈ l.take (k + 1) :=
    List.mem_take_iff_getElem.mpr ⟨p, by omega, rfl⟩
  by_cases at_hi : hi = i
  · subst at_hi
    rw [List.getElem_set_self]
    exact here le_rfl
  · rw [List.getElem_set_ne at_hi]
    by_cases at_k : k = i
    · subst at_k
      rw [List.getElem_set_self]
      exact here below
    · rw [List.getElem_set_ne at_k]
      exact here (by omega)

end Swap

theorem reprice_fold {K : Type} [Field K] {n : Nat} {d : Fin n → K} {μ : K} (columns : List (Fin n))
    (nodup : columns.Nodup) (w : Fin n → K) (k : Fin n) :
    columns.foldl (fun v j => Function.update v j (v j + (d j - μ))) w k =
      if k ∈ columns then w k + (d k - μ) else w k := by
  induction columns generalizing w with
  | nil => rfl
  | cons j columns ih =>
      obtain ⟨absent, nodup⟩ := List.nodup_cons.mp nodup
      rw [List.foldl_cons, ih nodup]
      by_cases here : k = j
      · subst here
        rw [if_neg absent, if_pos List.mem_cons_self, Function.update_self]
      · rw [Function.update_of_ne here]
        exact if_congr (by rw [List.mem_cons, or_iff_right here]) rfl rfl

variable {K : Type} [LinearOrder K] {n : Nat}

theorem perm_length {cols : List (Fin n)} (perm : cols.Perm (List.finRange n)) :
    cols.length = n := by
  rw [perm.length_eq, List.length_finRange]

theorem perm_nodup {cols : List (Fin n)} (perm : cols.Perm (List.finRange n)) : cols.Nodup :=
  perm.nodup_iff.mpr (List.nodup_finRange n)

theorem mem_take_all {cols : List (Fin n)} (perm : cols.Perm (List.finRange n)) (c : Fin n) :
    c ∈ cols.take n := by
  rw [List.take_of_length_le (le_of_eq (perm_length perm)), perm.mem_iff]
  exact List.mem_finRange c

/-! ## The columns at the least distance -/

/-- After the columns up to `k`: those from `lo` up to `hi` are at the least distance
    of all that have been seen. -/
structure Find.Upto (d : Fin n → K) (front : List (Fin n)) (lo k : Nat) (f : Find n K) : Prop where
  perm : f.cols.Perm (List.finRange n)
  kept : f.cols.take lo = front
  some_found : lo < f.hi
  inside : f.hi ≤ k
  level : ∀ c ∈ f.cols.take f.hi, c ∉ front → d c = f.mind
  least : ∀ c ∈ f.cols.take k, c ∉ front → f.mind ≤ d c

theorem Find.Upto.step {d : Fin n → K} {front : List (Fin n)} {lo k : Nat} {f : Find n K}
    (upto : f.Upto d front lo k)
    (more : k < n) : ∃ after, findStep d lo f k = some after ∧ after.Upto d front lo (k + 1) := by
  have inside : k < f.cols.length := (perm_length upto.perm).symm ▸ more
  have found := upto.some_found
  have le := upto.inside
  have here : f.cols[k]? = some f.cols[k] := List.getElem?_eq_getElem inside
  have swapped {hi : Nat} (below : hi ≤ k) : f.cols[hi]? = some f.cols[hi] :=
    List.getElem?_eq_getElem (by omega)
  by_cases near : d f.cols[k] ≤ f.mind
  · by_cases less : d f.cols[k] < f.mind
    · -- The list at the least distance starts anew.
      have below : lo ≤ k := by omega
      refine ⟨⟨(f.cols.set k f.cols[lo]).set lo f.cols[k], lo + 1, d f.cols[k]⟩, ?_, ?_⟩
      · simp only [findStep, here, swapped below, near, less, if_true, Option.bind_eq_bind,
          Option.bind_some, Option.pure_def]
      · constructor
        case perm => exact (List.set_set_perm inside (by omega)).trans upto.perm
        case kept => exact (swap_take le_rfl below inside).trans upto.kept
        case some_found => exact Nat.lt_succ_self lo
        case inside => exact Nat.succ_le_succ below
        case level =>
          intro c member away
          rw [swap_take_succ below inside, upto.kept, List.mem_append, List.mem_singleton] at member
          rw [member.resolve_left away]
        case least =>
          intro c member away
          rcases (take_succ_mem inside).mp (swap_mem_take below inside member) with before | rfl
          · exact (le_of_lt less).trans (upto.least c before away)
          · exact le_rfl
    · -- One more.
      have same : d f.cols[k] = f.mind := le_antisymm near (le_of_not_gt less)
      refine ⟨⟨(f.cols.set k f.cols[f.hi]).set f.hi f.cols[k], f.hi + 1, f.mind⟩, ?_, ?_⟩
      · simp only [findStep, here, swapped le, near, less, if_true, if_false, Option.bind_eq_bind,
          Option.bind_some, Option.pure_def]
      · constructor
        case perm => exact (List.set_set_perm inside (by omega)).trans upto.perm
        case kept => exact (swap_take (le_of_lt found) le inside).trans upto.kept
        case some_found => exact Nat.lt_succ_of_lt found
        case inside => exact Nat.succ_le_succ le
        case level =>
          intro c member away
          rw [swap_take_succ le inside, List.mem_append, List.mem_singleton] at member
          rcases member with before | rfl
          · exact upto.level c before away
          · exact same
        case least =>
          intro c member away
          rcases (take_succ_mem inside).mp (swap_mem_take le inside member) with before | rfl
          · exact upto.least c before away
          · exact le_of_eq same.symm
  · refine ⟨f, ?_, ⟨upto.perm, upto.kept, found, Nat.le_succ_of_le le, upto.level, ?_⟩⟩
    · simp only [findStep, here, near, if_false, Option.bind_eq_bind, Option.bind_some,
        Option.pure_def]
    · intro c member away
      rcases (take_succ_mem inside).mp member with before | rfl
      · exact upto.least c before away
      · exact le_of_lt (lt_of_not_ge near)

theorem Find.Upto.fold {d : Fin n → K} {front : List (Fin n)} {lo : Nat} (count : Nat) {k : Nat}
    {f : Find n K}
    (upto : f.Upto d front lo k) (rest : k + count = n) :
    ∃ after, (List.range' k count).foldlM (findStep d lo) f = some after ∧
      after.Upto d front lo n := by
  induction count generalizing k f with
  | zero => exact ⟨f, rfl, rest ▸ upto⟩
  | succ count ih =>
      obtain ⟨next, stepped, upto⟩ := upto.step (by omega)
      obtain ⟨after, ran, done⟩ := ih upto (by omega)
      refine ⟨after, ?_, done⟩
      rw [List.range'_succ, List.foldlM_cons, stepped]
      exact ran

theorem findDense_upto {d : Fin n → K} {lo : Nat} {cols : List (Fin n)}
    (perm : cols.Perm (List.finRange n))
    (more : lo < n) :
    ∃ found, findDense d lo cols = some found ∧ found.Upto d (cols.take lo) lo n := by
  have inside : lo < cols.length := (perm_length perm).symm ▸ more
  have one : Find.Upto d (cols.take lo) lo (lo + 1) ⟨cols, lo + 1, d cols[lo]⟩ := by
    have only : ∀ c ∈ cols.take (lo + 1), c ∉ cols.take lo → d c = d cols[lo] := by
      intro c member away
      rw [((take_succ_mem inside).mp member).resolve_left away]
    exact ⟨perm, rfl, Nat.lt_succ_self lo, le_rfl, only, fun c member away => le_of_eq
      (only c member away).symm⟩
  obtain ⟨after, ran, done⟩ := one.fold (n - (lo + 1)) (by omega)
  refine ⟨after, ?_, done⟩
  simp only [findDense, List.getElem?_eq_getElem inside, Option.bind_eq_bind, Option.bind_some]
  exact ran

variable [Field K] {cost : Fin n → Fin n → K} {x y : Fin n → Option (Fin n)} {v : Fin n → K}
  {startI : Fin n} {μ : K} {nReady lo : Nat}

/-! ## One row -/

/-- The columns before `lo` have been scanned, those before `hi` are to be. -/
structure Scanning (cost : Fin n → Fin n → K) (y : Fin n → Option (Fin n)) (v : Fin n → K)
    (startI : Fin n) (μ : K)
    (nReady lo : Nat) (s : Scan n K) : Prop where
  perm : s.cols.Perm (List.finRange n)
  labels : Labels cost y v startI (s.cols.take nReady) (s.cols.take lo) μ s.d s.pred
  ready : nReady ≤ lo
  reach : lo ≤ s.hi
  inside : s.hi ≤ n
  level : ∀ c ∈ s.cols.take s.hi, c ∉ s.cols.take nReady → s.d c = μ
  given : ∀ c ∈ s.cols.take s.hi, ∃ i, y c = some i

/-- All columns are labelled from the row `i` that has `c`, as far as they are listed. -/
def ScannedFrom (cost : Fin n → Fin n → K) (v d : Fin n → K) (columns : List (Fin n))
    (i c : Fin n) : Prop :=
  ∀ k ∈ columns, d k + (cost i c - v c - d c) ≤ cost i k - v k

/-- A free column at the last distance. -/
structure Reached (cost : Fin n → Fin n → K) (y : Fin n → Option (Fin n)) (v : Fin n → K)
    (startI : Fin n) (nReady : Nat)
    (finalJ : Fin n) (s : Scan n K) : Prop where
  perm : s.cols.Perm (List.finRange n)
  unused : y finalJ = none
  found : ∃ μ front first, Labels cost y v startI (s.cols.take nReady) front μ s.d s.pred ∧
    s.d finalJ = μ ∧
    s.cols[nReady]? = some first ∧ s.d first = μ

/-- Within the scan of the row `i₀`, that has the last column in front. -/
structure RowScan (cost : Fin n → Fin n → K) (y : Fin n → Option (Fin n)) (v : Fin n → K)
    (startI : Fin n) (μ : K)
    (nReady lo : Nat) (i₀ c₀ : Fin n) (k : Nat) (s : Scan n K) : Prop where
  scanning : Scanning cost y v startI μ nReady (lo + 1) s
  before : ∀ c ∈ s.cols.take lo, ∀ i, y c = some i → ScannedFrom cost v s.d (List.finRange n) i c
  current : s.cols[lo]? = some c₀
  had : y c₀ = some i₀
  ready : nReady ≤ lo
  reach : s.hi ≤ k
  upto : ScannedFrom cost v s.d (s.cols.take k) i₀ c₀

theorem Scanning.first {s : Scan n K} (scanning : Scanning cost y v startI μ nReady lo s)
    (some_left : nReady < s.hi) :
    ∃ first, s.cols[nReady]? = some first ∧ s.d first = μ := by
  have inside := scanning.inside
  have length := perm_length scanning.perm
  have place : nReady < s.cols.length := by omega
  refine ⟨s.cols[nReady], List.getElem?_eq_getElem place, scanning.level _ ?_ ?_⟩
  · exact List.mem_take_iff_getElem.mpr ⟨nReady, by omega, rfl⟩
  · exact getElem_not_mem_take (perm_nodup scanning.perm) place le_rfl

namespace RowScan

variable {i₀ c₀ : Fin n} {k : Nat} {s : Scan n K}

theorem last (row : RowScan cost y v startI μ nReady lo i₀ c₀ k s) : s.d c₀ = μ := by
  have inside := row.scanning.inside
  have reach := row.scanning.reach
  have nodup := perm_nodup row.scanning.perm
  obtain ⟨place, rfl⟩ := List.getElem?_eq_some_iff.mp row.current
  refine row.scanning.level _ (List.mem_take_iff_getElem.mpr ⟨lo, by omega, rfl⟩) ?_
  exact getElem_not_mem_take nodup place row.ready

theorem next (row : RowScan cost y v startI μ nReady lo i₀ c₀ k s) (inside : k < s.cols.length)
    (seen : s.d s.cols[k] + (cost i₀ c₀ - v c₀ - s.d c₀) ≤ cost i₀ s.cols[k] - v s.cols[k]) :
    RowScan cost y v startI μ nReady lo i₀ c₀ (k + 1) s :=
  { row with
    reach := Nat.le_succ_of_le row.reach
    upto := by
      intro l member
      rcases (take_succ_mem inside).mp member with before | rfl
      · exact row.upto l before
      · exact seen }

theorem swap (row : RowScan cost y v startI μ nReady lo i₀ c₀ k s) (inside : k < s.cols.length)
    (most : s.hi < s.cols.length)
    (level : s.d s.cols[k] = μ) (given : ∃ i, y s.cols[k] = some i) (seen : s.d s.cols[k] +
      (cost i₀ c₀ - v c₀ - s.d c₀) ≤ cost i₀ s.cols[k] - v s.cols[k]) :
    RowScan cost y v startI μ nReady lo i₀ c₀ (k + 1)
      { s with cols := (s.cols.set k s.cols[s.hi]).set s.hi s.cols[k], hi := s.hi + 1 } := by
  have reach := row.scanning.reach
  have below := row.reach
  have ready := row.ready
  have length := perm_length row.scanning.perm
  have kept {m : Nat} (le : m ≤ s.hi) :
      ((s.cols.set k s.cols[s.hi]).set s.hi s.cols[k]).take m = s.cols.take m :=
    swap_take le below inside
  constructor
  case scanning =>
    refine ⟨(List.set_set_perm inside most).trans row.scanning.perm,
      ?_, by omega, by simp only; omega, by simp only; omega, ?_, ?_⟩
    · dsimp only
      rw [kept (by omega), kept reach]
      exact row.scanning.labels
    · intro c member other
      dsimp only at member other ⊢
      rw [kept (by omega)] at other
      rw [swap_take_succ below inside, List.mem_append, List.mem_singleton] at member
      rcases member with before | rfl
      · exact row.scanning.level c before other
      · exact level
    · intro c member
      dsimp only at member
      rw [swap_take_succ below inside, List.mem_append, List.mem_singleton] at member
      rcases member with before | rfl
      · exact row.scanning.given c before
      · exact given
  case before =>
    dsimp only
    rw [kept (by omega)]
    exact row.before
  case current =>
    dsimp only
    rw [List.getElem?_set_ne (by omega), List.getElem?_set_ne (by omega)]
    exact row.current
  case had => exact row.had
  case ready => exact row.ready
  case reach => exact Nat.succ_le_succ below
  case upto =>
    intro l member
    rcases (take_succ_mem inside).mp (swap_mem_take below inside member) with before | rfl
    · exact row.upto l before
    · exact seen

variable [IsStrictOrderedRing K]

theorem relax (row : RowScan cost y v startI μ nReady lo i₀ c₀ k s) (assigns : Assigns cost v x y)
    (inside : k < s.cols.length)
    (nearer : cost i₀ s.cols[k] - v s.cols[k] - (cost i₀ c₀ - v c₀ - μ) < s.d s.cols[k]) :
    RowScan cost y v startI μ nReady lo i₀ c₀ k
      { s with
        d :=
  Function.update s.d s.cols[k] (cost i₀ s.cols[k] - v s.cols[k] - (cost i₀ c₀ - v c₀ - μ))
        pred := Function.update s.pred s.cols[k] i₀ } := by
  have last := row.last
  have ready := row.ready
  have scanning := row.scanning
  have reach := scanning.reach
  have most := row.reach
  have nodup := perm_nodup scanning.perm
  have away {m : Nat} (le : m ≤ k) : s.cols[k] ∉ s.cols.take m :=
    getElem_not_mem_take nodup inside le
  have stays {m : Nat} (le : m ≤ k) {c : Fin n} (member : c ∈ s.cols.take m) (cred : K) :
      Function.update s.d s.cols[k] cred c = s.d c := by
    have other : c ≠ s.cols[k] := fun same => away le (same ▸ member)
    exact Function.update_of_ne other _ _
  have own : c₀ ∈ s.cols.take (lo + 1) := by
    obtain ⟨place, rfl⟩ := List.getElem?_eq_some_iff.mp row.current
    exact List.mem_take_iff_getElem.mpr ⟨lo, by omega, rfl⟩
  have least := assigns.cheapest row.had s.cols[k]
  constructor
  case scanning =>
    refine ⟨scanning.perm, ?_, scanning.ready, reach, scanning.inside, ?_, scanning.given⟩
    · refine scanning.labels.relax ?_ own row.had last (away (by omega)) nearer (by linarith)
        (sub_add_cancel _ _)
      intro c member
      exact List.take_subset_take_left s.cols (by omega) member
    · intro c member other
      dsimp only at member other ⊢
      rw [stays most member]
      exact scanning.level c member other
  case before =>
    intro c member i had l _
    have scanned := row.before c member i had l (List.mem_finRange l)
    dsimp only at member ⊢
    rw [stays (by omega) member]
    by_cases here : l = s.cols[k]
    · rw [here, Function.update_self]
      rw [here] at scanned
      linarith
    · rw [Function.update_of_ne here]
      exact scanned
  case current => exact row.current
  case had => exact row.had
  case ready => exact row.ready
  case reach => exact most
  case upto =>
    intro l member
    have scanned := row.upto l member
    dsimp only
    rw [stays le_rfl member, stays (by omega) own]
    exact scanned

/-- The rest of the columns: a free one at the last distance is reached, or all have
    been seen. -/
theorem run (assigns : Assigns cost v x y) (count : Nat) {k : Nat} {s : Scan n K}
    (row : RowScan cost y v startI μ nReady lo i₀ c₀ k s) (rest : k + count = n) :
    ∃ result after, scanRow cost y v i₀ μ (cost i₀ c₀ - v c₀ - μ) (List.range' k count) s =
      some (result, after) ∧
      match result with
      | some finalJ => Reached cost y v startI nReady finalJ after
      | none => RowScan cost y v startI μ nReady lo i₀ c₀ n after := by
  induction count generalizing k s with
  | zero => exact ⟨none, s, rfl, rest ▸ row⟩
  | succ count ih =>
      have length := perm_length row.scanning.perm
      have reach := row.scanning.reach
      have most := row.reach
      have ready := row.ready
      have inside : k < s.cols.length := by omega
      have last := row.last
      rw [List.range'_succ]
      simp only [scanRow, List.getElem?_eq_getElem inside]
      by_cases nearer : cost i₀ s.cols[k] - v s.cols[k] - (cost i₀ c₀ - v c₀ - μ) < s.d s.cols[k]
      · have relaxed := row.relax assigns inside nearer
        have again := relaxed.last
        have seen : Function.update s.d s.cols[k]
          (cost i₀ s.cols[k] - v s.cols[k] - (cost i₀ c₀ - v c₀ - μ)) s.cols[k] +
            (cost i₀ c₀ - v c₀ - Function.update s.d s.cols[k]
              (cost i₀ s.cols[k] - v s.cols[k] - (cost i₀ c₀ - v c₀ - μ)) c₀) ≤ cost i₀ s.cols[k] -
              v s.cols[k] := by
          have same : Function.update s.d s.cols[k]
              (cost i₀ s.cols[k] - v s.cols[k] - (cost i₀ c₀ - v c₀ - μ)) c₀ = μ :=
            again
          rw [same, Function.update_self]
          exact le_of_eq (sub_add_cancel _ _)
        simp only [nearer, if_true]
        by_cases level : cost i₀ s.cols[k] - v s.cols[k] - (cost i₀ c₀ - v c₀ - μ) = μ
        · simp only [level, if_true] at relaxed seen ⊢
          by_cases unused : y s.cols[k] = none
          · simp only [unused, if_true]
            obtain ⟨first, place, same⟩ := relaxed.scanning.first (by dsimp only; omega)
            refine ⟨some s.cols[k], _, rfl, relaxed.scanning.perm, unused, μ, _, first,
              relaxed.scanning.labels, ?_, place, same⟩
            exact Function.update_self ..
          · have hi : s.hi < s.cols.length := by omega
            simp only [unused, if_false, List.getElem?_eq_getElem hi]
            exact ih (relaxed.swap inside hi (Function.update_self ..)
              (Option.ne_none_iff_exists'.mp unused) seen)
              (by omega)
        · simp only [level, if_false]
          exact ih (relaxed.next inside seen) (by omega)
      · simp only [nearer, if_false]
        refine ih (row.next inside ?_) (by omega)
        have near := le_of_not_gt nearer
        rw [last]
        linarith

end RowScan

/-! ## Between two rows, and between two distances -/

/-- Between two rows: all columns before `lo` have been scanned. -/
structure Scanned (cost : Fin n → Fin n → K) (y : Fin n → Option (Fin n)) (v : Fin n → K)
    (startI : Fin n) (μ : K)
    (nReady lo : Nat) (s : Scan n K) : Prop where
  scanning : Scanning cost y v startI μ nReady lo s
  all : ∀ c ∈ s.cols.take lo, ∀ i, y c = some i → ScannedFrom cost v s.d (List.finRange n) i c

/-- Where the next distance is looked for: all columns in front are ready. -/
structure Searching (cost : Fin n → Fin n → K) (y : Fin n → Option (Fin n)) (v : Fin n → K)
    (startI : Fin n) (lo : Nat)
    (s : Scan n K) : Prop where
  perm : s.cols.Perm (List.finRange n)
  inside : lo ≤ n
  given : ∀ c ∈ s.cols.take lo, ∃ i, y c = some i
  all : ∀ c ∈ s.cols.take lo, ∀ i, y c = some i → ScannedFrom cost v s.d (List.finRange n) i c
  labels : ∀ μ, (∀ c, c ∉ s.cols.take lo → μ ≤ s.d c) → (∃ c, c ∉ s.cols.take lo ∧ s.d c = μ) →
    Labels cost y v startI (s.cols.take lo) (s.cols.take lo) μ s.d s.pred

theorem searching_start (cost : Fin n → Fin n → K) (y : Fin n → Option (Fin n)) (v : Fin n → K)
    (startI : Fin n) :
    Searching cost y v startI 0
    { cols := List.finRange n, hi := 0, d := fun j => cost startI j - v j,
      pred := fun _ => startI } := by
  have nothing {c : Fin n} : c ∉ (List.finRange n).take 0 := List.not_mem_nil
  refine ⟨List.Perm.refl _, Nat.zero_le n, fun c member => absurd member nothing,
    fun c member => absurd member nothing, fun μ far _ => ?_⟩
  constructor
  case direct => exact fun _ => le_rfl
  case scanned => exact fun c member => absurd member nothing
  case near => exact fun c member => absurd member nothing
  case level => exact fun c member => absurd member nothing
  case far => exact far
  case tight => exact fun c => ⟨0, .inl ⟨rfl, rfl⟩, add_zero _⟩
  case path =>
    exact fun c => ⟨[], .start rfl, List.nodup_singleton c,
      fun b member => absurd member List.not_mem_nil⟩

theorem Scanned.searching {s : Scan n K} (scanned : Scanned cost y v startI μ nReady s.hi s) :
    Searching cost y v startI s.hi s := by
  have scanning := scanned.scanning
  have labels := scanning.labels
  have ready {c : Fin n} (member : c ∈ s.cols.take nReady) : c ∈ s.cols.take s.hi :=
    List.take_subset_take_left s.cols scanning.ready member
  refine ⟨scanning.perm, scanning.inside, scanning.given, scanned.all, fun μ' far there => ?_⟩
  obtain ⟨c', away, here⟩ := there
  have further : μ ≤ μ' := here ▸ labels.far c' fun member => away (ready member)
  constructor
  case direct => exact labels.direct
  case scanned =>
    intro c member
    obtain ⟨i, had⟩ := scanning.given c member
    exact ⟨i, had, fun k => scanned.all c member i had k (List.mem_finRange k)⟩
  case near =>
    intro c member
    by_cases before : c ∈ s.cols.take nReady
    · exact (labels.near c before).trans further
    · exact (scanning.level c member before).le.trans further
  case level => exact fun c member other => absurd member other
  case far => exact far
  case tight => exact labels.tight
  case path => exact labels.path

/-- The columns at the next distance: one of them is free, or the rows of all of them
    can be scanned. -/
theorem Searching.found {s : Scan n K} (searching : Searching cost y v startI lo s)
    {found : Find n K}
    (upto : found.Upto s.d (s.cols.take lo) lo n) :
    let next : Scan n K := { s with cols := found.cols, hi := found.hi }
    match (((next.cols.take next.hi).drop lo).filter fun j => y j = none).getLast? with
    | some finalJ => Reached cost y v startI lo finalJ next
    | none => Scanned cost y v startI found.mind lo lo next := by
  intro next
  have some_found := upto.some_found
  have inside := upto.inside
  have length := perm_length upto.perm
  have place : lo < found.cols.length := by omega
  have kept : next.cols.take lo = s.cols.take lo := upto.kept
  have listed : found.cols[lo] ∈ found.cols.take found.hi :=
    List.mem_take_iff_getElem.mpr ⟨lo, by omega, rfl⟩
  have away : found.cols[lo] ∉ s.cols.take lo :=
    kept ▸ getElem_not_mem_take (perm_nodup upto.perm) place le_rfl
  have level := upto.level _ listed away
  have labels : Labels cost y v startI (next.cols.take lo)
      (next.cols.take lo) found.mind s.d s.pred := by
    rw [kept]
    exact searching.labels found.mind (fun c other => upto.least c (mem_take_all upto.perm c) other)
      ⟨_, away, level⟩
  cases last : (((next.cols.take next.hi).drop lo).filter fun j => y j = none).getLast? with
  | some finalJ =>
      have member := List.mem_of_getLast? last
      rw [List.mem_filter, decide_eq_true_iff] at member
      obtain ⟨behind, unused⟩ := member
      have other : finalJ ∉ s.cols.take lo := by
        intro front
        obtain ⟨i, had⟩ := searching.given finalJ front
        rw [unused] at had
        cases had
      exact ⟨upto.perm, unused, found.mind, _, _, labels,
        upto.level finalJ (List.mem_of_mem_drop behind) other,
        List.getElem?_eq_getElem place, level⟩
  | none =>
      have none_free := List.filter_eq_nil_iff.mp (List.getLast?_eq_none_iff.mp last)
      refine ⟨⟨upto.perm, labels, le_rfl, le_of_lt some_found, inside, ?_, ?_⟩, ?_⟩
      · rw [kept]
        exact upto.level
      · intro c member
        rw [← List.take_append_drop lo (List.take next.hi next.cols), List.mem_append,
          List.take_take, Nat.min_eq_left (le_of_lt some_found), kept] at member
        rcases member with front | behind
        · exact searching.given c front
        · have had := none_free c behind
          rw [decide_eq_true_iff] at had
          exact Option.ne_none_iff_exists'.mp had
      · rw [kept]
        exact searching.all

/-! ## The loops -/

section Loops

variable [IsStrictOrderedRing K]

theorem Scanned.row {s : Scan n K} (scanned : Scanned cost y v startI μ nReady lo s)
    (assigns : Assigns cost v x y)
    (more : lo < s.hi) :
    ∃ c₀ i₀, s.cols[lo]? = some c₀ ∧ y c₀ = some i₀ ∧ s.d c₀ = μ ∧
      RowScan cost y v startI μ nReady lo i₀ c₀ s.hi s := by
  have scanning := scanned.scanning
  have inside := scanning.inside
  have ready := scanning.ready
  have length := perm_length scanning.perm
  have place : lo < s.cols.length := by omega
  have listed : s.cols[lo] ∈ s.cols.take s.hi := List.mem_take_iff_getElem.mpr ⟨lo, by omega, rfl⟩
  have away : s.cols[lo] ∉ s.cols.take nReady :=
    getElem_not_mem_take (perm_nodup scanning.perm) place ready
  have last := scanning.level _ listed away
  obtain ⟨i₀, had⟩ := scanning.given _ listed
  refine ⟨s.cols[lo], i₀, List.getElem?_eq_getElem place, had, last, ?_⟩
  constructor
  case scanning =>
    refine ⟨scanning.perm, scanning.labels.extend ?_ ?_, by omega, more, inside, scanning.level,
      scanning.given⟩
    · exact fun c member => List.take_subset_take_left s.cols (Nat.le_succ lo) member
    · exact fun c member other =>
        scanning.level c (List.take_subset_take_left s.cols more member) other
  case before => exact scanned.all
  case current => exact List.getElem?_eq_getElem place
  case had => exact had
  case ready => exact ready
  case reach => exact le_rfl
  case upto =>
    intro l member
    have least := assigns.cheapest had l
    have near : s.d l ≤ μ := by
      by_cases done : l ∈ s.cols.take nReady
      · exact scanning.labels.near l done
      · exact le_of_eq (scanning.level l member done)
    rw [last]
    linarith

theorem scanDense_run (assigns : Assigns cost v x y) (fuel : Nat) {lo : Nat} {s : Scan n K}
    (scanned : Scanned cost y v startI μ nReady lo s) (enough : n - lo < fuel) :
    ∃ result after, scanDense cost y v fuel lo s = some (result, after) ∧
      match result with
      | some finalJ => Reached cost y v startI nReady finalJ after
      | none =>
        Scanned cost y v startI μ nReady after.hi after ∧ lo ≤ after.hi ∧
          (lo < s.hi → lo < after.hi) := by
  induction fuel generalizing lo s with
  | zero => exact absurd enough (Nat.not_lt_zero _)
  | succ fuel ih =>
      have inside := scanned.scanning.inside
      have reach := scanned.scanning.reach
      by_cases done : lo = s.hi
      · exact ⟨none, s, by simp only [scanDense, done, if_true], done ▸ scanned, reach, id⟩
      · obtain ⟨c₀, i₀, current, had, last, row⟩ := scanned.row assigns (by omega)
        obtain ⟨result, after, ran, ended⟩ := row.run assigns (n - s.hi) (by omega)
        cases result with
        | some finalJ =>
            refine ⟨some finalJ, after, ?_, ended⟩
            simp only [scanDense, done, if_false, current, had, last, ran]
        | none =>
            have next : Scanned cost y v startI μ nReady (lo + 1) after := by
              refine ⟨ended.scanning, fun c member i given => ?_⟩
              have place := List.getElem?_eq_some_iff.mp ended.current
              obtain ⟨small, same⟩ := place
              rcases (take_succ_mem small).mp member with before | here
              · exact ended.before c before i given
              · obtain rfl : c = c₀ := here.trans same
                obtain rfl : i = i₀ := Option.some.inj (given.symm.trans ended.had)
                exact fun l _ => ended.upto l (mem_take_all ended.scanning.perm l)
            obtain ⟨result, last_state, ran_on, outcome⟩ := ih next (by omega)
            refine ⟨result, last_state, ?_, ?_⟩
            · simp only [scanDense, done, if_false, current, had, last, ran]
              exact ran_on
            · cases result with
              | some finalJ => exact outcome
              | none => exact ⟨outcome.1, by omega, fun _ => outcome.2.1⟩

theorem findPathLoop_run (assigns : Assigns cost v x y) (free : ∃ j, y j = none) (fuel : Nat)
    {lo : Nat} {s : Scan n K}
    (searching : Searching cost y v startI lo s) (enough : n - lo < fuel) :
    ∃ finalJ nReady after, findPathLoop cost y v fuel lo s = some (finalJ, nReady, after) ∧
      Reached cost y v startI nReady finalJ after := by
  induction fuel generalizing lo s with
  | zero => exact absurd enough (Nat.not_lt_zero _)
  | succ fuel ih =>
      have inside := searching.inside
      have more : lo < n := by
        -- The free column is not in front.
        obtain ⟨j, unused⟩ := free
        by_contra all
        have whole : lo = n := by omega
        obtain ⟨i, had⟩ := searching.given j (whole ▸ mem_take_all searching.perm j)
        rw [unused] at had
        cases had
      obtain ⟨found, ran, upto⟩ := findDense_upto (d := s.d) searching.perm more
      have outcome := searching.found upto
      have some_found := upto.some_found
      dsimp only at outcome
      simp only [findPathLoop, ran]
      cases last : (((found.cols.take found.hi).drop lo).filter fun j => y j = none).getLast? with
      | some finalJ =>
          rw [last] at outcome
          exact ⟨finalJ, lo, _, rfl, outcome⟩
      | none =>
          rw [last] at outcome
          obtain ⟨result, after, scanned, ended⟩ := scanDense_run assigns (n + 1) outcome (by omega)
          simp only [scanned]
          cases result with
          | some finalJ => exact ⟨finalJ, lo, after, rfl, ended⟩
          | none =>
              have progress : lo < after.hi := ended.2.2 some_found
              have within := ended.1.scanning.inside
              exact ih ended.1.searching (by omega)

/-- From a free row a path leads to a free column, and at the new prices each of its
    columns is the cheapest for the row in front of it. -/
theorem findPathDense_path (assigns : Assigns cost v x y) (free : Free y startI) :
    ∃ finalJ v' pred, findPathDense cost startI y v = some (finalJ, v', pred) ∧ y finalJ = none ∧
      Assigns cost v' x y ∧
        ∃ path, Alternates y pred startI (finalJ :: path) ∧ (finalJ :: path).Nodup ∧
          ∀ c ∈ finalJ :: path, Cheapest cost v' (pred c) c := by
  have start := searching_start cost y v startI
  obtain ⟨finalJ, nReady, after, ran, reached⟩ :=
    findPathLoop_run assigns (assigns.exists_none rfl free) (n + 1) start (by omega)
  obtain ⟨μ, front, first, labels, last, place, same⟩ := reached.found
  refine ⟨finalJ, (after.cols.take nReady).foldl
    (fun v j => Function.update v j (v j + (after.d j - after.d first))) v,
    after.pred, ?_, reached.unused, ?_⟩
  · simp only [findPathDense, ran, place, Option.bind_eq_bind, Option.bind_some, Option.pure_def]
  · rw [same]
    have nodup : (after.cols.take nReady).Nodup :=
      (perm_nodup reached.perm).sublist (List.take_sublist _ _)
    refine labels.reprice ⟨fun {k} member => ⟨labels.near k member, ?_⟩,
      fun {k} away => ⟨labels.far k away, ?_⟩⟩ assigns
      last
    · rw [reprice_fold _ nodup, if_pos member]
    · rw [reprice_fold _ nodup, if_neg away]

end Loops

end PtzAgx.Algs
