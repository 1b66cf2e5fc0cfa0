import Mathlib.Algebra.Order.Field.Basic
import Mathlib.Data.List.FinRange
import Mathlib.Logic.Function.Basic

/-! # The linear assignment solver

`lapjv.cpp`. An array of `n` entries is a function from its indices, and the index
-1 is `none`; `cols` and `free_rows`, whose places are computed, are lists. Costs
are exact, in any ordered field. What stops is a read outside an array, or a loop
that has not ended after as many rounds as it is given. Memory is there.
-/

namespace PtzAgx.Algs

variable {K : Type} [Field K] [LinearOrder K] {n : Nat}

/-- `LARGE` -/
def large : K := 1000000

/-! ## `_ccrrt_dense` -/

/-- A smaller cost than the column's price so far. -/
def reduceColumn (cost : Fin n → Fin n → K) (i : Fin n) (found : (Fin n → K) × (Fin n → Fin n))
    (j : Fin n) :
    (Fin n → K) × (Fin n → Fin n) :=
  if cost i j < found.1 j then (Function.update found.1 j (cost i j), Function.update found.2 j i)
    else found

/-- The price of each column, and the row it is from. -/
def columnReduction [NeZero n] (cost : Fin n → Fin n → K) : (Fin n → K) × (Fin n → Fin n) :=
  (List.finRange n).foldl (fun found i => (List.finRange n).foldl (reduceColumn cost i) found)
    (fun _ => large, fun _ => 0)

structure Unique (n : Nat) where
  x : Fin n → Option (Fin n)
  y : Fin n → Option (Fin n)
  unique : Fin n → Bool

/-- A column goes to its row, if that has none yet. -/
def assignColumn (row : Fin n → Fin n) (s : Unique n) (j : Fin n) : Unique n :=
  let i := row j
  if s.x i = none then { s with x := Function.update s.x i (some j) }
  else { s with unique := Function.update s.unique i false, y := Function.update s.y j none }

/-- From the last column to the first. -/
def assignColumns (row : Fin n → Fin n) : Unique n :=
  (List.finRange n).reverse.foldl (assignColumn row) ⟨fun _ => none, fun j => some (row j),
    fun _ => true⟩

/-- The least of the row's other reduced costs. -/
def otherMin (cost : Fin n → Fin n → K) (v : Fin n → K) (i j : Fin n) : K :=
  (List.finRange n).foldl
    (fun min j2 => if j2 = j then min else if cost i j2 - v j2 < min then cost i j2 - v j2 else min)
    large

/-- A row without a column is free; what the next column would cost more goes off
    the price of the column of a row that no other column wanted. -/
def transferRow (cost : Fin n → Fin n → K) (s : Unique n) (found : List (Fin n) × (Fin n → K))
    (i : Fin n) :
    List (Fin n) × (Fin n → K) :=
  match s.x i with
  | none => (found.1 ++ [i], found.2)
  | some j =>
      if s.unique i then (found.1, Function.update found.2 j
        (found.2 j - otherMin cost found.2 i j)) else found

structure Lap (n : Nat) (K : Type) where
  freeRows : List (Fin n)
  x : Fin n → Option (Fin n)
  y : Fin n → Option (Fin n)
  v : Fin n → K

def ccrrtDense [NeZero n] (cost : Fin n → Fin n → K) : Lap n K :=
  let (v, row) := columnReduction cost
  let s := assignColumns row
  let (freeRows, v) := (List.finRange n).foldl (transferRow cost s) ([], v)
  { freeRows, x := s.x, y := s.y, v }

/-! ## `_carr_dense` -/

/-- The two least reduced costs of a row. -/
structure RowMins (n : Nat) (K : Type) where
  j1 : Fin n
  v1 : K
  j2 : Option (Fin n)
  v2 : K

def rowMinsStep (cost : Fin n → Fin n → K) (v : Fin n → K) (freeI : Fin n) (s : RowMins n K)
    (j : Fin n) :
    RowMins n K :=
  let c := cost freeI j - v j
  if c < s.v2 then
    if c ≥ s.v1 then { s with v2 := c, j2 := some j }
    else { v2 := s.v1, v1 := c, j2 := some s.j1, j1 := j }
  else s

def rowMins [NeZero n] (cost : Fin n → Fin n → K) (v : Fin n → K) (freeI : Fin n) : RowMins n K :=
  (List.finRange n).tail.foldl (rowMinsStep cost v freeI) ⟨0, cost freeI 0 - v 0, none, large⟩

/-- The column that a row takes, who had it, and whether that one is next. -/
structure Taken (n : Nat) (K : Type) where
  j1 : Fin n
  i0 : Option (Fin n)
  v : Fin n → K
  next : Bool

structure Carr (n : Nat) (K : Type) where
  current : Nat
  newFreeRows : Nat
  rrCnt : Nat
  lap : Lap n K

def carrTaken (s : Carr n K) (mins : RowMins n K) : Taken n K :=
  let i0 := s.lap.y mins.j1
  let v1New := s.lap.v mins.j1 - (mins.v2 - mins.v1)
  if s.rrCnt < s.current * n % 2 ^ 32 then
    if v1New < s.lap.v mins.j1 then ⟨mins.j1, i0, Function.update s.lap.v mins.j1 v1New, true⟩
    else
      match i0, mins.j2 with
      | some _, some j2 => ⟨j2, s.lap.y j2, s.lap.v, false⟩
      | _, _ => ⟨mins.j1, i0, s.lap.v, false⟩
  else ⟨mins.j1, i0, s.lap.v, false⟩

/-- The row that had the column goes in front of the rows to come, or behind those
    that stay free. -/
def carrRow (freeI : Fin n) (taken : Taken n K) (s : Carr n K) : Carr n K :=
  let lap :=
    { s.lap with
      x := Function.update s.lap.x freeI (some taken.j1)
      y := Function.update s.lap.y taken.j1 (some freeI)
      v := taken.v }
  match taken.i0 with
  | none => { s with lap }
  | some i0 =>
      if taken.next then
        { s with
          current := s.current - 1
          lap := { lap with freeRows := s.lap.freeRows.set (s.current - 1) i0 } }
      else
        { s with
          newFreeRows := s.newFreeRows + 1
          lap := { lap with freeRows := s.lap.freeRows.set s.newFreeRows i0 } }

def carrLoop [NeZero n] (cost : Fin n → Fin n → K) (nFreeRows : Nat) :
    Nat → Carr n K → Option (Carr n K)
  | 0, _ => none
  | fuel + 1, s =>
      if s.current < nFreeRows then
        match s.lap.freeRows[s.current]? with
        | none => none
        | some freeI =>
            let s := { s with current := s.current + 1, rrCnt := (s.rrCnt + 1) % 2 ^ 32 }
            carrLoop cost nFreeRows fuel
              (carrRow freeI (carrTaken s (rowMins cost s.lap.v freeI)) s)
      else some s

/-- The new number of free rows is the length of the new list. -/
def carrDense [NeZero n] (cost : Fin n → Fin n → K) (lap : Lap n K) : Option (Lap n K) :=
  (carrLoop cost lap.freeRows.length (lap.freeRows.length * n + lap.freeRows.length + 1)
    ⟨0, 0, 0, lap⟩).map fun s =>
    { s.lap with freeRows := s.lap.freeRows.take s.newFreeRows }

/-! ## `find_path_dense` -/

structure Find (n : Nat) (K : Type) where
  cols : List (Fin n)
  hi : Nat
  mind : K

/-- Puts the column at `k` behind those at the least distance, if it is there too. -/
def findStep (d : Fin n → K) (lo : Nat) (s : Find n K) (k : Nat) : Option (Find n K) := do
  let j ← s.cols[k]?
  if d j ≤ s.mind then
    let hi := if d j < s.mind then lo else s.hi
    let mind := if d j < s.mind then d j else s.mind
    let other ← s.cols[hi]?
    return { cols := (s.cols.set k other).set hi j, hi := hi + 1, mind }
  else return s

/-- `_find_dense`: the columns and `hi`. -/
def findDense (d : Fin n → K) (lo : Nat) (cols : List (Fin n)) : Option (Find n K) := do
  let first ← cols[lo]?
  (List.range' (lo + 1) (n - (lo + 1))).foldlM (findStep d lo) ⟨cols, lo + 1, d first⟩

structure Scan (n : Nat) (K : Type) where
  cols : List (Fin n)
  hi : Nat
  d : Fin n → K
  pred : Fin n → Fin n

/-- The loop over the columns that are still to do, for one row; a free column at
    the last distance ends it. -/
def scanRow (cost : Fin n → Fin n → K) (y : Fin n → Option (Fin n)) (v : Fin n → K) (i : Fin n)
    (mind h : K) :
    List Nat → Scan n K → Option (Option (Fin n) × Scan n K)
  | [], s => some (none, s)
  | k :: ks, s =>
      match s.cols[k]? with
      | none => none
      | some j =>
          let credIj := cost i j - v j - h
          if credIj < s.d j then
            let s :=
                { s with d := Function.update s.d j credIj, pred := Function.update s.pred j i }
            if credIj = mind then
              if y j = none then some (some j, s)
              else
                match s.cols[s.hi]? with
                | none => none
                | some other =>
                    scanRow cost y v i mind h ks
                      { s with cols := (s.cols.set k other).set s.hi j, hi := s.hi + 1 }
            else scanRow cost y v i mind h ks s
          else scanRow cost y v i mind h ks s

/-- `_scan_dense`; `hi` is the end of the list as it was left. -/
def scanDense (cost : Fin n → Fin n → K) (y : Fin n → Option (Fin n)) (v : Fin n → K) :
    Nat → Nat → Scan n K → Option (Option (Fin n) × Scan n K)
  | 0, _, _ => none
  | fuel + 1, lo, s =>
      if lo = s.hi then some (none, s)
      else
        match s.cols[lo]? with
        | none => none
        | some j =>
            match y j with
            | none => none
            | some i =>
                let mind := s.d j
                let h := cost i j - v j - mind
                match scanRow cost y v i mind h (List.range' s.hi (n - s.hi)) s with
                | none => none
                | some (some j, s) => some (some j, s)
                | some (none, s) => scanDense cost y v fuel (lo + 1) s

/-- The loop over `final_j`. A scan ends with its list, so there is always a search
    first, and all columns before `lo` are ready. -/
def findPathLoop (cost : Fin n → Fin n → K) (y : Fin n → Option (Fin n)) (v : Fin n → K) :
    Nat → Nat → Scan n K → Option (Fin n × Nat × Scan n K)
  | 0, _, _ => none
  | fuel + 1, lo, s =>
      match findDense s.d lo s.cols with
      | none => none
      | some found =>
          let s := { s with cols := found.cols, hi := found.hi }
          -- The last free column that was found.
          match (((s.cols.take s.hi).drop lo).filter fun j => y j = none).getLast? with
          | some finalJ => some (finalJ, lo, s)
          | none =>
              match scanDense cost y v (n + 1) lo s with
              | none => none
              | some (some finalJ, s) => some (finalJ, lo, s)
              | some (none, s) => findPathLoop cost y v fuel s.hi s

/-- The column, the prices and the predecessors. -/
def findPathDense (cost : Fin n → Fin n → K) (startI : Fin n) (y : Fin n → Option (Fin n))
    (v : Fin n → K) :
    Option (Fin n × (Fin n → K) × (Fin n → Fin n)) := do
  let (finalJ, nReady, s) ← findPathLoop cost y v (n + 1) 0
    { cols := List.finRange n, hi := 0, d := fun j => cost startI j - v j, pred := fun _ => startI }
  let first ← s.cols[nReady]?
  let mind := s.d first
  return (finalJ, (s.cols.take nReady).foldl
    (fun v j => Function.update v j (v j + (s.d j - mind))) v, s.pred)

/-! ## `_ca_dense` -/

/-- The columns of a path change rows, up to the start. -/
def augment (freeI : Fin n) (pred : Fin n → Fin n) :
    Nat → Option (Fin n) → (Fin n → Option (Fin n)) →
    (Fin n → Option (Fin n)) → Option ((Fin n → Option (Fin n)) × (Fin n → Option (Fin n)))
  | 0, _, _, _ => none
  | _ + 1, none, _, _ => none
  | fuel + 1, some j, x, y =>
      let i := pred j
      let y := Function.update y j (some i)
      let next := x i
      let x := Function.update x i (some j)
      if i = freeI then some (x, y) else augment freeI pred fuel next x y

def caRow (cost : Fin n → Fin n → K) (lap : Lap n K) (freeI : Fin n) : Option (Lap n K) := do
  let (j, v, pred) ← findPathDense cost freeI lap.y lap.v
  let (x, y) ← augment freeI pred (n + 1) (some j) lap.x lap.y
  return { lap with x, y, v }

def caDense (cost : Fin n → Fin n → K) (lap : Lap n K) : Option (Lap n K) :=
  lap.freeRows.foldlM (caRow cost) lap

/-! ## `lapjv_internal` -/

/-- The loop around `_carr_dense`, for so many rounds at most. -/
def carrRounds [NeZero n] (cost : Fin n → Fin n → K) : Nat → Lap n K → Option (Lap n K)
  | 0, lap => some lap
  | rounds + 1, lap =>
      if lap.freeRows.length > 0 then (carrDense cost lap).bind (carrRounds cost rounds)
        else some lap

/-- The return value, `x` and `y`. -/
def lapjvInternal [NeZero n] (cost : Fin n → Fin n → K) :
    Option (Nat × (Fin n → Option (Fin n)) × (Fin n → Option (Fin n))) :=
  match carrRounds cost 2 (ccrrtDense cost) with
  | none => none
  | some lap =>
      if lap.freeRows.length > 0 then (caDense cost lap).map fun lap => (0, lap.x, lap.y)
      else some (lap.freeRows.length, lap.x, lap.y)

end PtzAgx.Algs
