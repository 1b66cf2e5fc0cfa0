import Mathlib.Algebra.BigOperators.Group.Finset.Basic
import Mathlib.Algebra.Order.BigOperators.Group.Finset
import Mathlib.Algebra.Order.Ring.Defs
import Mathlib.Data.Fintype.EquivFin
import Mathlib.Logic.Function.Basic
import Mathlib.Tactic.Linarith

/-! # The linear assignment problem

Rows are given columns, each column to one row, at a price. A column is the
cheapest for a row if its cost less its price is; where every row has a cheapest
column, the whole assignment is optimal. The partial assignments here keep what a
row had before it lost its column, so only `y` says who is assigned.
-/

namespace PtzAgx

variable {ι κ K : Type} [CommRing K] [LinearOrder K] {cost : ι → κ → K} {v v' : κ → K}

/-- Given to the row `i`, the column `j` leaves no column better. -/
def Cheapest (cost : ι → κ → K) (v : κ → K) (i : ι) (j : κ) : Prop :=
  ∀ k, cost i j - v j ≤ cost i k - v k

theorem Cheapest.mono [IsStrictOrderedRing K] {i : ι} {j : κ} (cheapest : Cheapest cost v i j)
    (fall : ∀ k, v' k ≤ v k) (same : v' j = v j) : Cheapest cost v' i j := by
  intro k
  have before := cheapest k
  have fallen := fall k
  rw [same]
  linarith

/-- An assignment of cheapest columns is optimal. -/
theorem sum_le_sum_of_cheapest [IsStrictOrderedRing K] [Fintype ι] [Fintype κ] (σ : ι ≃ κ)
    (cheapest : ∀ i, Cheapest cost v i (σ i)) (τ : ι ≃ κ) :
    ∑ i, cost i (σ i) ≤ ∑ i, cost i (τ i) := by
  have reduced : ∑ i, (cost i (σ i) - v (σ i)) ≤ ∑ i, (cost i (τ i) - v (τ i)) :=
    Finset.sum_le_sum fun i _ => cheapest i (τ i)
  rw [Finset.sum_sub_distrib, Finset.sum_sub_distrib, Equiv.sum_comp σ v, Equiv.sum_comp τ v]
    at reduced
  linarith

/-! ## Partial assignments -/

/-- `y` gives columns to rows, `x` knows them, and each is the cheapest one. -/
structure Assigns (cost : ι → κ → K) (v : κ → K) (x : ι → Option κ) (y : κ → Option ι) : Prop where
  known : ∀ {j i}, y j = some i → x i = some j
  cheapest : ∀ {j i}, y j = some i → Cheapest cost v i j

/-- The row has no column. -/
def Free (y : κ → Option ι) (i : ι) : Prop := ∀ j, y j ≠ some i

/-- A list of all rows without a column. -/
structure FreeList (y : κ → Option ι) (rows : List ι) : Prop where
  nodup : rows.Nodup
  free : ∀ i, i ∈ rows ↔ Free y i

theorem FreeList.perm {y : κ → Option ι} {rows rows' : List ι} (list : FreeList y rows)
    (perm : rows.Perm rows') : FreeList y rows' where
  nodup := perm.nodup list.nodup
  free r := by rw [← perm.mem_iff, list.free r]

namespace Assigns

variable {x : ι → Option κ} {y : κ → Option ι}

theorem inj (assigns : Assigns cost v x y) {i : ι} {j k : κ} (first : y j = some i)
    (second : y k = some i) : j = k :=
  Option.some.inj ((assigns.known first).symm.trans (assigns.known second))

/-- A row takes its cheapest column, whoever had it. Its price alone may fall. -/
theorem take [IsStrictOrderedRing K] [DecidableEq ι] [DecidableEq κ] (assigns : Assigns cost v x y)
    {i : ι} {j : κ}
    (free : Free y i) (fall : ∀ k, v' k ≤ v k) (same : ∀ k, k ≠ j → v' k = v k)
    (cheapest : Cheapest cost v' i j) :
    Assigns cost v' (Function.update x i (some j)) (Function.update y j (some i)) := by
  constructor
  case known =>
    intro k r given
    by_cases here : k = j
    · subst here
      rw [Function.update_self, Option.some.injEq] at given
      rw [← given, Function.update_self]
    · rw [Function.update_of_ne here] at given
      have other : r ≠ i := fun same => free k (same ▸ given)
      rw [Function.update_of_ne other]
      exact assigns.known given
  case cheapest =>
    intro k r given
    by_cases here : k = j
    · subst here
      rw [Function.update_self, Option.some.injEq] at given
      exact given ▸ cheapest
    · rw [Function.update_of_ne here] at given
      exact (assigns.cheapest given).mono fall (same k here)

theorem release [DecidableEq κ] (assigns : Assigns cost v x y) (j : κ) :
    Assigns cost v x (Function.update y j none) := by
  have before {k : κ} {i : ι} (given : Function.update y j none k = some i) : y k = some i := by
    by_cases here : k = j
    · subst here
      rw [Function.update_self] at given
      cases given
    · rwa [Function.update_of_ne here] at given
  exact ⟨fun given => assigns.known (before given), fun given => assigns.cheapest (before given)⟩

theorem exists_none [Fintype ι] [Fintype κ] (assigns : Assigns cost v x y)
    (square : Fintype.card ι = Fintype.card κ)
    {i : ι} (free : Free y i) : ∃ j, y j = none := by
  by_contra all
  have total : ∀ j, ∃ r, y j = some r :=
    fun j => Option.ne_none_iff_exists'.mp fun none => all ⟨j, none⟩
  choose row given using total
  have injective : Function.Injective row := fun j k same => assigns.inj (given j) (same ▸ given k)
  obtain ⟨j, here⟩ :=
    ((Fintype.bijective_iff_injective_and_card row).mpr ⟨injective, square.symm⟩).surjective i
  exact free j (here ▸ given j)

/-- Once no row is free, every row has its column for good. -/
theorem complete [Fintype ι] [Fintype κ] (assigns : Assigns cost v x y)
    (square : Fintype.card ι = Fintype.card κ)
    (none_free : ∀ i, ¬ Free y i) :
    ∃ σ : ι ≃ κ, (∀ i, x i = some (σ i)) ∧ (∀ j, y j = some (σ.symm j)) ∧ ∀ i,
      Cheapest cost v i (σ i) := by
  have total : ∀ i, ∃ j, y j = some i := by
    intro i
    by_contra missing
    exact none_free i fun j given => missing ⟨j, given⟩
  choose column given using total
  have injective : Function.Injective column := fun i r same => by
    have both := (given i).symm.trans (same ▸ given r)
    exact Option.some.inj both
  have bijective := (Fintype.bijective_iff_injective_and_card column).mpr ⟨injective, square⟩
  refine ⟨Equiv.ofBijective column bijective, fun i => assigns.known (given i), fun j => ?_,
    fun i => assigns.cheapest (given i)⟩
  have back : column ((Equiv.ofBijective column bijective).symm j) = j :=
    (Equiv.ofBijective column bijective).apply_symm_apply j
  have here := given ((Equiv.ofBijective column bijective).symm j)
  rwa [back] at here

end Assigns

/-! ## Who is free -/

section FreeRows

variable [DecidableEq κ] {y : κ → Option ι} {i i₀ : ι} {j : κ} {rest : List ι}

theorem free_update {r : ι} (inj : ∀ {r k l}, y k = some r → y l = some r → k = l) :
    Free (Function.update y j (some i)) r ↔ r ≠ i ∧ (Free y r ∨ y j = some r) := by
  constructor
  · intro free
    have other : r ≠ i := fun same => free j (by rw [Function.update_self, same])
    refine ⟨other, ?_⟩
    by_cases had : y j = some r
    · exact .inr had
    · refine .inl fun k given => free k ?_
      have elsewhere : k ≠ j := fun same => had (same ▸ given)
      rw [Function.update_of_ne elsewhere, given]
  · rintro ⟨other, before⟩ k given
    by_cases here : k = j
    · subst here
      rw [Function.update_self, Option.some.injEq] at given
      exact other given.symm
    · rw [Function.update_of_ne here] at given
      rcases before with free | had
      · exact free k given
      · exact here (inj given had)

theorem FreeList.take_none (rows : FreeList y (i :: rest))
    (inj : ∀ {r k l}, y k = some r → y l = some r → k = l)
    (unused : y j = none) : FreeList (Function.update y j (some i)) rest := by
  obtain ⟨absent, nodup⟩ := List.nodup_cons.mp rows.nodup
  refine ⟨nodup, fun r => ?_⟩
  have nobody : y j ≠ some r := fun had => by rw [unused] at had; cases had
  rw [free_update inj, ← rows.free r, List.mem_cons]
  constructor
  · intro member
    exact ⟨fun same => absent (same ▸ member), .inl (.inr member)⟩
  · rintro ⟨other, before⟩
    exact (before.resolve_right nobody).resolve_left other

theorem FreeList.take_some (rows : FreeList y (i :: rest))
    (inj : ∀ {r k l}, y k = some r → y l = some r → k = l)
    (had : y j = some i₀) : FreeList (Function.update y j (some i)) (i₀ :: rest) := by
  obtain ⟨absent, nodup⟩ := List.nodup_cons.mp rows.nodup
  have assigned : i₀ ∉ i :: rest := fun member => (rows.free i₀).mp member j had
  rw [List.mem_cons, not_or] at assigned
  refine ⟨List.nodup_cons.mpr ⟨assigned.2, nodup⟩, fun r => ?_⟩
  rw [free_update inj, ← rows.free r, List.mem_cons, List.mem_cons, had, Option.some.injEq]
  constructor
  · rintro (rfl | member)
    · exact ⟨assigned.1, .inr rfl⟩
    · exact ⟨fun same => absent (same ▸ member), .inl (.inr member)⟩
  · rintro ⟨other, before | same⟩
    · exact .inr (before.resolve_left other)
    · exact .inl same.symm

theorem FreeList.release {rows : List ι} (list : FreeList y rows)
    (inj : ∀ {r k l}, y k = some r → y l = some r → k = l) (had : y j = some i) :
    FreeList (Function.update y j none) (i :: rows) := by
  have assigned : i ∉ rows := fun member => (list.free i).mp member j had
  refine ⟨List.nodup_cons.mpr ⟨assigned, list.nodup⟩, fun r => ?_⟩
  rw [List.mem_cons, list.free r]
  constructor
  · rintro (rfl | free) k given
    · by_cases here : k = j
      · subst here
        rw [Function.update_self] at given
        cases given
      · rw [Function.update_of_ne here] at given
        exact here (inj given had)
    · by_cases here : k = j
      · subst here
        rw [Function.update_self] at given
        cases given
      · rw [Function.update_of_ne here] at given
        exact free k given
  · intro free
    by_cases same : r = i
    · exact .inl same
    · refine .inr fun k given => free k ?_
      have other : k ≠ j :=
        fun at_j => same (Option.some.inj ((at_j ▸ given : y j = some r).symm.trans had))
      rw [Function.update_of_ne other, given]

end FreeRows

/-! ## Prices behind a shortest path -/

section Prices

variable [IsStrictOrderedRing K] {d : κ → K} {μ ρ : K} {ready : κ → Prop} {i : ι} {j : κ}

/-- The columns that are nearer than `μ` are made dearer to just that. -/
structure Repriced (v v' d : κ → K) (μ : K) (ready : κ → Prop) : Prop where
  near : ∀ {k}, ready k → d k ≤ μ ∧ v' k = v k + (d k - μ)
  far : ∀ {k}, ¬ ready k → μ ≤ d k ∧ v' k = v k

/-- Nothing is nearer to the row than `μ`, from the label `ρ` on. -/
def SettledAt (cost : ι → κ → K) (v' : κ → K) (μ ρ : K) (i : ι) : Prop :=
  ∀ k, μ + ρ ≤ cost i k - v' k

theorem Repriced.fall (repriced : Repriced v v' d μ ready) (k : κ) : v' k ≤ v k := by
  by_cases near : ready k
  · obtain ⟨le, same⟩ := repriced.near near
    linarith
  · exact le_of_eq (repriced.far near).2

theorem Repriced.settled (repriced : Repriced v v' d μ ready)
    (scanned : ∀ k, d k + ρ ≤ cost i k - v k) :
    SettledAt cost v' μ ρ i := by
  intro k
  have label := scanned k
  by_cases near : ready k
  · obtain ⟨-, same⟩ := repriced.near near
    linarith
  · obtain ⟨le, same⟩ := repriced.far near
    linarith

theorem Repriced.settled_last (repriced : Repriced v v' d μ ready) (cheapest : Cheapest cost v i j)
    (tight : d j + ρ = cost i j - v j) (last : d j = μ) : SettledAt cost v' μ ρ i := by
  intro k
  have least := cheapest k
  have fallen := repriced.fall k
  linarith

/-- What a settled row reaches on a shortest path is its cheapest column. -/
theorem Repriced.cheapest (repriced : Repriced v v' d μ ready) (settled : SettledAt cost v' μ ρ i)
    (tight : d j + ρ = cost i j - v j) (reached : ready j ∨ d j = μ) : Cheapest cost v' i j := by
  intro k
  have least := settled k
  by_cases near : ready j
  · obtain ⟨-, same⟩ := repriced.near near
    linarith
  · obtain ⟨-, same⟩ := repriced.far near
    have last := reached.resolve_left near
    linarith

end Prices

end PtzAgx
