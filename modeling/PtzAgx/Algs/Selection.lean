import PtzAgx.Algs.Guide

/-! # What a target is selected for

Of the objects that are tracked and have lived long enough `radar_2ptz` is to give
the wanted one, or the most dangerous one. It does so unless the wanted one is gone
and several others are left: then the object handed in stays what it was.
-/

namespace PtzAgx.Algs

variable {K : Type}

/-- The object is tracked, and has been for long enough. -/
def RadarObj.IsUseful (obj : RadarObj K) : Prop := obj.stateType = 1 ∧ 10 ≤ obj.alive

/-- The object with this id is wanted, listed and useful, and there is a choice. -/
def WantedThere (objPtr : List (RadarObj K)) (ptzId : Int) : Prop :=
  ptzId > -1 ∧ (∃ obj ∈ objPtr, obj.IsUseful ∧ obj.id = ptzId) ∧
    2 ≤ (objPtr.filter RadarObj.useful).length

/-- There is a choice, but not of the object that is wanted. -/
def WantedGone (objPtr : List (RadarObj K)) (ptzId : Int) : Prop :=
  ptzId > -1 ∧ (∀ obj ∈ objPtr, obj.IsUseful → obj.id ≠ ptzId) ∧
    2 ≤ (objPtr.filter RadarObj.useful).length

/-- One of the useful objects listed, and none of them is more dangerous. -/
structure MostDangerous (objPtr : List (RadarObj K)) (obj : RadarObj K) : Prop where
  listed : obj ∈ objPtr
  useful : obj.IsUseful
  least : ∀ other ∈ objPtr, other.IsUseful → obj.threatLevel ≤ other.threatLevel

/-- The return value and the object are what the caller may expect. -/
structure Selects (objPtr : List (RadarObj K)) (ptzId ret : Int) (selected : RadarObj K) :
    Prop where
  listed : ret > 0 → selected ∈ objPtr ∧ selected.IsUseful
  wanted : ret > 0 → WantedThere objPtr ptzId → selected.id = ptzId
  dangerous : ret > 0 → ¬ WantedThere objPtr ptzId →
    ∀ other ∈ objPtr, other.IsUseful → selected.threatLevel ≤ other.threatLevel
  nothing : ret = 0 ↔ ∀ obj ∈ objPtr, ¬ obj.IsUseful

theorem foldl_keeps {α : Type} (p : α → Prop) [DecidablePred p] (l : List α) (kept : α) :
    (∃ x ∈ l, p x ∧ l.foldl (fun kept x => if p x then x else kept) kept = x) ∨
      ((∀ x ∈ l, ¬ p x) ∧ l.foldl (fun kept x => if p x then x else kept) kept = kept) := by
  induction l generalizing kept with
  | nil => exact .inr ⟨fun x member => absurd member List.not_mem_nil, rfl⟩
  | cons first rest ih =>
      rw [List.foldl_cons]
      rcases ih (if p first then first else kept) with ⟨x, member, holds, found⟩ | ⟨absent, same⟩
      · exact .inl ⟨x, List.mem_cons_of_mem first member, holds, found⟩
      · by_cases here : p first
        · rw [if_pos here] at same ⊢
          exact .inl ⟨first, List.mem_cons_self, here, same⟩
        · rw [if_neg here] at same ⊢
          exact .inr ⟨List.forall_mem_cons.mpr ⟨here, absent⟩, same⟩

section Selection

variable {objPtr : List (RadarObj K)} {objToPtz selected : RadarObj K} {ptzId ret : Int}

theorem RadarObj.useful_iff {obj : RadarObj K} : obj.useful = true ↔ obj.IsUseful := by
  rw [useful, IsUseful, Bool.and_eq_true, beq_iff_eq, decide_eq_true_iff]

theorem mem_useful_iff {obj : RadarObj K} : obj ∈ objPtr.filter RadarObj.useful ↔ obj ∈ objPtr ∧
    obj.IsUseful := by
  rw [List.mem_filter, RadarObj.useful_iff]

theorem MostDangerous.selects (most : MostDangerous objPtr selected) (found : 0 < ret)
    (other : ¬ WantedThere objPtr ptzId) : Selects objPtr ptzId ret selected where
  listed _ := ⟨most.listed, most.useful⟩
  wanted _ there := absurd there other
  dangerous _ _ := most.least
  nothing := iff_of_false (Int.ne_of_gt found) fun none => none selected most.listed most.useful

theorem Selects.mostDangerous (selects : Selects objPtr ptzId ret selected) (found : 0 < ret)
    (other : ¬ WantedThere objPtr ptzId) : MostDangerous objPtr selected :=
  ⟨(selects.listed found).1, (selects.listed found).2, selects.dangerous found other⟩

theorem WantedGone.not_there (gone : WantedGone objPtr ptzId) : ¬ WantedThere objPtr ptzId := by
  rintro ⟨-, ⟨obj, listed, useful, same⟩, -⟩
  exact gone.2.1 obj listed useful same

/-- Sorted by danger, the first object is the most dangerous one. -/
theorem mostDangerous_head (sort : StdSort (radarCompare (K := K))) (objToPtz : RadarObj K)
    (some_useful : objPtr.filter RadarObj.useful ≠ []) :
    MostDangerous objPtr ((sort.run (objPtr.filter RadarObj.useful)).headD objToPtz) := by
  obtain ⟨listed, useful⟩ := mem_useful_iff.mp (sort.headD_mem objToPtz some_useful)
  refine ⟨listed, useful, fun other member fit => ?_⟩
  have least :=
    sort.headD_least objToPtz (fun obj => decide_eq_false (Int.lt_irrefl obj.threatLevel)) other
    (mem_useful_iff.mpr ⟨member, fit⟩)
  exact Int.not_lt.mp (of_decide_eq_false least)

theorem radar2ptz_many (sort : StdSort (radarCompare (K := K))) (objToPtz : RadarObj K)
    (ptzId gNID : Int)
    (many : 2 ≤ (objPtr.filter RadarObj.useful).length) :
    (radar2ptz sort objPtr objToPtz ptzId gNID).1 = 2 ∧
      (radar2ptz sort objPtr objToPtz ptzId gNID).2.1 =
        if ptzId > -1 then
          (sort.run (objPtr.filter RadarObj.useful)).foldl
            (fun obj it => if ptzId = it.id then it else obj) objToPtz
        else (sort.run (objPtr.filter RadarObj.useful)).headD objToPtz := by
  unfold radar2ptz
  match found : objPtr.filter RadarObj.useful, many with
  | first :: second :: rest, _ => exact ⟨rfl, rfl⟩

theorem selects_nothing (empty : objPtr.filter RadarObj.useful = []) :
    Selects objPtr ptzId 0 selected := by
  have none : ∀ obj ∈ objPtr, ¬ obj.IsUseful := by
    intro obj member useful
    have kept := mem_useful_iff.mpr ⟨member, useful⟩
    rw [empty] at kept
    cases kept
  constructor
  case listed => exact fun found => absurd found (Int.lt_irrefl 0)
  case wanted => exact fun found => absurd found (Int.lt_irrefl 0)
  case dangerous => exact fun found => absurd found (Int.lt_irrefl 0)
  case nothing => exact iff_of_true rfl none

theorem selects_only (alone : objPtr.filter RadarObj.useful = [selected]) :
    Selects objPtr ptzId 1 selected := by
  have single : ∀ obj, obj ∈ objPtr ∧ obj.IsUseful ↔ obj = selected := by
    intro obj
    rw [← mem_useful_iff, alone, List.mem_singleton]
  obtain ⟨listed, useful⟩ := (single selected).mpr rfl
  have most : MostDangerous objPtr selected := by
    refine ⟨listed, useful, fun other member fit => ?_⟩
    rw [(single other).mp ⟨member, fit⟩]
  apply most.selects Int.one_pos
  rintro ⟨-, -, many⟩
  rw [alone, List.length_singleton] at many
  exact absurd many (by decide)

theorem selects_wanted (listed : selected ∈ objPtr) (useful : selected.IsUseful)
    (same : ptzId = selected.id)
    (there : WantedThere objPtr ptzId) : Selects objPtr ptzId 2 selected where
  listed _ := ⟨listed, useful⟩
  wanted _ _ := same.symm
  dangerous _ other := absurd there other
  nothing := iff_of_false (by decide) fun none => none selected listed useful

theorem radar2ptz_selects_many (sort : StdSort (radarCompare (K := K))) (objToPtz : RadarObj K)
    (ptzId gNID : Int)
    (many : 2 ≤ (objPtr.filter RadarObj.useful).length) :
    Selects objPtr ptzId (radar2ptz sort objPtr objToPtz ptzId gNID).1
        (radar2ptz sort objPtr objToPtz ptzId gNID).2.1 ↔
      (WantedGone objPtr ptzId → MostDangerous objPtr objToPtz) := by
  obtain ⟨ret, selected⟩ := radar2ptz_many sort objToPtz ptzId gNID many
  rw [ret, selected]
  by_cases asked : ptzId > -1
  · rw [if_pos asked]
    rcases foldl_keeps (fun it : RadarObj K => ptzId = it.id)
      (sort.run (objPtr.filter RadarObj.useful)) objToPtz with
      ⟨obj, member, same, kept⟩ | ⟨absent, kept⟩
    · obtain ⟨listed, useful⟩ := mem_useful_iff.mp ((sort.perm _).mem_iff.mp member)
      have there : WantedThere objPtr ptzId := ⟨asked, ⟨obj, listed, useful, same.symm⟩, many⟩
      rw [kept]
      exact iff_of_true (selects_wanted listed useful same there) fun gone =>
        absurd there gone.not_there
    · have gone : WantedGone objPtr ptzId := by
        refine ⟨asked, fun obj listed useful same => ?_, many⟩
        exact absent obj ((sort.perm _).mem_iff.mpr (mem_useful_iff.mpr ⟨listed, useful⟩)) same.symm
      rw [kept]
      constructor
      · exact fun selects _ => selects.mostDangerous (by decide) gone.not_there
      · exact fun most => (most gone).selects (by decide) gone.not_there
  · rw [if_neg asked]
    have nonempty : objPtr.filter RadarObj.useful ≠ [] :=
      List.ne_nil_of_length_pos (Nat.lt_of_lt_of_le Nat.zero_lt_two many)
    have most := mostDangerous_head sort objToPtz nonempty
    exact iff_of_true (most.selects (by decide) fun there => asked there.1) fun gone =>
      absurd gone.1 asked

end Selection

/-- What is selected is right exactly when the wanted object is not gone from among
    several, or the object handed in is itself the one to select. -/
theorem radar2ptz_selects_iff (sort : StdSort (radarCompare (K := K))) (objPtr : List (RadarObj K))
    (objToPtz : RadarObj K) (ptzId gNID : Int) :
    Selects objPtr ptzId (radar2ptz sort objPtr objToPtz ptzId gNID).1
        (radar2ptz sort objPtr objToPtz ptzId gNID).2.1 ↔
      (WantedGone objPtr ptzId → MostDangerous objPtr objToPtz) := by
  by_cases many : 2 ≤ (objPtr.filter RadarObj.useful).length
  · exact radar2ptz_selects_many sort objToPtz ptzId gNID many
  · refine iff_of_true ?_ fun gone => absurd gone.2.2 many
    unfold radar2ptz
    match found : objPtr.filter RadarObj.useful, many with
    | [], _ => exact selects_nothing found
    | [only], _ => exact selects_only found
    | first :: second :: rest, few => exact absurd (Nat.le_add_left 2 rest.length) few

/-- Tracked for ten cycles, as dangerous as said. -/
def radarObjWith (id threatLevel : Int) : RadarObj ℚ := ⟨id, 10, 1, threatLevel, 0, 0, 0, 0, 0, 0⟩

/-- Two objects, of which neither is the wanted one: an object that is not listed at
    all is reported to be selected. -/
theorem radar2ptz_keeps_old :
    ¬ ∀ (sort : StdSort (radarCompare (K := ℚ))) (objPtr : List (RadarObj ℚ))
      (objToPtz : RadarObj ℚ) (ptzId gNID : Int),
      ptzId ≥ -1 → Selects objPtr ptzId (radar2ptz sort objPtr objToPtz ptzId gNID).1
        (radar2ptz sort objPtr objToPtz ptzId gNID).2.1 := by
  intro selects
  let objPtr : List (RadarObj ℚ) := [radarObjWith 1 3, radarObjWith 2 5]
  have many : 2 ≤ (objPtr.filter RadarObj.useful).length := Nat.le_refl 2
  have gone : WantedGone objPtr 7 := by
    refine ⟨by decide, ?_, many⟩
    intro obj member useful
    have either : obj = radarObjWith 1 3 ∨ obj = radarObjWith 2 5 := by
      simpa only [objPtr, List.mem_cons, List.not_mem_nil, or_false] using member
    rcases either with rfl | rfl <;> decide
  have two := selects (StdSort.byKey RadarObj.threatLevel) objPtr RadarObj.zero 7 7 (by decide)
  have most :=
    (radar2ptz_selects_many (StdSort.byKey RadarObj.threatLevel) RadarObj.zero 7 7 many).mp two gone
  exact absurd most.useful.1 (by decide)

end PtzAgx.Algs
