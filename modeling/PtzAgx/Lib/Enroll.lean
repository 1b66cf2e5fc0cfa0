import PtzAgx.Lib.Intrusive
import Mathlib.Data.List.Induction
import Mathlib.Data.List.TakeWhile

/-! # Lists whose nodes are reset before they are appended

Appending leaves a node that is listed already where it is. A caller that resets
the link of its node first takes from the list everything that stood behind it.
What a list holds after any run of such calls is a matter of lists of nodes, and
so is which runs lose nothing.
-/

namespace PtzAgx.Intrusive

variable {ν : Type}

theorem forall_prefix_concat {P : List ν → Prop} {calls : List ν} {node : ν} :
    (∀ made, made <+: calls ++ [node] → P made) ↔ (∀ made, made <+: calls → P made) ∧
      P (calls ++ [node]) := by
  constructor
  · intro all
    exact ⟨fun made start => all made (start.trans (List.prefix_append calls [node])),
      all _ (List.prefix_refl _)⟩
  · rintro ⟨early, last⟩ made start
    rcases List.prefix_concat_iff.mp start with rfl | earlier
    · exact last
    · exact early made earlier

variable [DecidableEq ν] {l : Links ν} {node : ν} {xs calls : List ν}

def Links.enroll (fuel : Nat) (l : Links ν) (node : ν) : Option (Links ν) :=
  Links.append fuel { l with next := Function.update l.next node none } node

/-- The list up to the node, which ends it. -/
def cut (xs : List ν) (node : ν) : List ν := xs.takeWhile (· ≠ node) ++ [node]

/-- The list with the node, which stays where it is if it is in it. -/
def enlist (xs : List ν) (node : ν) : List ν := if node ∈ xs then xs else xs ++ [node]

/-- The nodes in the order of their first occurrence. -/
def firsts (calls : List ν) : List ν := calls.foldl enlist []

theorem cut_absent (absent : node ∉ xs) : cut xs node = xs ++ [node] := by
  rw [cut, List.takeWhile_eq_self_iff.mpr]
  intro x member
  simpa using ne_of_mem_of_not_mem member absent

theorem cut_member {before after : List ν} (absent : node ∉ before) :
    cut (before ++ node :: after) node = before ++ [node] := by
  have all : ∀ x ∈ before, decide (x ≠ node) = true := by
    intro x member
    simpa using ne_of_mem_of_not_mem member absent
  rw [cut, List.takeWhile_append_of_pos all]
  simp

/-- Whatever was listed behind the node is lost. -/
theorem Links.enroll_holds (held : l.Holds xs) (node : ν) :
    ∃ l', (∀ fuel, xs.length ≤ fuel → l.enroll fuel node = some l') ∧ l'.Holds (cut xs node) := by
  by_cases member : node ∈ xs
  · obtain ⟨before, after, rfl, absent⟩ := List.eq_append_cons_of_mem member
    have split : before ++ node :: after = before ++ [node] ++ after := by simp
    rw [Links.Holds, split] at held
    obtain ⟨r, front, -⟩ := segment_append.mp held
    have reset : Links.Holds { l with next := Function.update l.next node none }
        (before ++ [node]) :=
      front.redirect absent
    refine ⟨{ l with next := Function.update l.next node none }, ?_, by rwa [cut_member absent]⟩
    intro fuel enough
    refine Links.append_member reset (by simp) ?_
    simp only [List.length_append, List.length_cons, List.length_nil] at enough ⊢
    omega
  · have reset : Links.Holds { l with next := Function.update l.next node none } xs :=
      Segment.update member held
    obtain ⟨l', returned, segment, -⟩ := Links.append_absent reset member (Nat.le_refl _)
    have ends : (Function.update l.next node none) node = none := Function.update_self _ _ _
    refine ⟨l', ?_, ?_⟩
    · intro fuel enough
      obtain ⟨extra, rfl⟩ := Nat.exists_eq_add_of_le enough
      exact Links.append_mono extra returned
    · rw [cut_absent member, Links.Holds, ← ends]
      exact segment

theorem firsts_concat (calls : List ν) (node : ν) :
    firsts (calls ++ [node]) = enlist (firsts calls) node := by
  rw [firsts, List.foldl_append]
  rfl

theorem mem_firsts {x : ν} : x ∈ firsts calls ↔ x ∈ calls := by
  induction calls using List.reverseRecOn with
  | nil => exact Iff.rfl
  | append_singleton calls node ih =>
      rw [firsts_concat, enlist, List.mem_append, List.mem_singleton, ← ih]
      split
      · rename_i listed
        refine ⟨.inl, ?_⟩
        rintro (early | rfl)
        · exact early
        · exact listed
      · rw [List.mem_append, List.mem_singleton]

theorem firsts_nodup (calls : List ν) : (firsts calls).Nodup := by
  induction calls using List.reverseRecOn with
  | nil => exact List.nodup_nil
  | append_singleton calls node ih =>
      rw [firsts_concat, enlist]
      split
      · exact ih
      · rename_i absent
        exact List.nodup_append.mpr ⟨ih, List.nodup_singleton node, by
          intro x early y last
          rw [List.mem_singleton.mp last]
          exact ne_of_mem_of_not_mem early absent⟩

theorem cut_eq_enlist_iff (distinct : xs.Nodup) : cut xs node = enlist xs node ↔ node ∉ xs ∨
    xs.getLast? = some node := by
  by_cases member : node ∈ xs
  · obtain ⟨before, after, rfl, absent⟩ := List.eq_append_cons_of_mem member
    rw [cut_member absent, enlist, if_pos member]
    simp only [member, not_true_eq_false, false_or]
    cases after with
    | nil => simp
    | cons x after =>
        refine iff_of_false (by simp) ?_
        intro last
        have again : node ∈ x :: after := by
          rw [List.getLast?_append, List.getLast?_cons_cons] at last
          exact List.mem_of_getLast? (by simpa using last)
        exact (List.nodup_cons.mp (List.nodup_append.mp distinct).2.1).1 again
  · rw [cut_absent member, enlist, if_neg member]
    simp only [member, not_false_eq_true, true_or]

/-- What resetting and appending makes of a list, for a whole run of calls. -/
def chainAfter (calls : List ν) : List ν := calls.foldl cut []

theorem chainAfter_concat (calls : List ν) (node : ν) :
    chainAfter (calls ++ [node]) = cut (chainAfter calls) node := by
  rw [chainAfter, List.foldl_append]
  rfl

/-- Every call has a node that is new, or the one that was new last. -/
def NewOrLatest (calls : List ν) : Prop :=
  ∀ made node, made ++ [node] <+: calls → node ∉ made ∨ (firsts made).getLast? = some node

theorem newOrLatest_concat :
    NewOrLatest (calls ++ [node]) ↔ NewOrLatest calls ∧
      (node ∉ calls ∨ (firsts calls).getLast? = some node) := by
  constructor
  · intro all
    exact ⟨fun made x start => all made x (start.trans (List.prefix_append calls [node])),
      all _ _ (List.prefix_refl _)⟩
  · rintro ⟨early, last⟩ made x start
    rcases List.prefix_concat_iff.mp start with same | earlier
    · obtain ⟨rfl, single⟩ := List.append_inj' same rfl
      obtain rfl := (List.cons.inj single).1
      exact last
    · exact early made x earlier

theorem chainAfter_iff (calls : List ν) :
    (∀ made, made <+: calls → chainAfter made = firsts made) ↔ NewOrLatest calls := by
  induction calls using List.reverseRecOn with
  | nil =>
      refine iff_of_true ?_ ?_
      · intro made start
        rw [List.prefix_nil.mp start]
        rfl
      · intro made node start
        exact absurd (List.prefix_nil.mp start) (by simp)
  | append_singleton calls node ih =>
      rw [forall_prefix_concat, newOrLatest_concat, ← ih]
      refine and_congr_right ?_
      intro right
      rw [chainAfter_concat, firsts_concat, right calls (List.prefix_refl calls),
        cut_eq_enlist_iff (firsts_nodup calls), mem_firsts]

/-! ## Runs -/

section Runs

variable {S : Type} {step : S → ν → S → Prop} {links : S → Links ν} {start s : S} {made : List ν}

/-- Calls made one after the other, each with one node. -/
inductive Run (step : S → ν → S → Prop) (start : S) : List ν → S → Prop where
  | start : Run step start [] start
  | call {made s node s'} :
      Run step start made s → step s node s' → Run step start (made ++ [node]) s'

/-- A call resets and appends its node, and returns whenever the chain ends. -/
structure Enrolls (step : S → ν → S → Prop) (links : S → Links ν) : Prop where
  enrolls : ∀ {s node s'}, step s node s' → ∃ fuel, (links s).enroll fuel node = some (links s')
  returns : ∀ {s l'} (fuel) (node), (links s).enroll fuel node = some l' → ∃ s', step s node s'

theorem Enrolls.holds (enrolls : Enrolls step links) {s' : S} {node : ν} (held : (links s).Holds xs)
    (called : step s node s') : (links s').Holds (cut xs node) := by
  obtain ⟨l', returned, right⟩ := Links.enroll_holds held node
  obtain ⟨fuel, ran⟩ := enrolls.enrolls called
  have enough := returned (fuel + xs.length) (Nat.le_add_left _ _)
  rw [Links.enroll, Links.append_mono xs.length ran] at enough
  rwa [Option.some.inj enough]

theorem Run.holds (enrolls : Enrolls step links) (empty : (links start).Holds [])
    (run : Run step start made s) :
    (links s).Holds (chainAfter made) := by
  induction run with
  | start => exact empty
  | call _ called ih =>
      rw [chainAfter_concat]
      exact enrolls.holds ih called

theorem run_exists (enrolls : Enrolls step links) (empty : (links start).Holds []) (made : List ν) :
    ∃ s, Run step start made s := by
  induction made using List.reverseRecOn with
  | nil => exact ⟨start, .start⟩
  | append_singleton made node ih =>
      obtain ⟨s, run⟩ := ih
      obtain ⟨l', returned, -⟩ := Links.enroll_holds (run.holds enrolls empty) node
      obtain ⟨s', called⟩ := enrolls.returns _ node (returned _ (Nat.le_refl _))
      exact ⟨s', .call run called⟩

/-- The chain holds the nodes in order of their first call in all states reached
    exactly in the runs that name a node again only while it is the last. -/
theorem run_holds_iff (enrolls : Enrolls step links) (empty : (links start).Holds [])
    (calls : List ν) :
    (∀ made, made <+: calls → ∃ s, Run step start made s ∧ (links s).Holds (firsts made)) ↔
      NewOrLatest calls := by
  rw [← chainAfter_iff]
  constructor
  · intro right made early
    obtain ⟨s, run, holds⟩ := right made early
    exact (run.holds enrolls empty).unique holds
  · intro right made early
    obtain ⟨s, run⟩ := run_exists enrolls empty made
    refine ⟨s, run, ?_⟩
    rw [← right made early]
    exact run.holds enrolls empty

end Runs

end PtzAgx.Intrusive
