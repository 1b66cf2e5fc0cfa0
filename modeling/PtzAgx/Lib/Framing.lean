import Mathlib.Data.List.Basic
import Mathlib.Tactic.Common

/-! # Self-delimiting frames in a stream

A frame format names the cell a frame starts with, the length of its head, when
a head is credible, the total size a head announces and when a whole frame is
intact. `scan` is the meaning of a stream under such a format: look for a start
cell, judge the head, judge the frame, continue behind whatever was judged.

The stream is a list that may go on later, so `scan` also returns the candidate
it could not judge yet. How the cells arrive is not part of this module; the
theorem that makes it irrelevant is `scan_append`.
-/

namespace PtzAgx.Framing

variable {β : Type}

/-- A frame format. A frame is strictly longer than its head, so judging a
    whole frame always happens after judging its head. -/
structure Format (β : Type) where
  start : β → Bool
  headLen : Nat
  headOk : List β → Bool
  size : List β → Nat
  bodyOk : List β → Bool
  headLen_pos : 0 < headLen
  headLen_lt_size : ∀ head, headLen < size head

/-- What the front of a stream calls for. -/
inductive Verdict where
  /-- Nothing can be decided before more cells arrive. -/
  | wait
  /-- Pass over the first `n` cells. -/
  | skip (n : Nat)
  /-- The first `n` cells are an intact frame. -/
  | take (n : Nat)
  deriving Repr, DecidableEq

namespace Format

variable (F : Format β)

/-- The head of a candidate frame. -/
def head (s : List β) : List β := s.take F.headLen

/-- Judge the front of a stream. -/
def verdict : List β → Verdict
  | [] => .wait
  | b :: rest =>
      let s := b :: rest
      if F.start b then
        if s.length < F.headLen then .wait
        else if F.headOk (F.head s) then
          if s.length < F.size (F.head s) then .wait
          else if F.bodyOk (s.take (F.size (F.head s))) then .take (F.size (F.head s))
          else .skip (F.size (F.head s))
        else .skip F.headLen
      else .skip 1

/-- A stream with a candidate at its front. -/
def Starts (s : List β) : Prop := ∃ b rest, s = b :: rest ∧ F.start b = true

/-- A list that is exactly one intact frame. -/
structure IsFrame (f : List β) : Prop where
  starts : F.Starts f
  hasHead : F.headLen ≤ f.length
  headOk : F.headOk (F.head f) = true
  sized : F.size (F.head f) = f.length
  bodyOk : F.bodyOk f = true

theorem head_append {s : List β} (t : List β) (hasHead : F.headLen ≤ s.length) :
    F.head (s ++ t) = F.head s := by
  simp only [head, List.take_append_of_le_length hasHead]

theorem verdict_starts {s : List β} (starts : F.Starts s) :
    F.verdict s =
      if s.length < F.headLen then .wait
      else if F.headOk (F.head s) then
        if s.length < F.size (F.head s) then .wait
        else if F.bodyOk (s.take (F.size (F.head s))) then .take (F.size (F.head s))
        else .skip (F.size (F.head s))
      else .skip F.headLen := by
  obtain ⟨b, rest, rfl, start⟩ := starts
  simp only [verdict, start, if_true]

theorem verdict_bounds {s : List β} {n : Nat}
    (judged : F.verdict s = .skip n ∨ F.verdict s = .take n) :
    0 < n ∧ n ≤ s.length := by
  have pos := F.headLen_pos
  cases s with
  | nil => simp [verdict] at judged
  | cons b rest =>
      have larger := F.headLen_lt_size (F.head (b :: rest))
      have nonempty : 0 < (b :: rest).length := Nat.succ_pos _
      simp only [verdict] at judged
      split_ifs at judged <;> simp at judged <;> subst judged <;> omega

theorem verdict_append {s : List β} (t : List β) (judged : F.verdict s ≠ .wait) :
    F.verdict (s ++ t) = F.verdict s := by
  cases s with
  | nil => exact (judged rfl).elim
  | cons b rest =>
      have grows : (b :: rest).length ≤ (b :: (rest ++ t)).length := by simp
      simp only [List.cons_append, verdict] at judged ⊢
      by_cases starts : F.start b = true
      · simp only [starts, if_true] at judged ⊢
        by_cases short : (b :: rest).length < F.headLen
        · exact (judged (if_pos short)).elim
        · have same : F.head (b :: (rest ++ t)) = F.head (b :: rest) :=
            F.head_append t (Nat.not_lt.mp short)
          have long : ¬ (b :: (rest ++ t)).length < F.headLen := by omega
          simp only [short, long, same, if_false] at judged ⊢
          by_cases good : F.headOk (F.head (b :: rest)) = true
          · simp only [good, if_true] at judged ⊢
            by_cases part : (b :: rest).length < F.size (F.head (b :: rest))
            · exact (judged (if_pos part)).elim
            · have whole : ¬ (b :: (rest ++ t)).length < F.size (F.head (b :: rest)) := by omega
              have body : (b :: (rest ++ t)).take (F.size (F.head (b :: rest))) =
                  (b :: rest).take (F.size (F.head (b :: rest))) :=
                List.take_append_of_le_length (Nat.not_lt.mp part)
              simp only [part, whole, body, if_false]
          · simp only [good, Bool.false_eq_true, if_false]
      · simp only [starts, Bool.false_eq_true, if_false]

theorem verdict_isFrame {f : List β} (frame : F.IsFrame f) : F.verdict f = .take f.length := by
  simp only [F.verdict_starts frame.starts, frame.headOk, frame.sized, List.take_length,
    frame.bodyOk, Nat.not_lt.mpr frame.hasHead, Nat.lt_irrefl, if_true, if_false]

theorem isFrame_of_take {s : List β} {n : Nat} (judged : F.verdict s = .take n) :
    F.IsFrame (s.take n) := by
  cases s with
  | nil => simp [verdict] at judged
  | cons b rest =>
      have larger := F.headLen_lt_size (F.head (b :: rest))
      have pos := F.headLen_pos
      simp only [verdict] at judged
      split_ifs at judged with starts short good part ok
      injection judged with same
      have inside : n ≤ (b :: rest).length := by omega
      have long : F.headLen ≤ n := by omega
      have heads : F.head ((b :: rest).take n) = F.head (b :: rest) := by
        simp only [head, List.take_take, Nat.min_eq_left long]
      have counted : ((b :: rest).take n).length = n := List.length_take_of_le inside
      obtain ⟨m, rfl⟩ := Nat.exists_eq_succ_of_ne_zero (show n ≠ 0 by omega)
      exact
        { starts := ⟨b, rest.take m, rfl, starts⟩
          hasHead := by omega
          headOk := by rw [heads]; exact good
          sized := by rw [heads, counted, same]
          bodyOk := by rw [← same]; exact ok }

/-- The frames of a stream, in order, and the candidate still undecided. -/
def scan (s : List β) : List (List β) × List β :=
  match _judged : F.verdict s with
  | .wait => ([], s)
  | .skip n => scan (s.drop n)
  | .take n => (s.take n :: (scan (s.drop n)).1, (scan (s.drop n)).2)
termination_by s.length
decreasing_by
  all_goals
    have bounds := F.verdict_bounds (by first | exact .inl _judged | exact .inr _judged)
    simp only [List.length_drop]
    omega

theorem scan_wait {s : List β} (judged : F.verdict s = .wait) : F.scan s = ([], s) := by
  rw [scan]
  split <;> simp_all

theorem scan_skip {s : List β} {n : Nat} (judged : F.verdict s = .skip n) :
    F.scan s = F.scan (s.drop n) := by
  rw [scan]
  split <;> simp_all

theorem scan_take {s : List β} {n : Nat} (judged : F.verdict s = .take n) :
    F.scan s = (s.take n :: (F.scan (s.drop n)).1, (F.scan (s.drop n)).2) := by
  rw [scan]
  split <;> simp_all

@[simp] theorem scan_nil : F.scan [] = ([], []) := F.scan_wait rfl

/-- Cutting a stream is harmless as long as the undecided candidate is kept in
    front of what arrives next. -/
theorem scan_append (s t : List β) :
    F.scan (s ++ t) =
      ((F.scan s).1 ++ (F.scan ((F.scan s).2 ++ t)).1, (F.scan ((F.scan s).2 ++ t)).2) := by
  induction s using scan.induct F with
  | case1 s judged => simp only [F.scan_wait judged, List.nil_append]
  | case2 s n judged ih =>
      have bounds := F.verdict_bounds (.inl judged)
      have front : F.verdict (s ++ t) = .skip n :=
        (F.verdict_append t (by simp [judged])).trans judged
      rw [F.scan_skip front, F.scan_skip judged, List.drop_append_of_le_length bounds.2, ih]
  | case3 s n judged ih =>
      have bounds := F.verdict_bounds (.inr judged)
      have front : F.verdict (s ++ t) = .take n :=
        (F.verdict_append t (by simp [judged])).trans judged
      rw [F.scan_take front, F.scan_take judged, List.drop_append_of_le_length bounds.2,
        List.take_append_of_le_length bounds.2, ih]
      rfl

/-- A stream that ends between candidates. -/
def Settled (s : List β) : Prop := (F.scan s).2 = []

theorem settled_nil : F.Settled [] := by simp [Settled]

theorem scan_settled_append {s : List β} (settled : F.Settled s) (t : List β) :
    F.scan (s ++ t) = ((F.scan s).1 ++ (F.scan t).1, (F.scan t).2) := by
  rw [scan_append, settled, List.nil_append]

/-- Noise holds no start cell. -/
def Noise (g : List β) : Prop := ∀ b ∈ g, F.start b = false

theorem scan_noise_append {g : List β} (noise : F.Noise g) (t : List β) :
    F.scan (g ++ t) = F.scan t := by
  induction g with
  | nil => rfl
  | cons b g ih =>
      have quiet : F.start b = false := noise b List.mem_cons_self
      have judged : F.verdict (b :: (g ++ t)) = .skip 1 := by simp [verdict, quiet]
      rw [List.cons_append, F.scan_skip judged]
      exact ih fun c member => noise c (List.mem_cons_of_mem b member)

theorem scan_noise {g : List β} (noise : F.Noise g) : F.scan g = ([], []) := by
  simpa using F.scan_noise_append noise []

theorem scan_frame_append {f : List β} (frame : F.IsFrame f) (t : List β) :
    F.scan (f ++ t) = (f :: (F.scan t).1, (F.scan t).2) := by
  have whole := F.verdict_isFrame frame
  have judged : F.verdict (f ++ t) = .take f.length :=
    (F.verdict_append t (by simp [whole])).trans whole
  rw [F.scan_take judged, List.take_left, List.drop_left]

theorem scan_frame {f : List β} (frame : F.IsFrame f) : F.scan f = ([f], []) := by
  simpa using F.scan_frame_append frame []

/-- Intact frames separated by noise are found, all and nothing else. -/
theorem scan_frames {blocks : List (List β × List β)} {last : List β}
    (noise : ∀ block ∈ blocks, F.Noise block.1) (frames : ∀ block ∈ blocks, F.IsFrame block.2)
    (lastNoise : F.Noise last) :
    F.scan ((blocks.map fun block => block.1 ++ block.2).flatten ++ last) =
      (blocks.map Prod.snd, []) := by
  induction blocks with
  | nil => simpa using F.scan_noise lastNoise
  | cons block rest ih =>
      have tail := ih (fun b member => noise b (List.mem_cons_of_mem block member))
        (fun b member => frames b (List.mem_cons_of_mem block member))
      rw [List.map_cons, List.flatten_cons, List.append_assoc, List.append_assoc,
        F.scan_noise_append (noise block List.mem_cons_self),
        F.scan_frame_append (frames block List.mem_cons_self), tail]
      rfl

theorem isFrame_of_mem_scan {s f : List β} (member : f ∈ (F.scan s).1) : F.IsFrame f := by
  induction s using scan.induct F with
  | case1 s judged => simp [F.scan_wait judged] at member
  | case2 s n judged ih => exact ih (by rwa [F.scan_skip judged] at member)
  | case3 s n judged ih =>
      rw [F.scan_take judged] at member
      rcases List.mem_cons.mp member with rfl | later
      · exact F.isFrame_of_take judged
      · exact ih later

/-- A stream made of cells no frame starts with, heads that are not credible and
    packages as long as their heads announce. -/
inductive Whole : List β → Prop where
  | nil : Whole []
  | noise {b s} : F.start b = false → Whole s → Whole (b :: s)
  | badHead {h s} : F.Starts h → h.length = F.headLen → F.headOk h = false → Whole s →
      Whole (h ++ s)
  | package {p s} : F.Starts p → F.headLen ≤ p.length → F.headOk (F.head p) = true →
      F.size (F.head p) = p.length → Whole s → Whole (p ++ s)

theorem starts_take {s : List β} {n : Nat} (starts : F.Starts s) (pos : 0 < n) :
    F.Starts (s.take n) := by
  obtain ⟨b, rest, rfl, start⟩ := starts
  obtain ⟨n, rfl⟩ := Nat.exists_eq_succ_of_ne_zero (by omega : n ≠ 0)
  exact ⟨b, rest.take n, rfl, start⟩

theorem head_take {s : List β} {n : Nat} (hasHead : F.headLen ≤ n) :
    F.head (s.take n) = F.head s := by
  rw [head, head, List.take_take, Nat.min_eq_left hasHead]

theorem verdict_badHead {h : List β} (starts : F.Starts h) (sized : h.length = F.headLen)
    (refused : F.headOk h = false) : F.verdict h = .skip h.length := by
  have whole : F.head h = h := by rw [head, ← sized, List.take_length]
  simp only [F.verdict_starts starts, whole, refused, sized, Nat.lt_irrefl, if_false,
    Bool.false_eq_true]

theorem verdict_package {p : List β} (starts : F.Starts p) (hasHead : F.headLen ≤ p.length)
    (good : F.headOk (F.head p) = true) (sized : F.size (F.head p) = p.length) :
    F.verdict p = .take p.length ∨ F.verdict p = .skip p.length := by
  simp only [F.verdict_starts starts, good, sized, Nat.not_lt.mpr hasHead, Nat.lt_irrefl,
    if_true, if_false]
  cases F.bodyOk (p.take p.length) with
  | true => exact .inl rfl
  | false => exact .inr rfl

theorem whole_of_judged {s : List β} {n : Nat}
    (judged : F.verdict s = .skip n ∨ F.verdict s = .take n)
    (rest : F.Whole (s.drop n)) : F.Whole s := by
  have pos := F.headLen_pos
  cases s with
  | nil => exact .nil
  | cons b tail =>
      cases start : F.start b with
      | false =>
          have one : n = 1 := by simpa [verdict, start, eq_comm] using judged
          subst one
          exact .noise start rest
      | true =>
          have starts : F.Starts (b :: tail) := ⟨b, tail, rfl, start⟩
          have larger := F.headLen_lt_size (F.head (b :: tail))
          have bounds := F.verdict_bounds judged
          have counted : ((b :: tail).take n).length = n := List.length_take_of_le bounds.2
          rw [F.verdict_starts starts] at judged
          rw [← List.take_append_drop n (b :: tail)]
          by_cases good : F.headOk (F.head (b :: tail)) = true
          · have sized : F.size (F.head (b :: tail)) = n := by
              split_ifs at judged <;> simp at judged <;> exact judged
            have heads : F.head ((b :: tail).take n) = F.head (b :: tail) := F.head_take (by omega)
            refine .package (F.starts_take starts (by omega)) (by omega) ?_ ?_ rest
            · rw [heads, good]
            · rw [heads, sized, counted]
          · have sized : F.headLen = n := by
              split_ifs at judged <;> simp at judged
              exact judged
            subst sized
            exact .badHead (F.starts_take starts pos) counted (Bool.eq_false_iff.mpr good) rest

/-- Cutting a stream between such pieces leaves no candidate undecided, and no
    other cut does. -/
theorem whole_iff_settled {s : List β} : F.Whole s ↔ F.Settled s := by
  constructor
  · intro whole
    induction whole with
    | nil => exact F.settled_nil
    | @noise b s quiet _ ih =>
        have judged : F.verdict (b :: s) = .skip 1 := by
          simp only [verdict, quiet, Bool.false_eq_true, if_false]
        rw [Settled, F.scan_skip judged]
        exact ih
    | @badHead h s starts sized refused _ ih =>
        have judged := F.verdict_badHead starts sized refused
        have front : F.verdict (h ++ s) = .skip h.length :=
          (F.verdict_append s (by simp [judged])).trans judged
        rw [Settled, F.scan_skip front, List.drop_left]
        exact ih
    | @package p s starts hasHead good sized _ ih =>
        rcases F.verdict_package starts hasHead good sized with judged | judged
        · have front : F.verdict (p ++ s) = .take p.length :=
            (F.verdict_append s (by simp [judged])).trans judged
          rw [Settled, F.scan_take front, List.drop_left]
          exact ih
        · have front : F.verdict (p ++ s) = .skip p.length :=
            (F.verdict_append s (by simp [judged])).trans judged
          rw [Settled, F.scan_skip front, List.drop_left]
          exact ih
  · intro settled
    induction s using scan.induct F with
    | case1 s judged =>
        rw [Settled, F.scan_wait judged] at settled
        obtain rfl : s = [] := settled
        exact .nil
    | case2 s n judged ih =>
        rw [Settled, F.scan_skip judged] at settled
        exact F.whole_of_judged (.inl judged) (ih settled)
    | case3 s n judged ih =>
        rw [Settled, F.scan_take judged] at settled
        exact F.whole_of_judged (.inr judged) (ih settled)

/-! ## Frames behind a false start -/

theorem length_le_of_mem_scan {s f : List β} (member : f ∈ (F.scan s).1) : f.length ≤ s.length := by
  induction s using scan.induct F with
  | case1 s judged => simp [F.scan_wait judged] at member
  | case2 s n judged ih =>
      rw [F.scan_skip judged] at member
      exact Nat.le_trans (ih member) (by simp)
  | case3 s n judged ih =>
      rw [F.scan_take judged] at member
      cases member with
      | head => exact List.length_take_le' n s
      | tail _ later => exact Nat.le_trans (ih later) (by simp)

/-- None of the start cells of `g` opens a credible head in `g ++ t`. -/
def FalseStarts (g t : List β) : Prop :=
  ∀ i < g.length, F.Starts ((g ++ t).drop i) → F.headOk (F.head ((g ++ t).drop i)) = false

theorem FalseStarts.drop {g t : List β} {n : Nat} (false : F.FalseStarts g t) (le : n ≤ g.length) :
    F.FalseStarts (g.drop n) t := by
  intro i small starts
  have later : n + i < g.length := by
    rw [List.length_drop] at small
    omega
  have same : (g ++ t).drop (n + i) = (g.drop n ++ t).drop i := by
    rw [← List.drop_drop, List.drop_append_of_le_length le]
  rw [← same] at starts ⊢
  exact false (n + i) later starts

/-- Cells no frame starts with, and whole heads behind start cells. -/
inductive Passed : List β → Prop where
  | nil : Passed []
  | noise {b g} : F.start b = false → Passed g → Passed (b :: g)
  | head {h g} : F.Starts h → h.length = F.headLen → Passed g → Passed (h ++ g)

theorem passed_noise_iff {b : β} {g : List β} (quiet : F.start b = false) :
    F.Passed (b :: g) ↔ F.Passed g := by
  constructor
  · intro passed
    generalize whole : b :: g = s at passed
    cases passed with
    | nil => cases whole
    | noise _ rest =>
        cases whole
        exact rest
    | head starts _ _ =>
        obtain ⟨c, tail, rfl, start⟩ := starts
        cases whole
        exact (Bool.false_ne_true (quiet.symm.trans start)).elim
  · exact .noise quiet

theorem passed_start_iff {b : β} {g : List β} (start : F.start b = true) :
    F.Passed (b :: g) ↔ F.headLen ≤ (b :: g).length ∧ F.Passed ((b :: g).drop F.headLen) := by
  constructor
  · intro passed
    generalize whole : b :: g = s at passed ⊢
    cases passed with
    | nil => cases whole
    | noise quiet _ =>
        cases whole
        exact (Bool.false_ne_true (quiet.symm.trans start)).elim
    | @head h g _ sized rest =>
        rw [← sized, List.drop_left, List.length_append]
        exact ⟨Nat.le_add_right _ _, rest⟩
  · rintro ⟨whole, rest⟩
    rw [← List.take_append_drop F.headLen (b :: g)]
    exact .head (F.starts_take ⟨b, g, rfl, start⟩ F.headLen_pos) (List.length_take_of_le whole) rest

/-- A frame is found behind false starts exactly when none of them swallows its
    beginning. -/
theorem mem_scan_iff_passed {g f : List β} (frame : F.IsFrame f) (false : F.FalseStarts g f) :
    f ∈ (F.scan (g ++ f)).1 ↔ F.Passed g := by
  induction bound : g.length using Nat.strongRecOn generalizing g with
  | ind bound ih =>
      subst bound
      cases g with
      | nil =>
          rw [List.nil_append, F.scan_frame frame]
          exact ⟨fun _ => .nil, fun _ => List.mem_cons_self⟩
      | cons b g =>
          cases start : F.start b with
          | false =>
              have judged : F.verdict (b :: g ++ f) = .skip 1 := by
                simp only [List.cons_append, verdict, start, Bool.false_eq_true, if_false]
              rw [F.scan_skip judged, F.passed_noise_iff start]
              exact ih g.length (by simp) (FalseStarts.drop F (n := 1) false (by simp)) rfl
          | true =>
              have starts : F.Starts (b :: g ++ f) := ⟨b, g ++ f, rfl, start⟩
              have refused := false 0 (Nat.succ_pos _) starts
              have enough : ¬ (b :: g ++ f).length < F.headLen := by
                have hasHead := frame.hasHead
                rw [List.length_append]
                omega
              have judged : F.verdict (b :: g ++ f) = .skip F.headLen := by
                rw [List.drop_zero] at refused
                simp only [F.verdict_starts starts, enough, refused, Bool.false_eq_true, if_false]
              rw [F.scan_skip judged, F.passed_start_iff start]
              by_cases whole : F.headLen ≤ (b :: g).length
              · have pos := F.headLen_pos
                rw [List.drop_append_of_le_length whole, ih _ ?_ (false.drop F whole) rfl]
                · exact (and_iff_right whole).symm
                · rw [List.length_drop]
                  omega
              · constructor
                · intro member
                  have fits := F.length_le_of_mem_scan member
                  rw [List.length_drop, List.length_append] at fits
                  have hasHead := frame.hasHead
                  omega
                · intro passed
                  exact (whole passed.1).elim

end Format

end PtzAgx.Framing
