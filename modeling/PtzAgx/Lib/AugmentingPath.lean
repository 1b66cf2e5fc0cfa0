import PtzAgx.Lib.Assignment

/-! # Shortest augmenting paths

A row that is free is the start. A column is labelled with its distance and with
the row it is reached from, a row is reached from the column it has. From the
labels the prices can be changed so that along the path to a column that nobody
has all columns change rows and each is the cheapest one for its new row.
-/

namespace PtzAgx

variable {ι κ K : Type} {y : κ → Option ι} {start : ι} {pred : κ → ι}

/-- The columns of a path back to the start. -/
inductive Alternates (y : κ → Option ι) (pred : κ → ι) (start : ι) : List κ → Prop where
  | start {j : κ} (here : pred j = start) : Alternates y pred start [j]
  | step {j c : κ} {path : List κ} (reached : y c = some (pred j)) (rest :
      Alternates y pred start (c :: path)) :
      Alternates y pred start (j :: c :: path)

theorem Alternates.congr {pred' : κ → ι} {y' : κ → Option ι} {path : List κ}
    (alternates : Alternates y pred start path)
    (same : ∀ c ∈ path, pred' c = pred c) (kept : ∀ c ∈ path.tail, y' c = y c) :
    Alternates y' pred' start path := by
  induction alternates with
  | start here => exact .start ((same _ List.mem_cons_self).trans here)
  | step reached _ ih =>
      refine .step ?_ (ih (fun b member => same b (List.mem_cons_of_mem _ member))
        fun b member => kept b (List.mem_cons_of_mem _ member))
      rw [kept _ List.mem_cons_self, same _ List.mem_cons_self]
      exact reached

variable [CommRing K] [LinearOrder K] {cost : ι → κ → K} {v v' d : κ → K} {μ ρ : K}
  {ready front : List κ}

/-- The label of a row: it is the start, or has a column that is in front. -/
def RowLabel (cost : ι → κ → K) (y : κ → Option ι) (v : κ → K) (start : ι) (front : List κ)
    (d : κ → K) (i : ι)
    (ρ : K) : Prop :=
  (i = start ∧ ρ = 0) ∨ ∃ c ∈ front, y c = some i ∧ d c + ρ = cost i c - v c

/-- The columns that are ready have been scanned, those further in front are at the
    last distance, and no other one is nearer than that. -/
structure Labels (cost : ι → κ → K) (y : κ → Option ι) (v : κ → K) (start : ι)
    (ready front : List κ) (μ : K) (d : κ → K)
    (pred : κ → ι) : Prop where
  direct : ∀ k, d k ≤ cost start k - v k
  scanned : ∀ c ∈ ready, ∃ i, y c = some i ∧ ∀ k, d k + (cost i c - v c - d c) ≤ cost i k - v k
  near : ∀ c ∈ ready, d c ≤ μ
  level : ∀ c ∈ front, c ∉ ready → d c = μ
  far : ∀ c, c ∉ ready → μ ≤ d c
  tight : ∀ c, ∃ ρ, RowLabel cost y v start front d (pred c) ρ ∧ d c + ρ = cost (pred c) c - v c
  path : ∀ c, ∃ path, Alternates y pred start (c :: path) ∧ (c :: path).Nodup ∧
    ∀ b ∈ path, b ∈ front

namespace Labels

theorem extend {front' : List κ} (labels : Labels cost y v start ready front μ d pred)
    (more : ∀ c ∈ front, c ∈ front')
    (level : ∀ c ∈ front', c ∉ ready → d c = μ) : Labels cost y v start ready front' μ d pred :=
  { labels with
    level
    tight := by
      intro c
      obtain ⟨ρ, label, tight⟩ := labels.tight c
      refine ⟨ρ, label.imp_right ?_, tight⟩
      rintro ⟨b, member, given, same⟩
      exact ⟨b, more b member, given, same⟩
    path := by
      intro c
      obtain ⟨path, alternates, nodup, inside⟩ := labels.path c
      exact ⟨path, alternates, nodup, fun b member => more b (inside b member)⟩ }

variable [IsStrictOrderedRing K] [DecidableEq κ]

omit [CommRing K] [LinearOrder K] [IsStrictOrderedRing K] in
theorem stays {c j : κ} {cred : K} (member : c ∈ front) (away : j ∉ front) :
    Function.update d j cred c = d c :=
  Function.update_of_ne (fun same : c = j => away (same ▸ member)) _ _

omit [IsStrictOrderedRing K] in
/-- The new label is exact, the others still are. -/
theorem relaxed_tight {c₀ j : κ} {i₀ : ι} {cred : K}
    (labels : Labels cost y v start ready front μ d pred) (member : c₀ ∈ front)
    (given : y c₀ = some i₀) (last : d c₀ = μ) (away : j ∉ front)
    (tight : cred + (cost i₀ c₀ - v c₀ - μ) = cost i₀ j - v j) (c : κ) :
    ∃ ρ, RowLabel cost y v start front (Function.update d j cred) (Function.update pred j i₀ c) ρ ∧
      Function.update d j cred c + ρ = cost (Function.update pred j i₀ c) c - v c := by
  by_cases here : c = j
  · subst here
    rw [Function.update_self, Function.update_self]
    refine ⟨cost i₀ c₀ - v c₀ - μ, .inr ⟨c₀, member, given, ?_⟩, tight⟩
    rw [stays member away, last]
    exact add_sub_cancel μ _
  · obtain ⟨ρ, label, same⟩ := labels.tight c
    rw [Function.update_of_ne here, Function.update_of_ne here]
    refine ⟨ρ, label.imp_right ?_, same⟩
    rintro ⟨b, member, had, equal⟩
    exact ⟨b, member, had, by rw [stays member away]; exact equal⟩

omit [IsStrictOrderedRing K] in
theorem relaxed_path {c₀ j : κ} {i₀ : ι} (labels : Labels cost y v start ready front μ d pred)
    (member : c₀ ∈ front) (given : y c₀ = some i₀) (away : j ∉ front) (c : κ) :
    ∃ path, Alternates y (Function.update pred j i₀) start (c :: path) ∧ (c :: path).Nodup ∧
      ∀ b ∈ path, b ∈ front := by
  have inside {c : κ} (member : c ∈ front) : c ≠ j := fun same => away (same ▸ member)
  have kept {path : List κ} (alternates : Alternates y pred start path)
    (avoids : ∀ b ∈ path, b ≠ j) :
      Alternates y (Function.update pred j i₀) start path :=
    alternates.congr (fun b member => Function.update_of_ne (avoids b member) _ _) fun _ _ => rfl
  by_cases here : c = j
  · subst here
    obtain ⟨path, alternates, nodup, front⟩ := labels.path c₀
    have avoids : ∀ b ∈ c₀ :: path, b ≠ c :=
      List.forall_mem_cons.mpr ⟨inside member, fun b more => inside (front b more)⟩
    refine ⟨c₀ :: path, .step ?_ (kept alternates avoids), ?_, List.forall_mem_cons.mpr
      ⟨member, front⟩⟩
    · rw [Function.update_self]
      exact given
    · exact List.nodup_cons.mpr ⟨fun member => avoids c member rfl, nodup⟩
  · obtain ⟨path, alternates, nodup, front⟩ := labels.path c
    refine ⟨path, kept alternates ?_, nodup, front⟩
    exact List.forall_mem_cons.mpr ⟨here, fun b member => inside (front b member)⟩

/-- A column that is not in front is reached from one at the last distance. -/
theorem relax {c₀ j : κ} {i₀ : ι} {cred : K} (labels : Labels cost y v start ready front μ d pred)
    (within : ∀ c ∈ ready, c ∈ front) (member : c₀ ∈ front) (given : y c₀ = some i₀)
    (last : d c₀ = μ)
    (away : j ∉ front) (nearer : cred < d j) (far : μ ≤ cred)
    (tight : cred + (cost i₀ c₀ - v c₀ - μ) = cost i₀ j - v j) :
    Labels cost y v start ready front μ (Function.update d j cred) (Function.update pred j i₀) := by
  have fall : ∀ k, Function.update d j cred k ≤ d k := by
    intro k
    by_cases here : k = j
    · rw [here, Function.update_self]
      exact le_of_lt nearer
    · rw [Function.update_of_ne here]
  constructor
  case direct => exact fun k => (fall k).trans (labels.direct k)
  case scanned =>
    intro c member
    obtain ⟨i, had, scanned⟩ := labels.scanned c member
    refine ⟨i, had, fun k => ?_⟩
    have before := scanned k
    have less := fall k
    rw [stays (within c member) away]
    linarith
  case near =>
    intro c member
    rw [stays (within c member) away]
    exact labels.near c member
  case level =>
    intro c member other
    rw [stays member away]
    exact labels.level c member other
  case far =>
    intro c other
    by_cases here : c = j
    · rw [here, Function.update_self]
      exact far
    · rw [Function.update_of_ne here]
      exact labels.far c other
  case tight => exact labels.relaxed_tight member given last away tight
  case path => exact labels.relaxed_path member given away

end Labels

section Reprice

variable [IsStrictOrderedRing K] {x : ι → Option κ}

theorem Labels.settled (labels : Labels cost y v start ready front μ d pred)
    (repriced : Repriced v v' d μ (· ∈ ready)) (assigns : Assigns cost v x y) {i : ι}
    (label : RowLabel cost y v start front d i ρ) : SettledAt cost v' μ ρ i := by
  rcases label with ⟨rfl, rfl⟩ | ⟨c, member, given, tight⟩
  · refine repriced.settled fun k => ?_
    rw [add_zero]
    exact labels.direct k
  · by_cases scanned : c ∈ ready
    · obtain ⟨r, had, reach⟩ := labels.scanned c scanned
      obtain rfl : i = r := Option.some.inj (given.symm.trans had)
      refine repriced.settled fun k => ?_
      have le := reach k
      linarith
    · exact repriced.settled_last (assigns.cheapest given) tight (labels.level c member scanned)

/-- The new prices keep what is assigned, and along the path to a column at the
    last distance every column is the cheapest for the row it is reached from. -/
theorem Labels.reprice (labels : Labels cost y v start ready front μ d pred)
    (repriced : Repriced v v' d μ (· ∈ ready)) (assigns : Assigns cost v x y) {j : κ}
    (last : d j = μ) :
    Assigns cost v' x y ∧
      ∃ path, Alternates y pred start (j :: path) ∧ (j :: path).Nodup ∧ ∀ c ∈ j :: path,
      Cheapest cost v' (pred c) c := by
  have reached {c : κ} (near : c ∈ ready ∨ d c = μ) : Cheapest cost v' (pred c) c := by
    obtain ⟨ρ, label, tight⟩ := labels.tight c
    exact repriced.cheapest (labels.settled repriced assigns label) tight near
  constructor
  · refine ⟨assigns.known, fun {c i} given => ?_⟩
    by_cases scanned : c ∈ ready
    · obtain ⟨r, had, reach⟩ := labels.scanned c scanned
      obtain rfl : i = r := Option.some.inj (given.symm.trans had)
      have settled : SettledAt cost v' μ (cost i c - v c - d c) i := repriced.settled reach
      exact repriced.cheapest settled (add_sub_cancel _ _) (.inl scanned)
    · exact (assigns.cheapest given).mono repriced.fall (repriced.far scanned).2
  · obtain ⟨path, alternates, nodup, inside⟩ := labels.path j
    refine ⟨path, alternates, nodup, List.forall_mem_cons.mpr ⟨reached (.inr last),
      fun c member => reached ?_⟩⟩
    by_cases scanned : c ∈ ready
    · exact .inl scanned
    · exact .inr (labels.level c (inside c member) scanned)

end Reprice

end PtzAgx
