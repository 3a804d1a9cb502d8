import Mathlib.Logic.Relation

namespace lib.transition

/-- Executes a schedule of labelled steps, `none` when one of them is not
    enabled. -/
def run {σ l : Type} (step : σ → l → Option σ) : σ → List l → Option σ
  | s, [] => some s
  | s, label :: labels => (step s label).bind (fun t => run step t labels)

theorem run_cons_eq_some_iff {σ l : Type} {step : σ → l → Option σ} {s t : σ} {label : l}
    {labels : List l} :
    run step s (label :: labels) = some t ↔
      ∃ next, step s label = some next ∧ run step next labels = some t := by
  rw [run, Option.bind_eq_some_iff]

theorem run_concat {σ l : Type} {step : σ → l → Option σ} {s t u : σ} {labels : List l} {label : l}
    (hrun : run step s labels = some t) (hstep : step t label = some u) :
    run step s (labels ++ [label]) = some u := by
  induction labels generalizing s with
  | nil =>
    obtain rfl := Option.some.inj hrun
    exact run_cons_eq_some_iff.mpr ⟨u, hstep, rfl⟩
  | cons label' labels ih =>
    obtain ⟨next, hnext, hrest⟩ := run_cons_eq_some_iff.mp hrun
    exact run_cons_eq_some_iff.mpr ⟨next, hnext, ih hrest⟩

/-- What every enabled step keeps holds after every schedule. -/
theorem run_invariant {σ l : Type} {step : σ → l → Option σ} {motive : σ → Prop}
    (hstep : ∀ s label t, motive s → step s label = some t → motive t) {s t : σ} {labels : List l}
    (hinv : motive s) (hrun : run step s labels = some t) : motive t := by
  induction labels generalizing s with
  | nil =>
    obtain rfl := Option.some.inj hrun
    exact hinv
  | cons label labels ih =>
    obtain ⟨next, hnext, hrest⟩ := run_cons_eq_some_iff.mp hrun
    exact ih (hstep s label next hinv hnext) hrest

/-- Some step of a schedule is taken in a state that relates to its label. -/
def Occurs {σ l : Type} (step : σ → l → Option σ) (p : σ → l → Prop) : σ → List l → Prop
  | _, [] => False
  | s, label :: labels => p s label ∨ ∃ t, step s label = some t ∧ Occurs step p t labels

instance Occurs.decidable {σ l : Type} {step : σ → l → Option σ} {p : σ → l → Prop}
    [∀ s label, Decidable (p s label)] : ∀ s labels, Decidable (Occurs step p s labels)
  | _, [] => isFalse id
  | s, label :: labels =>
    match hstep : step s label with
    | none => decidable_of_iff (p s label) (by simp [Occurs, hstep])
    | some t =>
      have : Decidable (Occurs step p t labels) := Occurs.decidable t labels
      decidable_of_iff (p s label ∨ Occurs step p t labels) (by simp [Occurs, hstep])

/-- An invariant that also tracks whether a step of some kind has occurred. -/
theorem run_monitor {σ l : Type} {step : σ → l → Option σ} {p : σ → l → Prop}
    {motive : Prop → σ → Prop}
    (hstep : ∀ b s label t, motive b s → step s label = some t → motive (b ∨ p s label) t) {b : Prop}
    {s t : σ} {labels : List l} (hinv : motive b s) (hrun : run step s labels = some t) :
    motive (b ∨ Occurs step p s labels) t := by
  induction labels generalizing s b with
  | nil =>
    obtain rfl := Option.some.inj hrun
    rwa [Occurs, or_false]
  | cons label labels ih =>
    obtain ⟨next, hnext, hrest⟩ := run_cons_eq_some_iff.mp hrun
    have htail := ih (hstep b s label next hinv hnext) hrest
    have hoccurs : (∃ t, step s label = some t ∧ Occurs step p t labels) ↔
        Occurs step p next labels := by
      rw [hnext]
      simp
    rwa [Occurs, hoccurs, ← or_assoc]

/-- The steps of a schedule all satisfy a condition. -/
def Along {σ l : Type} (step : σ → l → Option σ) (p : σ → l → Prop) (s : σ) (labels : List l) : Prop :=
  ¬ Occurs step (fun t label => ¬ p t label) s labels

instance Along.decidable {σ l : Type} {step : σ → l → Option σ} {p : σ → l → Prop}
    [∀ s label, Decidable (p s label)] (s : σ) (labels : List l) : Decidable (Along step p s labels) :=
  inferInstanceAs (Decidable (¬ _))

theorem along_cons_iff {σ l : Type} {step : σ → l → Option σ} {p : σ → l → Prop} {s : σ} {label : l}
    {labels : List l} :
    Along step p s (label :: labels) ↔
      p s label ∧ ∀ t, step s label = some t → Along step p t labels := by
  simp [Along, Occurs, not_or]

theorem along_of_forall {σ l : Type} {step : σ → l → Option σ} {p : l → Prop} {labels : List l}
    (hall : ∀ label ∈ labels, p label) (s : σ) : Along step (fun _ label => p label) s labels := by
  induction labels generalizing s with
  | nil => simp [Along, Occurs]
  | cons label labels ih =>
    rw [List.forall_mem_cons] at hall
    exact along_cons_iff.mpr ⟨hall.1, fun t _ => ih hall.2 t⟩

/-- An invariant of the steps that satisfy a condition holds after every
    schedule of such steps. -/
theorem run_invariant_along {σ l : Type} {step : σ → l → Option σ} {p : σ → l → Prop}
    {motive : σ → Prop} (hstep : ∀ s label t, motive s → p s label → step s label = some t → motive t)
    {s t : σ} {labels : List l} (hinv : motive s) (halong : Along step p s labels)
    (hrun : run step s labels = some t) : motive t := by
  induction labels generalizing s with
  | nil =>
    obtain rfl := Option.some.inj hrun
    exact hinv
  | cons label labels ih =>
    obtain ⟨next, hnext, hrest⟩ := run_cons_eq_some_iff.mp hrun
    obtain ⟨hp, htail⟩ := along_cons_iff.mp halong
    exact ih (hstep s label next hinv hp hnext) (htail next hnext) hrest

/-- A system whose steps are stutters or steps of a relation, seen through an
    abstraction, is so over whole schedules. -/
theorem run_refines {σ l α : Type} {step : σ → l → Option σ} {inv : σ → Prop} {abs : σ → α}
    {rel : α → α → Prop} (hinv : ∀ s label t, inv s → step s label = some t → inv t)
    (hrefines : ∀ s label t, inv s → step s label = some t → Relation.ReflGen rel (abs s) (abs t))
    {s t : σ} {labels : List l} (hinit : inv s) (hrun : run step s labels = some t) :
    Relation.ReflTransGen rel (abs s) (abs t) := by
  induction labels generalizing s with
  | nil =>
    obtain rfl := Option.some.inj hrun
    exact .refl
  | cons label labels ih =>
    obtain ⟨next, hnext, hrest⟩ := run_cons_eq_some_iff.mp hrun
    exact (hrefines s label next hinit hnext).to_reflTransGen.trans
      (ih (hinv s label next hinit hnext) hrest)

/-- A system each of whose steps is a step of another one with the same label, seen
    through an abstraction, or a stutter when its label is hidden, has only
    schedules of the other one. -/
theorem run_simulates {σ τ l : Type} {step : σ → l → Option σ} {spec : τ → l → Option τ}
    {inv : σ → Prop} {abs : σ → τ} {visible : l → Bool}
    (hinv : ∀ s label t, inv s → step s label = some t → inv t)
    (hvisible : ∀ s label t, inv s → step s label = some t → visible label = true →
      spec (abs s) label = some (abs t))
    (hhidden : ∀ s label t, inv s → step s label = some t → visible label = false → abs t = abs s)
    {s t : σ} {labels : List l} (hinit : inv s) (hrun : run step s labels = some t) :
    run spec (abs s) (labels.filter visible) = some (abs t) := by
  induction labels generalizing s with
  | nil =>
    obtain rfl := Option.some.inj hrun
    rfl
  | cons label labels ih =>
    obtain ⟨next, hnext, hrest⟩ := run_cons_eq_some_iff.mp hrun
    have htail := ih (hinv s label next hinit hnext) hrest
    cases hlabel : visible label with
    | true =>
      rw [List.filter_cons_of_pos hlabel, run_cons_eq_some_iff]
      exact ⟨abs next, hvisible s label next hinit hnext hlabel, htail⟩
    | false =>
      rw [List.filter_cons_of_neg (by simp [hlabel])]
      rwa [hhidden s label next hinit hnext hlabel] at htail

/-- Steps of some kind that come closer to a goal by a measure reach it. -/
theorem exists_run_within {σ l : Type} {step : σ → l → Option σ} (inv goal : σ → Prop) (p : l → Prop)
    (measure : σ → Nat)
    (hprogress : ∀ s, inv s → ¬ goal s →
      ∃ label t, p label ∧ step s label = some t ∧ inv t ∧ measure t < measure s)
    {s : σ} (hinv : inv s) :
    ∃ labels t, run step s labels = some t ∧ inv t ∧ goal t ∧ labels.length ≤ measure s ∧
      ∀ label ∈ labels, p label := by
  induction hsize : measure s using Nat.strongRecOn generalizing s with
  | ind size ih =>
    by_cases hgoal : goal s
    · exact ⟨[], s, rfl, hinv, hgoal, Nat.zero_le _, by simp⟩
    · obtain ⟨label, next, hp, hstep, hnext, hless⟩ := hprogress s hinv hgoal
      obtain ⟨labels, t, hrun, ht, hgoal, hlength, hall⟩ := ih (measure next) (hsize ▸ hless) hnext rfl
      refine ⟨label :: labels, t, run_cons_eq_some_iff.mpr ⟨next, hstep, hrun⟩, ht, hgoal, ?_,
        List.forall_mem_cons.mpr ⟨hp, hall⟩⟩
      rw [List.length_cons]
      omega

theorem exists_run_of_measure {σ l : Type} {step : σ → l → Option σ} (inv goal : σ → Prop)
    (measure : σ → Nat)
    (hprogress : ∀ s, inv s → ¬ goal s →
      ∃ label t, step s label = some t ∧ inv t ∧ measure t < measure s) {s : σ} (hinv : inv s) :
    ∃ labels t, run step s labels = some t ∧ inv t ∧ goal t := by
  obtain ⟨labels, t, hrun, ht, hgoal, _⟩ := exists_run_within inv goal (fun _ => True) measure
    (fun s hs hnot => by
      obtain ⟨label, t, hprogress⟩ := hprogress s hs hnot
      exact ⟨label, t, trivial, hprogress⟩) hinv
  exact ⟨labels, t, hrun, ht, hgoal⟩

/-- A measure that no step increases, and some kind of step decreases, bounds the
    number of these. -/
theorem run_measure {σ l : Type} {step : σ → l → Option σ} (inv : σ → Prop) {measure : σ → Nat}
    {p : l → Bool} (hinv : ∀ s label t, inv s → step s label = some t → inv t)
    (hstep : ∀ s label t, inv s → step s label = some t →
      measure t ≤ measure s - if p label then 1 else 0)
    {s t : σ} {labels : List l} (hinit : inv s) (hrun : run step s labels = some t) :
    measure t ≤ measure s - labels.countP p := by
  induction labels generalizing s with
  | nil =>
    obtain rfl := Option.some.inj hrun
    exact Nat.le_refl _
  | cons label labels ih =>
    obtain ⟨next, hnext, hrest⟩ := run_cons_eq_some_iff.mp hrun
    have hhead := hstep s label next hinit hnext
    have htail := ih (hinv s label next hinit hnext) hrest
    rw [List.countP_cons]
    omega

/-- A measure that one kind of step decreases, and another kind raises by a bounded
    amount, bounds the number of the first by that of the second. -/
theorem run_budget {σ l : Type} {step : σ → l → Option σ} {measure : σ → Nat} {p q : l → Bool}
    {budget : Nat}
    (hstep : ∀ s label t, step s label = some t →
      measure t + (if p label then 1 else 0) ≤ measure s + if q label then budget else 0)
    {s t : σ} {labels : List l} (hrun : run step s labels = some t) :
    measure t + labels.countP p ≤ measure s + budget * labels.countP q := by
  induction labels generalizing s with
  | nil =>
    obtain rfl := Option.some.inj hrun
    exact Nat.le_refl _
  | cons label labels ih =>
    obtain ⟨next, hnext, hrest⟩ := run_cons_eq_some_iff.mp hrun
    have hhead := hstep s label next hnext
    have htail := ih hrest
    have hbudget : budget * (if q label then 1 else 0) = if q label then budget else 0 := by
      split <;> simp
    rw [List.countP_cons, List.countP_cons, Nat.mul_add, hbudget]
    omega

/-- The ranks of all threads of a system. -/
def total {θ : Type} (rank : θ → Nat) : List θ → Nat
  | [] => 0
  | thread :: threads => rank thread + total rank threads

theorem total_set {θ : Type} (rank : θ → Nat) {threads : List θ} {i : Nat} {old : θ}
    (hold : threads[i]? = some old) (new : θ) :
    total rank (threads.set i new) + rank old = total rank threads + rank new := by
  induction threads generalizing i with
  | nil => simp at hold
  | cons thread threads ih =>
    cases i with
    | zero =>
      obtain rfl : thread = old := by simpa using hold
      simp only [total, List.set_cons_zero]
      omega
    | succ i =>
      have htail := ih (by simpa using hold)
      simp only [total, List.set_cons_succ]
      omega

theorem total_replicate {θ : Type} (rank : θ → Nat) (n : Nat) (thread : θ) :
    total rank (List.replicate n thread) = n * rank thread := by
  induction n with
  | zero => simp [total]
  | succ n ih => rw [List.replicate_succ, total, ih, Nat.succ_mul, Nat.add_comm]

/-- The number of steps of a schedule that relate their two states. -/
def tally {σ l : Type} (step : σ → l → Option σ) (p : σ → σ → Bool) : σ → List l → Nat
  | _, [] => 0
  | s, label :: labels =>
    match step s label with
    | none => 0
    | some t => (if p s t then 1 else 0) + tally step p t labels

/-- An invariant that also counts the steps of some kind. -/
theorem run_tally {σ l : Type} {step : σ → l → Option σ} {p : σ → σ → Bool} {motive : Nat → σ → Prop}
    (hstep : ∀ n s label t, motive n s → step s label = some t →
      motive (n + if p s t then 1 else 0) t) {n : Nat} {s t : σ} {labels : List l} (hinv : motive n s)
    (hrun : run step s labels = some t) : motive (n + tally step p s labels) t := by
  induction labels generalizing s n with
  | nil =>
    obtain rfl := Option.some.inj hrun
    exact hinv
  | cons label labels ih =>
    obtain ⟨next, hnext, hrest⟩ := run_cons_eq_some_iff.mp hrun
    have htail := ih (hstep n s label next hinv hnext) hrest
    rw [tally, hnext]
    rwa [Nat.add_assoc] at htail

/-- What the steps of a schedule emit, in order. -/
def trace {σ l α : Type} (step : σ → l → Option σ) (emit : σ → σ → List α) : σ → List l → List α
  | _, [] => []
  | s, label :: labels =>
    match step s label with
    | none => []
    | some t => emit s t ++ trace step emit t labels

/-- An invariant that also speaks of what has been emitted so far. -/
theorem run_trace {σ l α : Type} {step : σ → l → Option σ} {emit : σ → σ → List α}
    {motive : List α → σ → Prop}
    (hstep : ∀ as s label t, motive as s → step s label = some t → motive (as ++ emit s t) t)
    {as : List α} {s t : σ} {labels : List l} (hinv : motive as s) (hrun : run step s labels = some t) :
    motive (as ++ trace step emit s labels) t := by
  induction labels generalizing s as with
  | nil =>
    obtain rfl := Option.some.inj hrun
    rwa [trace, List.append_nil]
  | cons label labels ih =>
    obtain ⟨next, hnext, hrest⟩ := run_cons_eq_some_iff.mp hrun
    have htail := ih (hstep as s label next hinv hnext) hrest
    rw [trace, hnext]
    rwa [List.append_assoc] at htail

end lib.transition
