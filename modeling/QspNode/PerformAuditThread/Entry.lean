import QspNode.PerformAuditThread.Analyzers

open qsp.report

namespace qsp.perform_audit_thread

/-- How far the main thread has come with one analyzer. -/
inductive Phase where
  | waiting
  | started
  | joined
  | collected
  | reported

def phase (i : Nat) : Pc → Phase
  | .starting j => if i < j then .started else .waiting
  | .joining j => if i < j then .reported else .started
  | .collecting j => if i < j then .reported else if i = j then .joined else .started
  | .reading_metadata j | .reporting j =>
    if i < j then .reported else if i = j then .collected else .started
  | .done => .reported

/-- The report an analyzer thread has shared so far. -/
def ThreadState.shared : ThreadState → AnalyzerReport
  | .written outcome | .ended outcome => outcome.report
  | .not_started | .checking | .checked _ => empty_report

def ThreadState.flag : ThreadState → Bool
  | .written outcome | .ended outcome => outcome.has_timed_out
  | .not_started | .checking | .checked _ => false

def ThreadState.has_written : ThreadState → Bool
  | .written _ | .ended _ => true
  | .not_started | .checking | .checked _ => false

/-- The thread of an analyzer overtakes the main thread: it ends between its
    join and the locked section, or writes between the locked section and the
    reading of its flag. -/
def Overtakes (i : Nat) (s : State) : Label → Prop
  | .finish j => j = i ∧ s.pc = .collecting i ∧ (s.threads i).flag = false
  | .write j => j = i ∧ (s.pc = .reading_metadata i ∨ s.pc = .reporting i) ∧
      ∃ outcome, s.threads i = .checked outcome ∧ outcome.has_timed_out = false
  | .collector _ | .check _ _ => False

/-- The part of the state that concerns one analyzer. -/
structure View where
  phase : Phase
  thread : ThreadState
  shared : AnalyzerReport
  flag : Bool
  report : AnalyzerReport
  alive_at_join : Bool

def view (i : Nat) (s : State) : View :=
  { phase := phase i s.pc
    thread := s.threads i
    shared := s.shared_reports i
    flag := s.timed_out_flags i
    report := s.local_reports i
    alive_at_join := s.alive_at_join i }

/-- The entry of an analyzer as the main thread leaves it. -/
def View.finished (analyzer : Analyzer) (v : View) (now : Int) : AnalyzerReport :=
  { (if v.flag then timeout_report analyzer v.report else v.report) with end_time := some now }

/-- What a step can do to one analyzer; the proposition says whether its thread
    overtakes the main thread. -/
inductive View.Moves (analyzer : Analyzer) (v : View) : Prop → View → Prop where
  | stays : View.Moves analyzer v False v
  | starts (hphase : v.phase = .waiting) :
    View.Moves analyzer v False
      { v with
        phase := .started
        thread := .checking
        shared := empty_report
        flag := false
        report := empty_report }
  | joins (hphase : v.phase = .started) :
    View.Moves analyzer v False { v with phase := .joined, alive_at_join := v.thread.is_alive }
  | collects (hphase : v.phase = .joined) :
    View.Moves analyzer v False
      { v with phase := .collected, report := v.shared, flag := v.thread.is_alive || v.flag }
  | names (start_time : Int) (hphase : v.phase = .collected) :
    View.Moves analyzer v False
      { v with
        report := { v.report with analyzer := some analyzer.metadata, start_time := some start_time } }
  | reports (now : Int) (hphase : v.phase = .collected) :
    View.Moves analyzer v False { v with phase := .reported, report := v.finished analyzer now }
  | checks (outcome : Outcome) (hthread : v.thread = .checking) :
    View.Moves analyzer v False { v with thread := .checked outcome }
  | writes (outcome : Outcome) (hthread : v.thread = .checked outcome) :
    View.Moves analyzer v (v.phase = .collected ∧ outcome.has_timed_out = false)
      { v with
        thread := .written outcome
        shared := outcome.report
        flag := outcome.has_timed_out }
  | finishes (outcome : Outcome) (hthread : v.thread = .written outcome) :
    View.Moves analyzer v (v.phase = .joined ∧ v.thread.flag = false)
      { v with thread := .ended outcome }

theorem phase_eq_joined_iff {i : Nat} {pc : Pc} : phase i pc = .joined ↔ pc = .collecting i := by
  cases pc with
  | collecting j => grind [phase]
  | _ => grind [phase]

theorem phase_eq_collected_iff {i : Nat} {pc : Pc} :
    phase i pc = .collected ↔ pc = .reading_metadata i ∨ pc = .reporting i := by
  cases pc with
  | _ => grind [phase]

section
variable {analyzers : List Analyzer} {analyzer : Analyzer} {i : Nat} {s t : State}

theorem view_moves_of_eq (heq : view i t = view i s) : (view i s).Moves analyzer False (view i t) := by
  rw [heq]
  exact .stays

theorem collector_step_view (hanalyzer : analyzers[i]? = some analyzer) {now : Int}
    (hstep : collector_step analyzers now s = some t) :
    (view i s).Moves analyzer False (view i t) := by
  have hi : i < analyzers.length := (List.getElem?_eq_some_iff.mp hanalyzer).1
  unfold collector_step at hstep
  cases hpc : s.pc with
  | starting j =>
    simp only [hpc] at hstep
    split at hstep
    · obtain rfl := Option.some.inj hstep
      by_cases hji : j = i
      · subst hji
        have hmoves := @View.Moves.starts analyzer (view j s)
        simpa [view, hpc, phase] using hmoves
      · apply view_moves_of_eq
        simp [view, hpc, phase, Function.update_of_ne (Ne.symm hji), show i < j + 1 ↔ i < j by omega]
    · obtain rfl := Option.some.inj hstep
      have hij : i < j := by omega
      apply view_moves_of_eq
      simp [view, hpc, phase, hij]
  | joining j =>
    simp only [hpc] at hstep
    split at hstep
    · obtain rfl := Option.some.inj hstep
      by_cases hji : j = i
      · subst hji
        have hmoves := @View.Moves.joins analyzer (view j s)
        simpa [view, hpc, phase] using hmoves
      · apply view_moves_of_eq
        simp [view, hpc, phase, Ne.symm hji]
    · obtain rfl := Option.some.inj hstep
      have hij : i < j := by omega
      apply view_moves_of_eq
      simp [view, hpc, phase, hij]
  | collecting j =>
    simp only [hpc] at hstep
    obtain rfl := Option.some.inj hstep
    by_cases hji : j = i
    · subst hji
      have hmoves := @View.Moves.collects analyzer (view j s)
      simpa [view, hpc, phase] using hmoves
    · apply view_moves_of_eq
      simp [view, hpc, phase, Ne.symm hji]
  | reading_metadata j =>
    simp only [hpc] at hstep
    obtain ⟨other, hother, rfl⟩ := Option.map_eq_some_iff.mp hstep
    by_cases hji : j = i
    · subst hji
      obtain rfl : analyzer = other := Option.some.inj (hanalyzer.symm.trans hother)
      have hmoves := @View.Moves.names analyzer (view j s) (s.start_times j)
      simpa [view, hpc, phase] using hmoves
    · apply view_moves_of_eq
      simp [view, hpc, phase, Function.update_of_ne (Ne.symm hji)]
  | reporting j =>
    simp only [hpc] at hstep
    obtain ⟨other, hother, rfl⟩ := Option.map_eq_some_iff.mp hstep
    by_cases hji : j = i
    · subst hji
      obtain rfl : analyzer = other := Option.some.inj (hanalyzer.symm.trans hother)
      have hmoves := @View.Moves.reports analyzer (view j s) now
      simpa [view, hpc, phase, View.finished] using hmoves
    · apply view_moves_of_eq
      simp [view, hpc, phase, Ne.symm hji, show i < j + 1 ↔ i < j by omega]
  | done => simp [hpc] at hstep

/-- One step of the system, as far as one analyzer is concerned. -/
theorem step_view (hanalyzer : analyzers[i]? = some analyzer) {label : Label}
    (hstep : step analyzers s label = some t) :
    (view i s).Moves analyzer (Overtakes i s label) (view i t) := by
  cases label with
  | collector now => exact collector_step_view hanalyzer hstep
  | check j outcome =>
    simp only [step] at hstep
    split at hstep
    · next hthread =>
      obtain rfl := Option.some.inj hstep
      by_cases hji : j = i
      · subst hji
        have hmoves := @View.Moves.checks analyzer (view j s) outcome hthread
        simpa [view, Overtakes] using hmoves
      · apply view_moves_of_eq
        simp [view, Function.update_of_ne (Ne.symm hji)]
    · cases hstep
  | write j =>
    simp only [step] at hstep
    split at hstep
    · next outcome hthread =>
      obtain rfl := Option.some.inj hstep
      by_cases hji : j = i
      · subst hji
        have hmoves := @View.Moves.writes analyzer (view j s) outcome hthread
        simpa [view, Overtakes, phase_eq_collected_iff, hthread] using hmoves
      · have hkept : ¬ Overtakes i s (.write j) := fun hovertakes => hji hovertakes.1
        rw [eq_false hkept]
        apply view_moves_of_eq
        simp [view, Function.update_of_ne (Ne.symm hji)]
    · cases hstep
  | finish j =>
    simp only [step] at hstep
    split at hstep
    · next outcome hthread =>
      obtain rfl := Option.some.inj hstep
      by_cases hji : j = i
      · subst hji
        have hmoves := @View.Moves.finishes analyzer (view j s) outcome hthread
        simpa [view, Overtakes, phase_eq_joined_iff] using hmoves
      · have hkept : ¬ Overtakes i s (.finish j) := fun hovertakes => hji hovertakes.1
        rw [eq_false hkept]
        apply view_moves_of_eq
        simp [view, Function.update_of_ne (Ne.symm hji)]
    · cases hstep

end

end qsp.perform_audit_thread
