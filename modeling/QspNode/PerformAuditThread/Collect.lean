import Mathlib.Tactic.Tauto
import QspNode.PerformAuditThread.Entry

open lib.transition qsp.report

namespace qsp.perform_audit_thread

/-- What the status of an entry depends on. -/
structure Cell where
  phase : Phase
  thread : ThreadState
  shared : AnalyzerReport
  flag : Bool
  status : Option String
  alive_at_join : Bool

def cell (i : Nat) (s : State) : Cell :=
  { phase := phase i s.pc
    thread := s.threads i
    shared := s.shared_reports i
    flag := s.timed_out_flags i
    status := (s.local_reports i).status
    alive_at_join := s.alive_at_join i }

def View.cell (v : View) : Cell :=
  { phase := v.phase
    thread := v.thread
    shared := v.shared
    flag := v.flag
    status := v.report.status
    alive_at_join := v.alive_at_join }

/-- Nothing was collected from the analyzer yet: its shared report and its flag
    are those its thread has written. -/
def Cell.Fresh (c : Cell) : Prop :=
  c.thread ≠ .not_started ∧ c.shared = c.thread.shared ∧ c.flag = c.thread.flag

/-- The analyzer counts as timed out: its thread was alive when the join
    returned, or its check raised `TimeoutExpired`. -/
def Cell.TimedOut (c : Cell) : Prop :=
  c.alive_at_join = true ∨ c.thread.outcome.any Outcome.has_timed_out = true

/-- The thread had ended in time, with a result of its own. -/
def Cell.InTime (c : Cell) : Prop :=
  c.alive_at_join = false ∧
    ∃ outcome, c.thread = .ended outcome ∧ outcome.has_timed_out = false ∧
      c.status = outcome.report.status

/-- What holds of one analyzer in every phase; `lost` says that its thread has
    overtaken the main thread. -/
def Cell.Tracks (lost : Prop) (c : Cell) : Prop :=
  match c.phase with
  | .waiting => ¬ lost
  | .started => ¬ lost ∧ c.Fresh
  | .joined =>
    c.Fresh ∧ (c.alive_at_join = false → ∃ outcome, c.thread = .ended outcome) ∧
      (lost ↔ c.alive_at_join = true ∧ c.thread.flag = false ∧ ∃ outcome, c.thread = .ended outcome)
  | .collected =>
    c.status ≠ some "timeout" ∧
      ((c.flag = true ∧ ¬ lost ∧ c.TimedOut) ∨ (c.flag = false ∧ ¬ lost ∧ c.InTime) ∨
        (c.flag = false ∧ lost ∧ c.alive_at_join = true ∧ c.thread.has_written = true))
  | .reported =>
    (¬ lost ∧ c.TimedOut ∧ c.status = some "timeout") ∨ (¬ lost ∧ c.InTime) ∨
      (lost ∧ c.alive_at_join = true ∧ c.status ≠ some "timeout")

theorem tracks_init (i : Nat) : (cell i State.init).Tracks False := by
  simp [Cell.Tracks, cell, phase, State.init]

theorem report_status_ne_timeout (outcome : Outcome) : outcome.report.status ≠ some "timeout" := by
  cases outcome with
  | returned report =>
    intro htimeout
    have hknown := report.status_known
    rw [Outcome.report] at htimeout
    simp [htimeout, AUDIT_STATUS_SUCCESS, AUDIT_STATUS_ERROR] at hknown
  | timed_out => simp [Outcome.report]
  | raised message => simp [Outcome.report]

theorem shared_status_ne_timeout (t : ThreadState) : t.shared.status ≠ some "timeout" := by
  cases t with
  | written outcome => exact report_status_ne_timeout outcome
  | ended outcome => exact report_status_ne_timeout outcome
  | _ => simp [ThreadState.shared, empty_report]

section
attribute [local simp] Cell.Tracks Cell.Fresh Cell.TimedOut Cell.InTime ThreadState.shared
  ThreadState.flag ThreadState.outcome ThreadState.is_alive ThreadState.has_written

theorem tracks_check {lost : Prop} {c : Cell} {outcome : Outcome} (htracks : c.Tracks lost)
    (hthread : c.thread = .checking) : Cell.Tracks lost { c with thread := .checked outcome } := by
  obtain ⟨phase, thread, shared, flag, status, alive⟩ := c
  obtain rfl : thread = .checking := hthread
  cases phase <;> simp_all
  all_goals tauto

/-- A write after the locked section overwrites the flag, unless it sets it
    again. -/
theorem tracks_write {lost : Prop} {c : Cell} {outcome : Outcome} (htracks : c.Tracks lost)
    (hthread : c.thread = .checked outcome) :
    Cell.Tracks (lost ∨ c.phase = .collected ∧ outcome.has_timed_out = false)
      { c with
        thread := .written outcome
        shared := outcome.report
        flag := outcome.has_timed_out } := by
  obtain ⟨phase, thread, shared, flag, status, alive⟩ := c
  obtain rfl : thread = .checked outcome := hthread
  cases phase <;> cases htimed : outcome.has_timed_out <;> simp_all

theorem tracks_finish {lost : Prop} {c : Cell} {outcome : Outcome} (htracks : c.Tracks lost)
    (hthread : c.thread = .written outcome) :
    Cell.Tracks (lost ∨ c.phase = .joined ∧ c.thread.flag = false)
      { c with thread := .ended outcome } := by
  obtain ⟨phase, thread, shared, flag, status, alive⟩ := c
  obtain rfl : thread = .written outcome := hthread
  cases phase <;> cases htimed : outcome.has_timed_out <;> simp_all
  all_goals tauto

theorem tracks_start {lost : Prop} {c : Cell} (htracks : c.Tracks lost) (hphase : c.phase = .waiting) :
    Cell.Tracks lost
      { c with
        phase := .started
        thread := .checking
        shared := empty_report
        flag := false
        status := none } := by
  obtain ⟨phase, thread, shared, flag, status, alive⟩ := c
  obtain rfl : phase = .waiting := hphase
  simpa using htracks

theorem tracks_join {lost : Prop} {c : Cell} (htracks : c.Tracks lost) (hphase : c.phase = .started) :
    Cell.Tracks lost { c with phase := .joined, alive_at_join := c.thread.is_alive } := by
  obtain ⟨phase, thread, shared, flag, status, alive⟩ := c
  obtain rfl : phase = .started := hphase
  cases thread <;> simp_all

/-- The locked section: a thread that still runs is flagged, one that has ended
    has left its own flag. -/
theorem tracks_collect {lost : Prop} {c : Cell} (htracks : c.Tracks lost) (hphase : c.phase = .joined) :
    Cell.Tracks lost
      { c with
        phase := .collected
        status := c.shared.status
        flag := c.thread.is_alive || c.flag } := by
  obtain ⟨phase, thread, shared, flag, status, alive⟩ := c
  obtain rfl : phase = .joined := hphase
  have hshared : shared = thread.shared := htracks.1.2.1
  have hstatus : shared.status ≠ some "timeout" := by
    rw [hshared]
    exact shared_status_ne_timeout thread
  cases thread with
  | ended outcome => cases alive <;> cases htimed : outcome.has_timed_out <;> simp_all
  | _ => cases alive <;> simp_all

theorem tracks_report {lost : Prop} {c : Cell} (htracks : c.Tracks lost) (hphase : c.phase = .collected) :
    Cell.Tracks lost
      { c with phase := .reported, status := if c.flag then some "timeout" else c.status } := by
  obtain ⟨phase, thread, shared, flag, status, alive⟩ := c
  obtain rfl : phase = .collected := hphase
  obtain ⟨hstatus, ⟨hflag, hkept, htimed⟩ | ⟨hflag, hkept, hintime⟩ | ⟨hflag, hlost, halive, _⟩⟩ :=
    htracks
  · obtain rfl : flag = true := hflag
    exact Or.inl ⟨hkept, htimed, rfl⟩
  · obtain rfl : flag = false := hflag
    exact Or.inr (Or.inl ⟨hkept, hintime⟩)
  · obtain rfl : flag = false := hflag
    exact Or.inr (Or.inr ⟨hlost, halive, hstatus⟩)

end

theorem moves_tracks {analyzer : Analyzer} {lost overtakes : Prop} {v w : View}
    (htracks : v.cell.Tracks lost) (hmoves : v.Moves analyzer overtakes w) :
    w.cell.Tracks (lost ∨ overtakes) := by
  cases hmoves with
  | stays => rwa [or_false]
  | starts hphase =>
    rw [or_false]
    exact tracks_start htracks hphase
  | joins hphase =>
    rw [or_false]
    exact tracks_join htracks hphase
  | collects hphase =>
    rw [or_false]
    exact tracks_collect htracks hphase
  | names start_time hphase => rwa [or_false]
  | reports now hphase =>
    rw [or_false]
    have hreported := tracks_report htracks hphase
    cases hflag : v.flag <;> simpa [View.cell, View.finished, hflag, timeout_report] using hreported
  | checks outcome hthread =>
    rw [or_false]
    exact tracks_check htracks hthread
  | writes outcome hthread => exact tracks_write htracks hthread
  | finishes outcome hthread => exact tracks_finish htracks hthread

theorem step_tracks {analyzers : List Analyzer} {i : Nat} (hi : i < analyzers.length) {lost : Prop}
    {s t : State} {label : Label} (htracks : (cell i s).Tracks lost)
    (hstep : step analyzers s label = some t) :
    (cell i t).Tracks (lost ∨ Overtakes i s label) :=
  moves_tracks htracks (step_view (List.getElem?_eq_getElem hi) hstep)

/-- The entry of an analyzer carries its metadata once this was read. -/
def Named (analyzers : List Analyzer) (i : Nat) (s : State) : Prop :=
  phase i s.pc = .reported ∨ s.pc = .reporting i →
    (s.local_reports i).analyzer = analyzers[i]?.map Analyzer.metadata

theorem step_named {analyzers : List Analyzer} {i : Nat} (hi : i < analyzers.length) {s t : State}
    {label : Label} (hnamed : Named analyzers i s) (hstep : step analyzers s label = some t) :
    Named analyzers i t := by
  have hframe {t : State} (hpc : t.pc = s.pc) (hlocal : t.local_reports i = s.local_reports i) :
      Named analyzers i t := by
    rw [Named, hpc, hlocal]
    exact hnamed
  cases label with
  | check j outcome | write j | finish j =>
    simp only [step] at hstep
    split at hstep
    · exact Option.some.inj hstep ▸ hframe rfl rfl
    · cases hstep
  | collector now =>
    simp only [step, collector_step] at hstep
    unfold Named at hnamed ⊢
    cases hpc : s.pc with
    | starting j =>
      simp only [hpc] at hstep
      split at hstep
      · obtain rfl := Option.some.inj hstep
        rintro (hphase | hphase)
        · grind [phase]
        · cases hphase
      · obtain rfl := Option.some.inj hstep
        simp [phase]
    | joining j =>
      simp only [hpc] at hstep hnamed
      split at hstep
      · obtain rfl := Option.some.inj hstep
        rintro (hphase | hphase)
        · exact hnamed (Or.inl (by grind [phase]))
        · cases hphase
      · obtain rfl := Option.some.inj hstep
        intro _
        exact hnamed (Or.inl (by grind [phase]))
    | collecting j =>
      simp only [hpc] at hstep hnamed
      obtain rfl := Option.some.inj hstep
      rintro (hphase | hphase)
      · have hij : i < j := by grind [phase]
        simpa [Function.update_of_ne (Nat.ne_of_lt hij)] using hnamed (Or.inl (by simp [phase, hij]))
      · cases hphase
    | reading_metadata j =>
      simp only [hpc] at hstep hnamed
      obtain ⟨analyzer, hanalyzer, rfl⟩ := Option.map_eq_some_iff.mp hstep
      rintro (hphase | hphase)
      · have hij : i < j := by grind [phase]
        simpa [Function.update_of_ne (Nat.ne_of_lt hij)] using hnamed (Or.inl (by simp [phase, hij]))
      · obtain rfl : j = i := Pc.reporting.inj hphase
        simp [hanalyzer]
    | reporting j =>
      simp only [hpc] at hstep hnamed
      obtain ⟨analyzer, hanalyzer, rfl⟩ := Option.map_eq_some_iff.mp hstep
      rintro (hphase | hphase)
      · have hij : i ≤ j := by grind [phase]
        rcases Nat.eq_or_lt_of_le hij with rfl | hij
        · have hname := hnamed (Or.inr rfl)
          cases hflag : s.timed_out_flags i <;> simpa [hflag, timeout_report] using hname
        · simpa [Function.update_of_ne (Nat.ne_of_lt hij)] using hnamed (Or.inl (by simp [phase, hij]))
      · cases hphase
    | done => simp [hpc] at hstep

/-- The status an entry should have. -/
def Outcome.status : Outcome → String
  | .timed_out => "timeout"
  | .raised _ => "error"
  | .returned report => if report.report.status = some "success" then "success" else "error"

def expected_status (i : Nat) (s : State) : String :=
  if s.alive_at_join i then "timeout"
  else ((s.threads i).outcome.map Outcome.status).getD "timeout"

theorem fail_safe_status (analyzer : Analyzer) (report : AnalyzerReport) :
    (fail_safe analyzer report).status = some (report.status.getD "error") := by
  unfold fail_safe
  cases hanalyzer : report.analyzer <;> cases hstatus : report.status <;> simp [hstatus]

theorem fail_safe_analyzer (analyzer : Analyzer) (report : AnalyzerReport) :
    (fail_safe analyzer report).analyzer =
      some (report.analyzer.getD { name := some analyzer.analyzer_name, version := none }) := by
  unfold fail_safe
  cases hanalyzer : report.analyzer <;> cases hstatus : report.status <;> simp [hanalyzer, hstatus]

theorem Outcome.report_status {outcome : Outcome} (hintime : outcome.has_timed_out = false) :
    outcome.report.status.getD "error" = outcome.status := by
  cases outcome with
  | timed_out => cases hintime
  | raised message => rfl
  | returned report =>
    have hknown := report.status_known
    simp only [List.mem_cons, List.not_mem_nil, or_false] at hknown
    rw [Outcome.report, Outcome.status]
    rcases hknown with hnone | hsuccess | herror
    · simp [hnone]
    · simp [hsuccess, AUDIT_STATUS_SUCCESS]
    · simp [herror, AUDIT_STATUS_ERROR]

/-- A collected entry has the status it should have exactly when its thread has
    not overtaken the main thread. -/
theorem reported_status_iff {i : Nat} {lost : Prop} {s : State} (htracks : (cell i s).Tracks lost)
    (hphase : phase i s.pc = .reported) :
    (s.local_reports i).status.getD "error" = expected_status i s ↔ ¬ lost := by
  simp only [Cell.Tracks, cell, hphase] at htracks
  unfold expected_status
  rcases htracks with ⟨hkept, htimed, hstatus⟩ | ⟨hkept, halive, outcome, hthread, hintime, hstatus⟩ |
    ⟨hlost, halive, hstatus⟩
  · refine iff_of_true ?_ hkept
    rw [hstatus, Option.getD_some]
    rcases htimed with halive | hexpired
    · rw [if_pos halive]
    · cases houtcome : (s.threads i).outcome with
      | none => simp
      | some outcome =>
        cases outcome with
        | timed_out => simp [Outcome.status]
        | _ => simp [houtcome, Outcome.has_timed_out] at hexpired
  · refine iff_of_true ?_ hkept
    rw [show s.alive_at_join i = false from halive, show s.threads i = .ended outcome from hthread,
      show (s.local_reports i).status = outcome.report.status from hstatus,
      Outcome.report_status hintime]
    rfl
  · refine iff_of_false ?_ (not_not_intro hlost)
    rw [if_pos halive]
    cases hentry : (s.local_reports i).status with
    | none => decide
    | some status =>
      rw [hentry] at hstatus
      simpa using hstatus

/-- After every run the report has one entry per analyzer in configuration
    order and the label that the entries call for. The entries have the status
    they should have exactly when no thread has overtaken the main thread. -/
theorem get_audit_report_from_analyzers_iff (analyzers : List Analyzer) (labels : List Label)
    {s : State} (hrun : run (step analyzers) State.init labels = some s) (hdone : s.pc = .done) :
    ∃ entries : List AnalyzerReport,
      (audit_report analyzers s).analyzers_reports = (if entries = [] then none else some entries) ∧
      entries.map AnalyzerReport.analyzer = analyzers.map (fun a => some a.metadata) ∧
      ((audit_report analyzers s).audit_state, (audit_report analyzers s).status) =
        (if (∃ e ∈ entries, e.status = some "success") ∧ ∀ e ∈ entries, e.status ≠ some "error" then
          (4, "success") else (5, "error")) ∧
      (entries.map AnalyzerReport.status =
          (List.range analyzers.length).map (fun i => some (expected_status i s)) ↔
        ¬ ∃ i < analyzers.length, Occurs (step analyzers) (Overtakes i) State.init labels) := by
  have htracks (i : Nat) (hi : i < analyzers.length) :
      (cell i s).Tracks (Occurs (step analyzers) (Overtakes i) State.init labels) := by
    have hmonitor := run_monitor (motive := fun lost s => (cell i s).Tracks lost)
      (fun _ _ _ _ => step_tracks hi) (tracks_init i) hrun
    rwa [false_or] at hmonitor
  have hnamed (i : Nat) (hi : i < analyzers.length) : Named analyzers i s :=
    run_invariant (fun _ _ _ => step_named hi) (by simp [Named, phase, State.init]) hrun
  have hphase (i : Nat) : phase i s.pc = .reported := by
    rw [hdone]
    rfl
  have hlength : (List.zipWith fail_safe analyzers
      ((List.range analyzers.length).map s.local_reports)).length = analyzers.length := by simp
  refine ⟨List.zipWith fail_safe analyzers ((List.range analyzers.length).map s.local_reports),
    ?_, ?_, ?_, ?_⟩
  · simp only [audit_report, compute_audit_result, gt_iff_lt, List.length_pos_iff]
    split <;> simp_all
  · apply List.ext_getElem (by simp)
    intro i hi _
    rw [List.length_map, hlength] at hi
    have hname := hnamed i hi (Or.inl (hphase i))
    rw [List.getElem?_eq_getElem hi, Option.map_some] at hname
    simp [fail_safe_analyzer, hname]
  · exact result_loop_label _
  · rw [not_exists, List.ext_getElem_iff]
    simp only [List.length_map, List.length_range, hlength, List.getElem_map, List.getElem_zipWith,
      List.getElem_range, fail_safe_status, Option.some.injEq, true_and]
    constructor
    · rintro hstatus i ⟨hi, hlost⟩
      exact (reported_status_iff (htracks i hi) (hphase i)).mp (hstatus i hi hi) hlost
    · intro hkept i hi _
      exact (reported_status_iff (htracks i hi) (hphase i)).mpr (fun hlost => hkept i ⟨hi, hlost⟩)

def securify : Analyzer :=
  { analyzer_name := "securify"
    timeout_sec := 60
    metadata := { name := some "Securify", version := none } }

def success_outcome : Outcome :=
  .returned
    { report := { empty_report with status := some "success" }
      status_known := by simp [AUDIT_STATUS_SUCCESS] }

/-- The thread ends before its join. -/
theorem get_audit_report_from_analyzers_in_time :
    ∃ s entries, run (step [securify]) State.init
        [.collector 0, .check 0 success_outcome, .write 0, .finish 0, .collector 1, .collector 2,
          .collector 3, .collector 4, .collector 5, .collector 6] = some s ∧
      (audit_report [securify] s).analyzers_reports = (if entries = [] then none else some entries) ∧
      entries.map AnalyzerReport.analyzer = [some securify.metadata] := by
  obtain ⟨entries, hreports, hanalyzers, _⟩ := get_audit_report_from_analyzers_iff [securify]
    [.collector 0, .check 0 success_outcome, .write 0, .finish 0, .collector 1, .collector 2,
      .collector 3, .collector 4, .collector 5, .collector 6] rfl rfl
  exact ⟨_, entries, rfl, hreports, hanalyzers⟩

/-- The thread writes while the main thread reads the metadata: the entry of an
    analyzer that was alive when its join returned becomes an error. -/
theorem get_audit_report_from_analyzers_overtaken :
    ∃ s entries, run (step [securify]) State.init
        [.collector 0, .collector 1, .collector 2, .check 0 success_outcome, .collector 3, .write 0,
          .collector 4, .collector 5, .collector 6] = some s ∧
      s.pc = .done ∧ (audit_report [securify] s).analyzers_reports = some entries ∧
      entries.map AnalyzerReport.status ≠
        (List.range 1).map (fun i => some (expected_status i s)) :=
  ⟨_, _, rfl, rfl, rfl, by decide⟩

end qsp.perform_audit_thread
