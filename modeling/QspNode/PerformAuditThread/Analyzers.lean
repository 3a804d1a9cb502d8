import Mathlib.Logic.Function.Basic
import QspNode.Lib.Transition
import QspNode.Report

open qsp.report

namespace qsp.perform_audit_thread

def AUDIT_STATE_SUCCESS : Int := 4
def AUDIT_STATE_ERROR : Int := 5
def AUDIT_STATUS_ERROR : String := "error"
def AUDIT_STATUS_SUCCESS : String := "success"

/-- What the collecting loop reads of a configured analyzer. -/
structure Analyzer where
  analyzer_name : String
  timeout_sec : Int
  metadata : AnalyzerMetadata

/-- The JSON of a wrapper. The status is set by the wrapper's script. -/
structure WrapperReport where
  report : AnalyzerReport
  status_known : report.status ∈ [none, some AUDIT_STATUS_SUCCESS, some AUDIT_STATUS_ERROR]

/-- How `Analyzer.check` ends. -/
inductive Outcome where
  | returned (report : WrapperReport)
  | timed_out
  | raised (message : String)

def empty_report : AnalyzerReport :=
  { analyzer := none
    status := none
    start_time := none
    end_time := none
    errors := none
    potential_vulnerabilities := none }

/-- The report `check_contract` saves. An exception leaves an empty report, of
    which only the status is set: the list its text is appended to is dropped. -/
def Outcome.report : Outcome → AnalyzerReport
  | .returned report => report.report
  | .timed_out | .raised _ => { empty_report with status := some "error" }

def Outcome.has_timed_out : Outcome → Bool
  | .timed_out => true
  | .returned _ | .raised _ => false

/-- An analyzer thread: it checks, writes under its lock and ends. -/
inductive ThreadState where
  | not_started
  | checking
  | checked (outcome : Outcome)
  | written (outcome : Outcome)
  | ended (outcome : Outcome)

def ThreadState.is_alive : ThreadState → Bool
  | .not_started | .ended _ => false
  | .checking | .checked _ | .written _ => true

def ThreadState.outcome : ThreadState → Option Outcome
  | .not_started | .checking => none
  | .checked outcome | .written outcome | .ended outcome => some outcome

/-- Where `get_audit_report_from_analyzers` stands. -/
inductive Pc where
  | starting (i : Nat)
  | joining (i : Nat)
  | collecting (i : Nat)
  | reading_metadata (i : Nat)
  | reporting (i : Nat)
  | done
  deriving DecidableEq

/-- The lists of `get_audit_report_from_analyzers`, by analyzer. What the join
    of a thread found is kept for the statements below; the code does not read
    it. -/
structure State where
  pc : Pc
  threads : Nat → ThreadState
  shared_reports : Nat → AnalyzerReport
  timed_out_flags : Nat → Bool
  local_reports : Nat → AnalyzerReport
  start_times : Nat → Int
  alive_at_join : Nat → Bool

inductive Label where
  | collector (now : Int)
  | check (i : Nat) (outcome : Outcome)
  | write (i : Nat)
  | finish (i : Nat)

def State.init : State :=
  { pc := .starting 0
    threads := fun _ => .not_started
    shared_reports := fun _ => empty_report
    timed_out_flags := fun _ => false
    local_reports := fun _ => empty_report
    start_times := fun _ => 0
    alive_at_join := fun _ => false }

/-- The entry of an analyzer whose flag is set. -/
def timeout_report (analyzer : Analyzer) (report : AnalyzerReport) : AnalyzerReport :=
  { report with
    errors := some (report.errors.getD [] ++
      [s!"Time out occurred. Could not finish {analyzer.analyzer_name} within {analyzer.timeout_sec} seconds"])
    status := some "timeout" }

/-- One step of the main thread. A join returns when its thread has ended or
    its time is over, so it is always enabled. -/
def collector_step (analyzers : List Analyzer) (now : Int) (s : State) : Option State :=
  match s.pc with
  | .starting i =>
    if i < analyzers.length then
      some { s with
        pc := .starting (i + 1)
        threads := Function.update s.threads i .checking
        shared_reports := Function.update s.shared_reports i empty_report
        timed_out_flags := Function.update s.timed_out_flags i false
        local_reports := Function.update s.local_reports i empty_report
        start_times := Function.update s.start_times i now }
    else some { s with pc := .joining 0 }
  | .joining i =>
    if i < analyzers.length then
      some { s with
        pc := .collecting i
        alive_at_join := Function.update s.alive_at_join i (s.threads i).is_alive }
    else some { s with pc := .done }
  | .collecting i =>
    some { s with
      pc := .reading_metadata i
      local_reports := Function.update s.local_reports i (s.shared_reports i)
      timed_out_flags := Function.update s.timed_out_flags i
        (if (s.threads i).is_alive then true else s.timed_out_flags i) }
  | .reading_metadata i =>
    analyzers[i]?.map (fun analyzer =>
      { s with
        pc := .reporting i
        local_reports := Function.update s.local_reports i
          { s.local_reports i with
            analyzer := some analyzer.metadata
            start_time := some (s.start_times i) } })
  | .reporting i =>
    analyzers[i]?.map (fun analyzer =>
      let report := if s.timed_out_flags i then timeout_report analyzer (s.local_reports i)
        else s.local_reports i
      { s with
        pc := .joining (i + 1)
        local_reports := Function.update s.local_reports i { report with end_time := some now } })
  | .done => none

/-- The steps of the main thread and of the analyzer threads; a section under a
    lock is one step. -/
def step (analyzers : List Analyzer) (s : State) : Label → Option State
  | .collector now => collector_step analyzers now s
  | .check i outcome =>
    match s.threads i with
    | .checking => some { s with threads := Function.update s.threads i (.checked outcome) }
    | _ => none
  | .write i =>
    match s.threads i with
    | .checked outcome =>
      some { s with
        threads := Function.update s.threads i (.written outcome)
        shared_reports := Function.update s.shared_reports i outcome.report
        timed_out_flags := Function.update s.timed_out_flags i outcome.has_timed_out }
    | _ => none
  | .finish i =>
    match s.threads i with
    | .written outcome => some { s with threads := Function.update s.threads i (.ended outcome) }
    | _ => none

/-- The fail safe checks of `__compute_audit_result` on one entry. -/
def fail_safe (analyzer : Analyzer) (report : AnalyzerReport) : AnalyzerReport :=
  let report := match report.analyzer with
    | none =>
      { report with analyzer := some { name := some analyzer.analyzer_name, version := none } }
    | some _ => report
  match report.status with
  | none =>
    { report with
      status := some "error"
      errors := some (report.errors.getD [] ++ ["Unknown error: cannot produce report"]) }
  | some _ => report

/-- The loop of `__compute_audit_result`. -/
def result_loop (audit_state : Int) (audit_status : String) (has_successful_analyzer : Bool) :
    List AnalyzerReport → Int × String
  | [] =>
    if has_successful_analyzer then (audit_state, audit_status)
    else (AUDIT_STATE_ERROR, AUDIT_STATUS_ERROR)
  | report :: reports =>
    let failed : Bool := report.status = some "error"
    result_loop (if failed then AUDIT_STATE_ERROR else audit_state)
      (if failed then AUDIT_STATUS_ERROR else audit_status)
      (has_successful_analyzer || report.status = some "success") reports

/-- `PerformAuditThread.__compute_audit_result`, with the entries as it leaves
    them. -/
def compute_audit_result (analyzers : List Analyzer) (local_reports : List AnalyzerReport) :
    (Int × String) × List AnalyzerReport :=
  let reports := List.zipWith fail_safe analyzers local_reports
  (result_loop AUDIT_STATE_SUCCESS AUDIT_STATUS_SUCCESS false reports, reports)

/-- The parts of the audit report that depend on the analyzers. -/
structure AuditReport where
  audit_state : Int
  status : String
  analyzers_reports : Option (List AnalyzerReport)
  deriving DecidableEq

/-- What `get_audit_report_from_analyzers` returns once the loops are done. -/
def audit_report (analyzers : List Analyzer) (s : State) : AuditReport :=
  let local_reports := (List.range analyzers.length).map s.local_reports
  let ((audit_state, status), reports) := compute_audit_result analyzers local_reports
  { audit_state
    status
    analyzers_reports := if reports.length > 0 then some reports else none }

/-- A report counts as a success if and only if an analyzer succeeded and none
    failed. -/
theorem result_loop_eq (audit_state : Int) (audit_status : String) (has_successful_analyzer : Bool)
    (reports : List AnalyzerReport) :
    result_loop audit_state audit_status has_successful_analyzer reports =
      if has_successful_analyzer = false ∧ (∀ r ∈ reports, r.status ≠ some "success") ∨
          ∃ r ∈ reports, r.status = some "error" then
        (AUDIT_STATE_ERROR, AUDIT_STATUS_ERROR)
      else (audit_state, audit_status) := by
  induction reports generalizing audit_state audit_status has_successful_analyzer with
  | nil => cases has_successful_analyzer <;> simp [result_loop]
  | cons report reports ih =>
    rw [result_loop, ih]
    by_cases herror : report.status = some "error"
    · simp [herror]
    · by_cases hsuccess : report.status = some "success"
      · simp [hsuccess]
      · simp [herror, hsuccess]

/-- The comment of `__compute_audit_result`: a report is labelled a success if
    and only if at least one analyzer succeeds and none returns an error. -/
theorem result_loop_label (reports : List AnalyzerReport) :
    result_loop AUDIT_STATE_SUCCESS AUDIT_STATUS_SUCCESS false reports =
      if (∃ r ∈ reports, r.status = some "success") ∧ ∀ r ∈ reports, r.status ≠ some "error" then
        (4, "success")
      else (5, "error") := by
  rw [result_loop_eq]
  by_cases hsuccess : ∃ r ∈ reports, r.status = some "success"
  · by_cases herror : ∃ r ∈ reports, r.status = some "error"
    · have hnot : ¬ ∀ r ∈ reports, r.status ≠ some "error" := fun hall =>
        herror.elim (fun r hr => hall r hr.1 hr.2)
      rw [if_pos (Or.inr herror), if_neg (fun h => hnot h.2)]
      rfl
    · have hnone : ¬ ∀ r ∈ reports, r.status ≠ some "success" := fun hall =>
        hsuccess.elim (fun r hr => hall r hr.1 hr.2)
      rw [if_neg (fun h => h.elim (fun h => hnone h.2) herror),
        if_pos ⟨hsuccess, fun r hr h => herror ⟨r, hr, h⟩⟩]
      rfl
  · rw [if_pos (Or.inl ⟨rfl, fun r hr h => hsuccess ⟨r, hr, h⟩⟩), if_neg (fun h => hsuccess h.1)]
    rfl

end qsp.perform_audit_thread
