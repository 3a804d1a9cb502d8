import QspNode.PerformAuditThread.Errors
import QspNode.Schema

open lib.transition qsp.report qsp.schema

namespace qsp.perform_audit_thread

/-- What a check leaves lists its findings as asked. -/
def Label.Conforms (asked : Option (List Vulnerability) → Prop) : Label → Prop
  | .check _ outcome => asked outcome.report.potential_vulnerabilities
  | .collector _ | .write _ | .finish _ => True

/-- The status of an entry is one of the schema, or not set yet. -/
structure EntryValid (asked : Option (List Vulnerability) → Prop) (a : AnalyzerReport) : Prop where
  status : a.status ∈ [none, some "success", some "error", some "timeout"]
  findings : asked a.potential_vulnerabilities

/-- What holds of the lists of `get_audit_report_from_analyzers` while its loops
    run. -/
structure Sound (asked : Option (List Vulnerability) → Prop) (s : State) : Prop where
  outcomes : ∀ i outcome, (s.threads i).outcome = some outcome → EntryValid asked outcome.report
  shared : ∀ i, EntryValid asked (s.shared_reports i)
  entries : ∀ i, EntryValid asked (s.local_reports i)

section
variable {asked : Option (List Vulnerability) → Prop}

theorem outcome_report_valid {outcome : Outcome}
    (hfindings : asked outcome.report.potential_vulnerabilities) : EntryValid asked outcome.report := by
  refine ⟨?_, hfindings⟩
  cases outcome with
  | returned r =>
    have hknown := r.status_known
    simp only [AUDIT_STATUS_SUCCESS, AUDIT_STATUS_ERROR, List.mem_cons, List.not_mem_nil, or_false] at hknown
    simp only [Outcome.report, List.mem_cons, List.not_mem_nil, or_false]
    tauto
  | timed_out => simp [Outcome.report]
  | raised message => simp [Outcome.report]

theorem empty_report_valid (hnone : asked none) : EntryValid asked empty_report :=
  ⟨by simp [empty_report], hnone⟩

theorem sound_init (hnone : asked none) : Sound asked State.init where
  outcomes := by simp [State.init, ThreadState.outcome]
  shared := fun _ => empty_report_valid hnone
  entries := fun _ => empty_report_valid hnone

theorem EntryValid.of_same {a b : AnalyzerReport} (hvalid : EntryValid asked a)
    (hstatus : b.status = a.status) (hfindings : b.potential_vulnerabilities = a.potential_vulnerabilities) :
    EntryValid asked b :=
  ⟨hstatus ▸ hvalid.status, hfindings ▸ hvalid.findings⟩

end

section
variable {asked : Option (List Vulnerability) → Prop} {analyzers : List Analyzer} {s t : State}

theorem forall_update {α : Type} {p : α → Prop} {f : Nat → α} {i : Nat} {a : α} (hall : ∀ j, p (f j))
    (ha : p a) (j : Nat) : p (Function.update f i a j) := by
  by_cases hj : j = i
  · subst hj
    rwa [Function.update_self]
  · rw [Function.update_of_ne hj]
    exact hall j

theorem sound_collector_step (hnone : asked none) {now : Int} (hsound : Sound asked s)
    (hstep : collector_step analyzers now s = some t) : Sound asked t := by
  obtain ⟨houtcomes, hshared, hentries⟩ := hsound
  unfold collector_step at hstep
  cases hpc : s.pc with
  | starting j =>
    simp only [hpc] at hstep
    split at hstep
    · obtain rfl := Option.some.inj hstep
      refine ⟨?_, forall_update hshared (empty_report_valid hnone),
        forall_update hentries (empty_report_valid hnone)⟩
      grind [Function.update_apply, ThreadState.outcome]
    · obtain rfl := Option.some.inj hstep
      exact ⟨houtcomes, hshared, hentries⟩
  | joining j =>
    simp only [hpc] at hstep
    split at hstep
    · obtain rfl := Option.some.inj hstep
      exact ⟨houtcomes, hshared, hentries⟩
    · obtain rfl := Option.some.inj hstep
      exact ⟨houtcomes, hshared, hentries⟩
  | collecting j =>
    simp only [hpc] at hstep
    obtain rfl := Option.some.inj hstep
    exact ⟨houtcomes, hshared, forall_update hentries (hshared j)⟩
  | reading_metadata j =>
    simp only [hpc] at hstep
    obtain ⟨analyzer, hanalyzer, rfl⟩ := Option.map_eq_some_iff.mp hstep
    exact ⟨houtcomes, hshared, forall_update hentries ((hentries j).of_same rfl rfl)⟩
  | reporting j =>
    simp only [hpc] at hstep
    obtain ⟨analyzer, hanalyzer, rfl⟩ := Option.map_eq_some_iff.mp hstep
    refine ⟨houtcomes, hshared, forall_update hentries ?_⟩
    cases s.timed_out_flags j with
    | true => exact ⟨by simp [timeout_report], (hentries j).findings⟩
    | false => exact (hentries j).of_same rfl rfl
  | done => simp [hpc] at hstep

theorem sound_step (hnone : asked none) {label : Label} (hsound : Sound asked s)
    (hconforms : label.Conforms asked) (hstep : step analyzers s label = some t) : Sound asked t := by
  cases label with
  | collector now => exact sound_collector_step hnone hsound hstep
  | check i outcome =>
    simp only [step] at hstep
    split at hstep
    · obtain rfl := Option.some.inj hstep
      have hvalid : EntryValid asked outcome.report := outcome_report_valid hconforms
      exact ⟨by grind [Function.update_apply, ThreadState.outcome, hsound.outcomes], hsound.shared,
        hsound.entries⟩
    · cases hstep
  | write i =>
    simp only [step] at hstep
    split at hstep
    · next outcome hthread =>
      obtain rfl := Option.some.inj hstep
      have hvalid := hsound.outcomes i outcome (by rw [hthread]; rfl)
      exact ⟨by grind [Function.update_apply, ThreadState.outcome, hsound.outcomes],
        forall_update hsound.shared hvalid, hsound.entries⟩
    · cases hstep
  | finish i =>
    simp only [step] at hstep
    split at hstep
    · next outcome hthread =>
      obtain rfl := Option.some.inj hstep
      have hvalid := hsound.outcomes i outcome (by rw [hthread]; rfl)
      exact ⟨by grind [Function.update_apply, ThreadState.outcome, hsound.outcomes], hsound.shared,
        hsound.entries⟩
    · cases hstep

theorem fail_safe_findings (analyzer : Analyzer) (report : AnalyzerReport) :
    (fail_safe analyzer report).potential_vulnerabilities = report.potential_vulnerabilities := by
  unfold fail_safe
  cases hanalyzer : report.analyzer <;> cases hstatus : report.status <;> simp [hstatus]

/-- The fail safe checks leave an entry that passes the schema as far as its metadata,
    its times and its findings do. -/
theorem fail_safe_valid_iff {analyzer : Analyzer} {report : AnalyzerReport}
    (hstatus : report.status ∈ [none, some "success", some "error", some "timeout"])
    (hanalyzer : report.analyzer = some analyzer.metadata) :
    analyzer_report_valid (fail_safe analyzer report) = true ↔
      analyzer_valid analyzer.metadata = true ∧
        (minimum 1 report.start_time = true ∧ minimum 1 report.end_time = true) ∧
        items vulnerability_valid report.potential_vulnerabilities = true := by
  obtain ⟨metadata, status, start_time, end_time, errors, findings⟩ := report
  simp only [List.mem_cons, List.not_mem_nil, or_false] at hstatus
  dsimp only at hanalyzer hstatus
  subst hanalyzer
  rcases hstatus with rfl | rfl | rfl | rfl <;>
    simp [analyzer_report_valid, fail_safe, required, enum] <;> tauto

theorem fail_safe_times (analyzer : Analyzer) (report : AnalyzerReport) :
    (fail_safe analyzer report).start_time = report.start_time ∧
      (fail_safe analyzer report).end_time = report.end_time := by
  unfold fail_safe
  cases hanalyzer : report.analyzer <;> cases hstatus : report.status <;> simp [hstatus]

theorem items_nonempty {α : Type} (check : α → Bool) (l : List α) :
    items check (if l.length > 0 then some l else none) = true ↔ ∀ a ∈ l, check a = true := by
  cases l with
  | nil => simp [items]
  | cons a l => exact List.all_eq_true

theorem sound_run (hnone : asked none) {labels : List Label}
    (hconforms : ∀ label ∈ labels, label.Conforms asked)
    (hrun : run (step analyzers) State.init labels = some s) : Sound asked s :=
  run_invariant_along (p := fun _ label => label.Conforms asked)
    (fun _ _ _ hsound hp hstep => sound_step hnone hsound hp hstep) (sound_init hnone)
    (along_of_forall hconforms _) hrun

/-- Whatever the interleaving of the analyzers, their entries list what a check
    has left, or nothing. -/
theorem collected_findings (hnone : asked none) {labels : List Label}
    (hconforms : ∀ label ∈ labels, label.Conforms asked)
    (hrun : run (step analyzers) State.init labels = some s) :
    ∀ entry ∈ (audit_report analyzers s).analyzers_reports.getD [], asked entry.potential_vulnerabilities := by
  intro entry hmem
  rw [audit_report, compute_audit_result, lib.loops.getD_nonempty] at hmem
  obtain ⟨i, hi⟩ := List.getElem?_of_mem hmem
  obtain ⟨analyzer, _, rfl⟩ := getElem?_reports.mp hi
  rw [fail_safe_findings]
  exact ((sound_run hnone hconforms hrun).entries i).findings

/-- The keys that the node itself gives to the entries are as the schema asks. -/
structure EntriesConform (analyzers : List Analyzer) (entries : List AnalyzerReport) : Prop where
  metadata : ∀ analyzer ∈ analyzers, analyzer_valid analyzer.metadata = true
  times : ∀ entry ∈ entries, minimum 1 entry.start_time = true ∧ minimum 1 entry.end_time = true

/-- What the collecting loop leaves of an analyzer when all is done. -/
theorem entry_of_done {labels : List Label} (hrun : run (step analyzers) State.init labels = some s)
    (hdone : s.pc = .done) {i : Nat} {analyzer : Analyzer} (hanalyzer : analyzers[i]? = some analyzer) :
    (s.local_reports i).status ∈ [none, some "success", some "error", some "timeout"] ∧
      (s.local_reports i).analyzer = some analyzer.metadata := by
  have hsound : Sound (fun _ => True) s := sound_run trivial (fun label _ => by cases label <;> trivial) hrun
  obtain ⟨hlt, _⟩ := List.getElem?_eq_some_iff.mp hanalyzer
  have hphase : phase i s.pc = .reported := by rw [hdone]; rfl
  have hnamed : Named analyzers i s := run_invariant
    (fun _ _ _ hnamed hstep => step_named hlt hnamed hstep) (by simp [Named, State.init, phase]) hrun
  exact ⟨(hsound.entries i).status, (hnamed (Or.inl hphase)).trans (by rw [hanalyzer]; rfl)⟩

/-- Whatever the interleaving of the analyzers, their entries pass the schema exactly
    when the metadata, the times and the findings do. -/
theorem collected_entries_valid_iff {labels : List Label}
    (hrun : run (step analyzers) State.init labels = some s) (hdone : s.pc = .done) :
    items analyzer_report_valid (audit_report analyzers s).analyzers_reports = true ↔
      EntriesConform analyzers ((audit_report analyzers s).analyzers_reports.getD []) ∧
        ∀ entry ∈ (audit_report analyzers s).analyzers_reports.getD [],
          items vulnerability_valid entry.potential_vulnerabilities = true := by
  rw [audit_report, compute_audit_result, items_nonempty, lib.loops.getD_nonempty]
  constructor
  · intro hall
    have hentry {i : Nat} {analyzer : Analyzer} (hanalyzer : analyzers[i]? = some analyzer) :=
      (fail_safe_valid_iff (entry_of_done hrun hdone hanalyzer).1 (entry_of_done hrun hdone hanalyzer).2).mp
        (hall _ (List.mem_of_getElem? (getElem?_reports.mpr ⟨analyzer, hanalyzer, rfl⟩)))
    refine ⟨⟨fun analyzer hmem => ?_, fun entry hmem => ?_⟩, fun entry hmem => ?_⟩
    · obtain ⟨i, hanalyzer⟩ := List.getElem?_of_mem hmem
      exact (hentry hanalyzer).1
    · obtain ⟨i, hi⟩ := List.getElem?_of_mem hmem
      obtain ⟨analyzer, hanalyzer, rfl⟩ := getElem?_reports.mp hi
      obtain ⟨hstart, hend⟩ := fail_safe_times analyzer (s.local_reports i)
      rw [hstart, hend]
      exact (hentry hanalyzer).2.1
    · obtain ⟨i, hi⟩ := List.getElem?_of_mem hmem
      obtain ⟨analyzer, hanalyzer, rfl⟩ := getElem?_reports.mp hi
      rw [fail_safe_findings]
      exact (hentry hanalyzer).2.2
  · rintro ⟨⟨hmetadata, htimes⟩, hfindings⟩ entry hmem
    have htime := htimes entry hmem
    have hfinding := hfindings entry hmem
    obtain ⟨i, hi⟩ := List.getElem?_of_mem hmem
    obtain ⟨analyzer, hanalyzer, rfl⟩ := getElem?_reports.mp hi
    obtain ⟨hstatus, hname⟩ := entry_of_done hrun hdone hanalyzer
    obtain ⟨hstart, hend⟩ := fail_safe_times analyzer (s.local_reports i)
    rw [hstart, hend] at htime
    rw [fail_safe_findings] at hfinding
    exact (fail_safe_valid_iff hstatus hname).mpr
      ⟨hmetadata analyzer (List.mem_of_getElem? hanalyzer), htime, hfinding⟩

end

end qsp.perform_audit_thread
