import QspNode.PerformAuditThread.Collect

open lib.transition qsp.report

namespace qsp.perform_audit_thread

def timeout_message (analyzer : Analyzer) : String :=
  s!"Time out occurred. Could not finish {analyzer.analyzer_name} within {analyzer.timeout_sec} seconds"

def unknown_message : String := "Unknown error: cannot produce report"

/-- The status of an entry is that of the wrapper's JSON. -/
def SetByWrapper (outcome : Option Outcome) (entry : AnalyzerReport) : Prop :=
  ∃ r, outcome = some (.returned r) ∧ r.report.status ≠ none ∧ entry.status = r.report.status ∧
    entry.errors = r.report.errors

/-- An entry says what went wrong, and what an exception of its check said. -/
def Explained (outcome : Option Outcome) (entry : AnalyzerReport) : Prop :=
  ∃ errors, entry.errors = some errors ∧ errors ≠ [] ∧
    ∀ message, outcome = some (.raised message) → message ∈ errors

/-- Every entry that the node itself has set to error or timeout is explained. -/
def NeverSilent (analyzers : List Analyzer) (s : State) : Prop :=
  ∀ entries, (audit_report analyzers s).analyzers_reports = some entries →
    ∀ i entry, entries[i]? = some entry → entry.status = some "error" ∨ entry.status = some "timeout" →
      SetByWrapper (s.threads i).outcome entry ∨ Explained (s.threads i).outcome entry

/-- Where the status and the errors of an entry come from before the fail safe
    checks: nothing was shared in time, the check has left them, or the main
    thread has added its own. -/
inductive Origin (analyzer : Analyzer) (outcome : Option Outcome) (report : AnalyzerReport) : Prop where
  | missing (hstatus : report.status = none) (herrors : report.errors = none)
  | copied {o : Outcome} (houtcome : outcome = some o) (hintime : o.has_timed_out = false)
    (hstatus : report.status = o.report.status) (herrors : report.errors = o.report.errors)
  | late {errors : List String} (hstatus : report.status = some "timeout")
    (herrors : report.errors = some (errors ++ [timeout_message analyzer]))
    (hearlier : errors = [] ∨ ∃ r, outcome = some (.returned r))

/-- What an analyzer's thread has shared and what was copied of it. -/
def View.Accounted (analyzer : Analyzer) (v : View) : Prop :=
  match v.phase with
  | .waiting => True
  | .started | .joined => v.shared = v.thread.shared ∧ v.flag = v.thread.flag
  | .collected =>
    (v.report.status = none ∧ v.report.errors = none) ∨
      ∃ o, v.thread.outcome = some o ∧ (v.flag = false → o.has_timed_out = false) ∧
        v.report.status = o.report.status ∧ v.report.errors = o.report.errors
  | .reported => Origin analyzer v.thread.outcome v.report

section
variable {analyzer : Analyzer} {overtakes : Prop} {v w : View}

theorem timeout_report_errors (analyzer : Analyzer) (report : AnalyzerReport) :
    (timeout_report analyzer report).errors =
      some (report.errors.getD [] ++ [timeout_message analyzer]) := rfl

theorem outcome_report_errors (o : Outcome) :
    o.report.errors.getD [] = [] ∨ ∃ r, o = .returned r := by
  cases o with
  | returned r => exact Or.inr ⟨r, rfl⟩
  | timed_out => exact Or.inl rfl
  | raised message => exact Or.inl rfl

/-- What was shared is empty until the thread has written. -/
theorem ThreadState.shared_cases (thread : ThreadState) :
    (thread.shared = empty_report ∧ thread.flag = false ∧ thread.is_alive = true) ∨
      thread = .not_started ∨
      ∃ o, thread.outcome = some o ∧ thread.shared = o.report ∧ thread.flag = o.has_timed_out := by
  cases thread with
  | not_started => exact Or.inr (Or.inl rfl)
  | checking | checked o => exact Or.inl ⟨rfl, rfl, rfl⟩
  | written o | ended o => exact Or.inr (Or.inr ⟨o, rfl, rfl, rfl⟩)

theorem accounted_collect (hphase : v.phase = .joined) (hinv : v.Accounted analyzer) :
    View.Accounted analyzer
      { v with phase := .collected, report := v.shared, flag := v.thread.is_alive || v.flag } := by
  rw [View.Accounted, hphase] at hinv
  obtain ⟨hshared, hflag⟩ := hinv
  rw [hshared, hflag]
  rcases v.thread.shared_cases with ⟨hempty, _⟩ | hunstarted | ⟨o, houtcome, hreport, htimed⟩
  · refine Or.inl ⟨?_, ?_⟩ <;> rw [hempty] <;> rfl
  · refine Or.inl ⟨?_, ?_⟩ <;> rw [hunstarted] <;> rfl
  · refine Or.inr ⟨o, houtcome, ?_, congrArg AnalyzerReport.status hreport,
      congrArg AnalyzerReport.errors hreport⟩
    intro hclear
    rw [← htimed]
    exact (Bool.or_eq_false_iff.mp hclear).2

theorem accounted_report (now : Int) (hphase : v.phase = .collected) (hinv : v.Accounted analyzer) :
    View.Accounted analyzer { v with phase := .reported, report := v.finished analyzer now } := by
  rw [View.Accounted, hphase] at hinv
  change Origin analyzer v.thread.outcome (v.finished analyzer now)
  cases hflag : v.flag with
  | true =>
    have hfinished : v.finished analyzer now =
        { timeout_report analyzer v.report with end_time := some now } := by
      rw [View.finished, hflag, if_pos rfl]
    rw [hfinished]
    refine .late rfl (timeout_report_errors analyzer v.report) ?_
    rcases hinv with ⟨_, hnone⟩ | ⟨o, houtcome, _, _, hcopied⟩
    · exact Or.inl (by rw [hnone]; rfl)
    · rw [houtcome, hcopied]
      simpa using outcome_report_errors o
  | false =>
    have hfinished : v.finished analyzer now = { v.report with end_time := some now } := by
      rw [View.finished, hflag, if_neg Bool.false_ne_true]
    rw [hfinished]
    rcases hinv with ⟨hstatus, herrors⟩ | ⟨o, houtcome, hintime, hstatus, herrors⟩
    · exact .missing hstatus herrors
    · exact .copied houtcome (hintime hflag) hstatus herrors

/-- The thread goes on; what was copied stays what it was. -/
theorem accounted_thread {thread : ThreadState} {shared : AnalyzerReport} {flag : Bool}
    (hshared : v.shared = v.thread.shared → v.flag = v.thread.flag →
      shared = thread.shared ∧ flag = thread.flag)
    (houtcome : ∀ o, v.thread.outcome = some o → thread.outcome = some o ∧
      ((v.flag = false → o.has_timed_out = false) → flag = false → o.has_timed_out = false))
    (hinv : v.Accounted analyzer) : View.Accounted analyzer { v with thread, shared, flag } := by
  obtain ⟨phase, _, _, _, _, _⟩ := v
  cases phase with
  | waiting => trivial
  | started | joined => exact hshared hinv.1 hinv.2
  | collected =>
    rcases hinv with hnone | ⟨o, ho, hintime, hcopied⟩
    · exact Or.inl hnone
    · exact Or.inr ⟨o, (houtcome o ho).1, (houtcome o ho).2 hintime, hcopied⟩
  | reported =>
    cases hinv with
    | missing hstatus herrors => exact .missing hstatus herrors
    | copied ho hintime hstatus herrors => exact .copied (houtcome _ ho).1 hintime hstatus herrors
    | late hstatus herrors hearlier =>
      refine .late hstatus herrors (hearlier.imp_right ?_)
      intro hreturned
      obtain ⟨r, hr⟩ := hreturned
      exact ⟨r, (houtcome _ hr).1⟩

theorem moves_accounted (hmoves : v.Moves analyzer overtakes w) (hinv : v.Accounted analyzer) :
    w.Accounted analyzer := by
  cases hmoves with
  | stays => exact hinv
  | starts hphase => exact ⟨rfl, rfl⟩
  | joins hphase =>
    rw [View.Accounted, hphase] at hinv
    exact hinv
  | collects hphase => exact accounted_collect hphase hinv
  | names start_time hphase =>
    rw [View.Accounted, hphase] at hinv ⊢
    exact hinv
  | reports now hphase => exact accounted_report now hphase hinv
  | checks outcome hthread =>
    refine accounted_thread ?_ ?_ hinv
    · rw [hthread]
      exact fun hshared hflag => ⟨hshared, hflag⟩
    · rw [hthread]
      exact fun o ho => absurd ho (by simp [ThreadState.outcome])
  | writes outcome hthread =>
    refine accounted_thread (fun _ _ => ⟨rfl, rfl⟩) ?_ hinv
    rw [hthread]
    intro o ho
    obtain rfl := Option.some.inj ho
    exact ⟨rfl, fun _ hintime => hintime⟩
  | finishes outcome hthread =>
    refine accounted_thread ?_ ?_ hinv
    · rw [hthread]
      exact fun hshared hflag => ⟨hshared, hflag⟩
    · rw [hthread]
      exact fun o ho => ⟨ho, fun hintime => hintime⟩

end

theorem fail_safe_errors (analyzer : Analyzer) (report : AnalyzerReport) :
    (fail_safe analyzer report).errors =
      if report.status = none then some (report.errors.getD [] ++ [unknown_message])
      else report.errors := by
  unfold fail_safe
  cases hanalyzer : report.analyzer <;> cases hstatus : report.status <;>
    simp [hstatus, unknown_message]

/-- The node explains itself as long as the check has raised nothing. -/
theorem explained_of_not_raised {analyzer : Analyzer} {outcome : Option Outcome} {report : AnalyzerReport}
    (horigin : Origin analyzer outcome report) (hquiet : ∀ message, outcome ≠ some (.raised message)) :
    SetByWrapper outcome (fail_safe analyzer report) ∨ Explained outcome (fail_safe analyzer report) := by
  have hnone (message : String) (errors : List String) :
      outcome = some (.raised message) → message ∈ errors := fun hraised =>
    absurd hraised (hquiet message)
  by_cases hstatus : report.status = none
  · refine Or.inr ⟨report.errors.getD [] ++ [unknown_message], ?_, by simp, fun _ => hnone _ _⟩
    rw [fail_safe_errors, if_pos hstatus]
  · cases horigin with
    | missing hmissing => exact absurd hmissing hstatus
    | @copied o houtcome hintime hcopied herrors =>
      cases o with
      | timed_out => cases hintime
      | raised message => exact absurd houtcome (hquiet message)
      | returned r =>
        refine Or.inl ⟨r, houtcome, hcopied ▸ hstatus, ?_, ?_⟩
        · obtain ⟨status, hsome⟩ := Option.ne_none_iff_exists'.mp hstatus
          rw [fail_safe_status, hsome, Option.getD_some, ← hsome]
          exact hcopied
        · rw [fail_safe_errors, if_neg hstatus]
          exact herrors
    | @late errors _ herrors =>
      refine Or.inr ⟨errors ++ [timeout_message analyzer], ?_, by simp, fun _ => hnone _ _⟩
      rw [fail_safe_errors, if_neg hstatus, herrors]

/-- The text of an exception is in no entry, unless the node says the same. -/
theorem message_of_explained {analyzer : Analyzer} {message : String} {report : AnalyzerReport}
    (horigin : Origin analyzer (some (.raised message)) report)
    (hexplained : Explained (some (.raised message)) (fail_safe analyzer report)) :
    message = unknown_message ∨ message = timeout_message analyzer := by
  obtain ⟨errors, herrors, _, hmem⟩ := hexplained
  replace hmem := hmem message rfl
  rw [fail_safe_errors] at herrors
  cases horigin with
  | missing hstatus hnone =>
    rw [if_pos hstatus, hnone] at herrors
    obtain rfl := Option.some.inj herrors
    exact Or.inl (by simpa using hmem)
  | copied houtcome hintime hstatus hcopied =>
    obtain rfl := Option.some.inj houtcome
    rw [if_neg (by simp [hstatus, Outcome.report]), hcopied] at herrors
    cases herrors
  | late hstatus hlate hearlier =>
    rw [if_neg (by simp [hstatus]), hlate] at herrors
    obtain rfl := Option.some.inj herrors
    rcases hearlier with rfl | ⟨r, hr⟩
    · exact Or.inr (by simpa using hmem)
    · cases hr

theorem status_of_raised {analyzer : Analyzer} {message : String} {report : AnalyzerReport}
    (horigin : Origin analyzer (some (.raised message)) report) :
    (fail_safe analyzer report).status = some "error" ∨
      (fail_safe analyzer report).status = some "timeout" := by
  rw [fail_safe_status]
  cases horigin with
  | missing hstatus => simp [hstatus]
  | copied houtcome hintime hstatus =>
    obtain rfl := Option.some.inj houtcome
    simp [hstatus, Outcome.report]
  | late hstatus => simp [hstatus]

section
variable {analyzers : List Analyzer} {s : State}

theorem getElem?_reports {i : Nat} {entry : AnalyzerReport} :
    (List.zipWith fail_safe analyzers ((List.range analyzers.length).map s.local_reports))[i]? =
        some entry ↔
      ∃ analyzer, analyzers[i]? = some analyzer ∧ fail_safe analyzer (s.local_reports i) = entry := by
  rw [List.getElem?_zipWith_eq_some]
  constructor
  · intro hentry
    obtain ⟨analyzer, report, hanalyzer, hreport, rfl⟩ := hentry
    have hi := (List.getElem?_eq_some_iff.mp hanalyzer).1
    rw [List.getElem?_map, List.getElem?_range hi] at hreport
    obtain rfl := Option.some.inj hreport
    exact ⟨analyzer, hanalyzer, rfl⟩
  · intro hentry
    obtain ⟨analyzer, hanalyzer, rfl⟩ := hentry
    have hi := (List.getElem?_eq_some_iff.mp hanalyzer).1
    refine ⟨analyzer, s.local_reports i, hanalyzer, ?_, rfl⟩
    rw [List.getElem?_map, List.getElem?_range hi]
    rfl

theorem neverSilent_iff :
    NeverSilent analyzers s ↔ ∀ i analyzer, analyzers[i]? = some analyzer → ∀ entry,
      fail_safe analyzer (s.local_reports i) = entry →
        entry.status = some "error" ∨ entry.status = some "timeout" →
          SetByWrapper (s.threads i).outcome entry ∨ Explained (s.threads i).outcome entry := by
  simp only [NeverSilent, audit_report, compute_audit_result]
  constructor
  · intro hsilent i analyzer hanalyzer entry hsafe
    have hentry := getElem?_reports.mpr ⟨analyzer, hanalyzer, hsafe⟩
    have hnonempty := List.length_pos_of_mem (List.mem_of_getElem? hentry)
    exact hsilent _ (if_pos hnonempty) i entry hentry
  · intro hall entries hentries i entry hentry
    obtain ⟨_, hreports⟩ := Option.ite_none_right_eq_some.mp hentries
    obtain rfl := Option.some.inj hreports
    obtain ⟨analyzer, hanalyzer, hsafe⟩ := getElem?_reports.mp hentry
    exact hall i analyzer hanalyzer entry hsafe

/-- A node that has not caught an exception explains every failure. The text of
    one that it has caught is lost, unless the node says the same. -/
theorem analyzer_failures_explained (analyzers : List Analyzer) (labels : List Label) {s : State}
    (hrun : run (step analyzers) State.init labels = some s) (hdone : s.pc = .done) :
    ((∀ i < analyzers.length, ∀ message, (s.threads i).outcome ≠ some (.raised message)) →
      NeverSilent analyzers s) ∧
    (NeverSilent analyzers s → ∀ i analyzer, analyzers[i]? = some analyzer →
      ∀ message, (s.threads i).outcome = some (.raised message) →
        message = unknown_message ∨ message = timeout_message analyzer) := by
  have horigin (i : Nat) (analyzer : Analyzer) (hanalyzer : analyzers[i]? = some analyzer) :
      Origin analyzer (s.threads i).outcome (s.local_reports i) := by
    have haccounted := run_invariant (motive := fun s => (view i s).Accounted analyzer)
      (fun _ _ _ hinv hstep => moves_accounted (step_view hanalyzer hstep) hinv)
      (by simp [view, View.Accounted, phase, State.init]) hrun
    simpa [view, View.Accounted, phase, hdone] using haccounted
  rw [neverSilent_iff]
  constructor
  · intro hquiet i analyzer hanalyzer entry hsafe _
    have hi := (List.getElem?_eq_some_iff.mp hanalyzer).1
    subst hsafe
    exact explained_of_not_raised (horigin i analyzer hanalyzer) (hquiet i hi)
  · intro hsilent i analyzer hanalyzer message hraised
    have hcame := horigin i analyzer hanalyzer
    have hexplained := hsilent i analyzer hanalyzer _ rfl
    rw [hraised] at hcame hexplained
    rcases hexplained (status_of_raised hcame) with ⟨r, hr, _⟩ | hexplained
    · cases hr
    · exact message_of_explained hcame hexplained

end

/-- A check that ends before its join. -/
def check_run (outcome : Outcome) : List Label :=
  [.collector 0, .check 0 outcome, .write 0, .finish 0, .collector 1, .collector 2, .collector 3,
    .collector 4, .collector 5, .collector 6]

theorem analyzer_failures_explained_timed_out :
    ∃ s, run (step [securify]) State.init (check_run .timed_out) = some s ∧ NeverSilent [securify] s := by
  have hdone : (run (step [securify]) State.init (check_run .timed_out)).map
      (fun s => (s.pc, (s.threads 0).outcome.map Outcome.has_timed_out)) = some (.done, some true) := rfl
  obtain ⟨s, hrun, hs⟩ := Option.map_eq_some_iff.mp hdone
  obtain ⟨hpc, houtcome⟩ : _ ∧ _ := by simpa only [Prod.mk.injEq] using hs
  refine ⟨s, hrun, (analyzer_failures_explained [securify] _ hrun hpc).1 ?_⟩
  intro i hi message hraised
  obtain rfl : i = 0 := Nat.lt_one_iff.mp hi
  rw [hraised] at houtcome
  cases houtcome

/-- The exception of a wrapper that cannot be started leaves an error without a
    word. -/
theorem analyzer_exception_lost :
    ∃ s entry, run (step [securify]) State.init (check_run (.raised "Permission denied")) = some s ∧
      s.pc = .done ∧ (audit_report [securify] s).analyzers_reports = some [entry] ∧
      entry.status = some "error" ∧ entry.errors = none ∧ ¬ NeverSilent [securify] s := by
  refine ⟨_, _, rfl, rfl, rfl, rfl, rfl, ?_⟩
  intro hsilent
  rcases hsilent _ rfl 0 _ rfl (Or.inl rfl) with ⟨r, hr, _⟩ | ⟨errors, herrors, _⟩
  · cases hr
  · cases herrors

end qsp.perform_audit_thread
