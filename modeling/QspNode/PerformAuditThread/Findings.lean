import QspNode.PerformAuditThread.Validity

open lib.transition qsp.report

namespace qsp.perform_audit_thread

/-- The thread of an analyzer shares its report before the main thread copies it. -/
def WritesInTime (i : Nat) (s : State) (label : Label) : Prop :=
  label = .write i ∧ (phase i s.pc = .started ∨ phase i s.pc = .joined)

/-- The same, told by what the analyzer's thread has become. -/
def View.Shares (v w : View) : Prop :=
  (v.phase = .started ∨ v.phase = .joined) ∧ v.thread.has_written = false ∧ w.thread.has_written = true

/-- What the main thread can have of an analyzer in each phase; `written` says that
    the analyzer's thread has shared its report in time. -/
def View.Lists (written : Prop) (v : View) : Prop :=
  match v.phase with
  | .waiting => ¬ written
  | .started =>
    v.shared = v.thread.shared ∧ v.thread ≠ .not_started ∧ (written ↔ v.thread.has_written = true)
  | .joined =>
    v.shared = v.thread.shared ∧ (v.alive_at_join = false → written) ∧
      (written ↔ v.thread.has_written = true)
  | .collected | .reported =>
    (v.alive_at_join = false → written) ∧
      (written → ∃ outcome, v.thread.outcome = some outcome ∧
        v.report.potential_vulnerabilities = outcome.report.potential_vulnerabilities) ∧
      (¬ written → v.report.potential_vulnerabilities = none)

section
variable {analyzer : Analyzer} {written overtakes : Prop} {v w : View}

theorem lists_of_same (hsame : w.thread.has_written = v.thread.has_written) (hlists : w.Lists written) :
    w.Lists (written ∨ v.Shares w) := by
  have hnot : ¬ v.Shares w := by
    rintro ⟨_, hbefore, hafter⟩
    rw [hsame, hbefore] at hafter
    cases hafter
  rwa [or_iff_left hnot]

theorem ThreadState.has_written_of_ended {thread : ThreadState} (hstarted : thread ≠ .not_started)
    (hended : thread.is_alive = false) : thread.has_written = true := by
  cases thread with
  | not_started => exact absurd rfl hstarted
  | ended outcome => rfl
  | _ => cases hended

theorem ThreadState.shared_of_has_written {thread : ThreadState} (hwritten : thread.has_written = true) :
    ∃ outcome, thread.outcome = some outcome ∧ thread.shared = outcome.report := by
  cases thread with
  | written outcome | ended outcome => exact ⟨outcome, rfl, rfl⟩
  | _ => cases hwritten

theorem ThreadState.shared_of_not_written {thread : ThreadState} (hnot : thread.has_written ≠ true) :
    thread.shared = empty_report := by
  cases thread with
  | written outcome | ended outcome => exact absurd rfl hnot
  | _ => rfl

theorem finished_findings (analyzer : Analyzer) (v : View) (now : Int) :
    (v.finished analyzer now).potential_vulnerabilities = v.report.potential_vulnerabilities := by
  cases hflag : v.flag <;> simp [View.finished, hflag, timeout_report]

/-- What a thread has done so far stays when it goes on. -/
theorem lists_thread {thread : ThreadState} (hstarted : thread ≠ .not_started)
    (hshared : thread.shared = v.thread.shared)
    (hsame : thread.has_written = v.thread.has_written)
    (houtcome : ∀ outcome, v.thread.outcome = some outcome → thread.outcome = some outcome)
    (hlists : v.Lists written) : View.Lists written { v with thread } := by
  obtain ⟨phase, _, _, _, _, _⟩ := v
  cases phase with
  | waiting => exact hlists
  | started =>
    obtain ⟨hread, _, hwritten⟩ := hlists
    exact ⟨hread.trans hshared.symm, hstarted, hwritten.trans (by rw [hsame])⟩
  | joined =>
    obtain ⟨hread, halive, hwritten⟩ := hlists
    exact ⟨hread.trans hshared.symm, halive, hwritten.trans (by rw [hsame])⟩
  | collected | reported =>
    obtain ⟨halive, hlisted, hnothing⟩ := hlists
    refine ⟨halive, fun hwritten => ?_, hnothing⟩
    obtain ⟨outcome, hleft, hfindings⟩ := hlisted hwritten
    exact ⟨outcome, houtcome outcome hleft, hfindings⟩

/-- A report that is shared too late is not listed. -/
theorem lists_write {outcome : Outcome} (hthread : v.thread = .checked outcome)
    (hlists : v.Lists written) :
    View.Lists (written ∨ v.phase = .started ∨ v.phase = .joined)
      { v with
        thread := .written outcome
        shared := outcome.report
        flag := outcome.has_timed_out } := by
  obtain ⟨phase, thread, _, _, _, _⟩ := v
  obtain rfl : thread = .checked outcome := hthread
  cases phase with
  | waiting => simpa [View.Lists] using hlists
  | started => simp [View.Lists, ThreadState.shared, ThreadState.has_written]
  | joined => simp [View.Lists, ThreadState.shared, ThreadState.has_written]
  | collected | reported =>
    obtain ⟨halive, hlisted, hnothing⟩ := hlists
    simp only [View.Lists, reduceCtorEq, or_false]
    exact ⟨halive, hlisted, hnothing⟩

theorem moves_lists (hmoves : v.Moves analyzer overtakes w) (hlists : v.Lists written) :
    w.Lists (written ∨ v.Shares w) := by
  cases hmoves with
  | stays => exact lists_of_same rfl hlists
  | starts hphase =>
    rw [View.Lists, hphase] at hlists
    refine ⟨rfl, ThreadState.noConfusion, iff_of_false ?_ Bool.false_ne_true⟩
    rintro (hwritten | ⟨_, _, hafter⟩)
    · exact hlists hwritten
    · cases hafter
  | joins hphase =>
    refine lists_of_same rfl ?_
    rw [View.Lists, hphase] at hlists
    obtain ⟨hshared, hstarted, hwritten⟩ := hlists
    exact ⟨hshared, fun hended => hwritten.mpr (ThreadState.has_written_of_ended hstarted hended), hwritten⟩
  | collects hphase =>
    refine lists_of_same rfl ?_
    rw [View.Lists, hphase] at hlists
    obtain ⟨hshared, halive, hwritten⟩ := hlists
    refine ⟨halive, fun hdone => ?_, fun hnot => ?_⟩
    · obtain ⟨outcome, houtcome, hreport⟩ := ThreadState.shared_of_has_written (hwritten.mp hdone)
      exact ⟨outcome, houtcome, by rw [hshared, hreport]⟩
    · rw [hshared, ThreadState.shared_of_not_written (fun hdone => hnot (hwritten.mpr hdone))]
      rfl
  | names start_time hphase =>
    refine lists_of_same rfl ?_
    rw [View.Lists, hphase] at hlists ⊢
    exact hlists
  | reports now hphase =>
    refine lists_of_same rfl ?_
    rw [View.Lists, hphase] at hlists
    simp only [View.Lists, finished_findings]
    exact hlists
  | checks outcome hthread =>
    have hsame : (ThreadState.checked outcome).has_written = v.thread.has_written := by rw [hthread]; rfl
    exact lists_of_same hsame (lists_thread ThreadState.noConfusion (by rw [hthread]; rfl) hsame
      (by simp [hthread, ThreadState.outcome]) hlists)
  | writes outcome hthread =>
    have hshares : v.Shares { v with
        thread := .written outcome
        shared := outcome.report
        flag := outcome.has_timed_out } ↔ v.phase = .started ∨ v.phase = .joined :=
      and_iff_left ⟨by rw [hthread]; rfl, rfl⟩
    rw [propext hshares]
    exact lists_write hthread hlists
  | finishes outcome hthread =>
    have hsame : (ThreadState.ended outcome).has_written = v.thread.has_written := by rw [hthread]; rfl
    exact lists_of_same hsame (lists_thread ThreadState.noConfusion (by rw [hthread]; rfl) hsame
      (by simp [hthread, ThreadState.outcome]) hlists)

end

section
variable {analyzers : List Analyzer} {i : Nat} {s t : State}

/-- The main thread writes no report for an analyzer. -/
theorem collector_has_written {now : Int} (hstep : collector_step analyzers now s = some t)
    (hwritten : (t.threads i).has_written = true) : (s.threads i).has_written = true := by
  unfold collector_step at hstep
  cases hpc : s.pc with
  | starting j =>
    simp only [hpc] at hstep
    split at hstep
    · obtain rfl := Option.some.inj hstep
      dsimp only at hwritten
      by_cases hij : i = j
      · subst hij
        rw [Function.update_self] at hwritten
        cases hwritten
      · rwa [Function.update_of_ne hij] at hwritten
    · obtain rfl := Option.some.inj hstep
      exact hwritten
  | joining j =>
    simp only [hpc] at hstep
    split at hstep
    · obtain rfl := Option.some.inj hstep
      exact hwritten
    · obtain rfl := Option.some.inj hstep
      exact hwritten
  | collecting j =>
    simp only [hpc] at hstep
    obtain rfl := Option.some.inj hstep
    exact hwritten
  | reading_metadata j | reporting j =>
    simp only [hpc] at hstep
    obtain ⟨analyzer, _, rfl⟩ := Option.map_eq_some_iff.mp hstep
    exact hwritten
  | done => simp [hpc] at hstep

theorem shares_iff {label : Label} (hstep : step analyzers s label = some t) :
    (view i s).Shares (view i t) ↔ WritesInTime i s label := by
  have hnot {before after : ThreadState} (hkept : after.has_written = true → before.has_written = true)
      (hbefore : before.has_written = false) (hafter : after.has_written = true) : False := by
    rw [hkept hafter] at hbefore
    cases hbefore
  cases label with
  | collector now =>
    refine iff_of_false ?_ (fun hwrites => by cases hwrites.1)
    rintro ⟨_, hbefore, hafter⟩
    exact hnot (collector_has_written hstep) hbefore hafter
  | check j outcome =>
    refine iff_of_false ?_ (fun hwrites => by cases hwrites.1)
    rintro ⟨_, hbefore, hafter⟩
    simp only [step] at hstep
    split at hstep
    · obtain rfl := Option.some.inj hstep
      by_cases hij : i = j
      · subst hij
        simp [view, ThreadState.has_written] at hafter
      · exact hnot (by simp [view, Function.update_of_ne hij]) hbefore hafter
    · cases hstep
  | write j =>
    simp only [step] at hstep
    split at hstep
    · next outcome hthread =>
      obtain rfl := Option.some.inj hstep
      by_cases hij : i = j
      · subst hij
        simp [View.Shares, WritesInTime, view, hthread, ThreadState.has_written]
      · refine iff_of_false ?_ (fun hwrites => hij (Label.write.inj hwrites.1).symm)
        rintro ⟨_, hbefore, hafter⟩
        exact hnot (by simp [view, Function.update_of_ne hij]) hbefore hafter
    · cases hstep
  | finish j =>
    refine iff_of_false ?_ (fun hwrites => by cases hwrites.1)
    rintro ⟨_, hbefore, hafter⟩
    simp only [step] at hstep
    split at hstep
    · next outcome hthread =>
      obtain rfl := Option.some.inj hstep
      by_cases hij : i = j
      · subst hij
        exact hnot (fun _ => by rw [view, hthread]; rfl) hbefore hafter
      · exact hnot (by simp [view, Function.update_of_ne hij]) hbefore hafter
    · cases hstep

theorem step_lists (hi : i < analyzers.length) {written : Prop} {label : Label}
    (hlists : (view i s).Lists written) (hstep : step analyzers s label = some t) :
    (view i t).Lists (written ∨ WritesInTime i s label) := by
  rw [← shares_iff hstep]
  exact moves_lists (step_view (List.getElem?_eq_getElem hi) hstep) hlists

theorem run_lists (hi : i < analyzers.length) {labels : List Label}
    (hrun : run (step analyzers) State.init labels = some s) :
    (view i s).Lists (Occurs (step analyzers) (WritesInTime i) State.init labels) := by
  have hinit : (view i State.init).Lists False := by simp [View.Lists, view, phase, State.init]
  have hmonitor := run_monitor (motive := fun written s => (view i s).Lists written)
    (fun _ _ _ _ hlists hstep => step_lists hi hlists hstep) hinit hrun
  rwa [false_or] at hmonitor

/-- In every interleaving the entry of an analyzer lists what its check has found
    when its thread wrote it before the main thread copied it, and nothing
    otherwise. A thread that has ended by its join has always written in time; one
    that was alive may have, and its findings then stand beside a time out. -/
theorem findings_collected_iff {labels : List Label}
    (hrun : run (step analyzers) State.init labels = some s) (hdone : s.pc = .done) {entry : AnalyzerReport}
    (hentry : ((audit_report analyzers s).analyzers_reports.getD [])[i]? = some entry) :
    (Occurs (step analyzers) (WritesInTime i) State.init labels → ∃ outcome,
        (s.threads i).outcome = some outcome ∧
          entry.potential_vulnerabilities = outcome.report.potential_vulnerabilities) ∧
      (¬ Occurs (step analyzers) (WritesInTime i) State.init labels →
        entry.potential_vulnerabilities = none) ∧
      (s.alive_at_join i = false → Occurs (step analyzers) (WritesInTime i) State.init labels) := by
  rw [audit_report, compute_audit_result, lib.loops.getD_nonempty] at hentry
  obtain ⟨analyzer, hanalyzer, rfl⟩ := getElem?_reports.mp hentry
  have hlists := run_lists (List.getElem?_eq_some_iff.mp hanalyzer).1 hrun
  have hphase : phase i s.pc = .reported := by rw [hdone]; rfl
  rw [View.Lists, view, hphase] at hlists
  rw [fail_safe_findings]
  exact ⟨hlists.2.1, hlists.2.2, hlists.1⟩

end

/-- What the check of a contract with one risky line leaves. -/
def found_outcome : Outcome :=
  .returned
    { report :=
        { empty_report with
          status := some "success"
          potential_vulnerabilities := some
            [{ type := some "other"
               file := some "Token.sol"
               instances := some [{ ref_id := some 0, start_line := some 5, end_line := none }] }] }
      status_known := by decide }

/-- The thread writes and is still alive when its join returns. -/
def flagged_run : List Label :=
  [.collector 1, .check 0 found_outcome, .write 0, .collector 1, .collector 1, .collector 1, .collector 1,
    .collector 1, .collector 1]

def flagged : State := (run (step [securify]) State.init flagged_run).get (by rfl)

def flagged_entry : AnalyzerReport := fail_safe securify (flagged.local_reports 0)

theorem findings_collected_flagged :
    flagged_entry.status = some "timeout" ∧ ∃ outcome, (flagged.threads 0).outcome = some outcome ∧
      flagged_entry.potential_vulnerabilities = outcome.report.potential_vulnerabilities := by
  have hrun : run (step [securify]) State.init flagged_run = some flagged := (Option.some_get _).symm
  have hwrites : Occurs (step [securify]) (WritesInTime 0) State.init flagged_run :=
    Or.inr ⟨_, rfl, Or.inr ⟨_, rfl, Or.inl ⟨rfl, Or.inl rfl⟩⟩⟩
  have hentry : ((audit_report [securify] flagged).analyzers_reports.getD [])[0]? = some flagged_entry := rfl
  exact ⟨rfl, (findings_collected_iff hrun rfl hentry).1 hwrites⟩

end qsp.perform_audit_thread
