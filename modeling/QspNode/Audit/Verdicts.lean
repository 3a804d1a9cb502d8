import QspNode.Audit.PoliceAssignments
import QspNode.Audit.Provenance
import QspNode.SubmitReportThread.PoliceCheck

open lib.transition qsp.evt qsp.monitor_submission_thread qsp.report qsp.report_processing
open qsp.submit_report_thread

namespace qsp.audit

/-- What `getReport` answers at a height of the chain for a request. -/
abbrev StoredReports := Int → Int → Option (List UInt8)

/-- The submission thread checks the report of a police check by `__check_report`,
    on what the contract has stored by then. -/
def consults (report_encoder : ReportEncoder) (loads : String → Except PyException Report)
    (stored : StoredReports) (s : Node) : Label → Bool
  | .submit answers =>
    match s.activity .submit with
    | .running (row :: _) =>
      (decode row).all (fun evt =>
        !is_police_check evt ||
          decide (answers.check_report = check_report report_encoder loads evt (stored s.height evt.request_id)))
    | _ => true
  | _ => true

/-- What was sent for a police check carries the verdict on what the contract had
    stored, by the report that the row of the check still holds. -/
def Judged (report_encoder : ReportEncoder) (loads : String → Except PyException Report)
    (stored : StoredReports) (table : List Row) (send : Send) : Prop :=
  ∃ row ∈ table, row.request_id = send.request_id ∧ row.fk_status ≠ .AS ∧
    ∃ full_report report verdict, row.full_report = some full_report ∧ loads full_report = .ok report ∧
      is_report_deemed_correct report_encoder send.request_id (stored send.height send.request_id) report =
        .ok verdict ∧ send.is_verified = some verdict

section
variable {config : Config} {report_encoder : ReportEncoder} {loads : String → Except PyException Report}
  {stored : StoredReports} {s t : Node} {table table' : List Row} {send : Send}

theorem consults_submit {answers : submit_report_thread.Answers} {row : Row} {rows : List Row} {evt : Event}
    (hconsults : consults report_encoder loads stored s (.submit answers) = true)
    (hrunning : s.activity .submit = .running (row :: rows)) (hdecode : decode row = some evt)
    (hpolice : is_police_check evt = true) :
    answers.check_report = check_report report_encoder loads evt (stored s.height evt.request_id) := by
  simpa [consults, hrunning, hdecode, hpolice] using hconsults

theorem Judged.of_evolves (hjudged : Judged report_encoder loads stored table send)
    (hevolves : Relation.ReflGen (Evolves MAX_SUBMISSION_ATTEMPTS) table table') :
    Judged report_encoder loads stored table' send := by
  obtain ⟨row, hrow, hid, hstatus, full_report, report, verdict, hfull, hverdict⟩ := hjudged
  obtain ⟨row', hrow', hstatus', hidentity', hreport'⟩ := produced_of_evolves hevolves hrow hstatus
  have hfull' : row'.full_report = row.full_report := congrArg (fun report => report.2.1) hreport'
  exact ⟨row', hrow', (request_of_identity hidentity').1.trans hid, hstatus', full_report, report, verdict,
    hfull'.trans hfull, hverdict⟩

theorem step_judged {label : Label} (hinv : Inv config s)
    (hjudged : ∀ send ∈ s.sends, send.fk_type = .PC → Judged report_encoder loads stored s.table send)
    (hconsults : consults report_encoder loads stored s label = true) (hstep : step config s label = some t) :
    ∀ send ∈ t.sends, send.fk_type = .PC → Judged report_encoder loads stored t.table send := by
  have hevolves := step_evolves hinv hstep
  intro send hsend htype
  cases step_effect hstep with
  | silent htable hsends | written hqueue htable hsends =>
    rw [hsends] at hsend
    exact (hjudged send hsend htype).of_evolves hevolves
  | @sent row rows evt answers hlabel hrunning hdecode htable hsends =>
    subst hlabel
    rw [hsends] at hsend
    rcases List.mem_append.mp hsend with hsend | hsend
    · obtain ⟨rfl, hmem, hstatus⟩ := hinv.running_event hrunning hdecode
      have hsubmit : evt.fk_status = .TS := by simpa [Stage.statuses] using hstatus
      obtain ⟨hid, htype', _, _, hheight⟩ := mem_sends hsend
      have hpolice : is_police_check evt = true := by simp [is_police_check, ← htype', htype]
      obtain ⟨verdict, hcheck, hverified⟩ := verdict_of_send hpolice hsend
      rw [consults_submit hconsults hrunning hdecode hpolice] at hcheck
      obtain ⟨full_report, report, hfull, hloads, hverdict⟩ := check_report_eq_ok_iff.mp hcheck
      rw [htable]
      refine ⟨encode evt, hmem, hid.symm, by simp [encode, hsubmit], full_report, report, verdict, hfull,
        hloads, ?_, hverified⟩
      rw [hid, hheight]
      exact hverdict
    · exact (hjudged send hsend htype).of_evolves hevolves

/-- In every run the police reports that a node sends carry the verdict of
    `__is_report_deemed_correct` on what the contract had stored at that height, by
    the report of an audit that the node has performed for the request itself. -/
theorem police_sends_judged (stored : StoredReports) {height : Int} {labels : List Label}
    (halong : Along (step config) (fun s label => consults report_encoder loads stored s label = true)
      (init config height) labels)
    (hrun : run (step config) (init config height) labels = some s) :
    ∀ send ∈ s.sends, send.fk_type = .PC → ∃ row ∈ s.table, row.request_id = send.request_id ∧
      Occurs (step config) (Audits row) (init config height) labels ∧
      ∃ full_report report verdict, row.full_report = some full_report ∧ loads full_report = .ok report ∧
        is_report_deemed_correct report_encoder send.request_id (stored send.height send.request_id) report =
          .ok verdict ∧ send.is_verified = some verdict := by
  have hinv := run_inv (init_inv height) hrun
  obtain ⟨_, hjudged⟩ := run_invariant_along
    (motive := fun s => Inv config s ∧
      ∀ send ∈ s.sends, send.fk_type = .PC → Judged report_encoder loads stored s.table send)
    (fun _ label _ hinv hconsults hstep =>
      ⟨step_inv label hinv.1 hstep, step_judged hinv.1 hinv.2 hconsults hstep⟩)
    ⟨init_inv height, fun _ hsend => absurd hsend List.not_mem_nil⟩ halong hrun
  intro send hsend htype
  obtain ⟨row, hrow, hid, _, hverdict⟩ := hjudged send hsend htype
  obtain ⟨row', hrow', hid', hattempts⟩ := run_submitted hrun send hsend
  obtain rfl := lib.table.eq_of_key_eq hinv.keys hrow hrow' (hid.trans hid'.symm)
  exact ⟨row, hrow, hid, audited_of_attempted hrun hrow hattempts, hverdict⟩

end

/-- The node checks the report of another one, from the assignment of the check to
    what it sends. -/
def judged_run : List Label :=
  officer_run 0 [] ++
    [.poll_police (.ok sample_probe), .poll_put, .execute false, .poll_put, .execute false,
      .select_incoming, .execute false,
      .perform ((printing_config.audit perform_audit_thread.checked_input).map some) (.ok ()) "",
      .put .perform, .execute false, .select_to_be_submitted, .execute false, .submit police_calls]

theorem police_sends_judged_officer : ∃ s,
    run (step officer_config) (init officer_config 100) judged_run = some s ∧
    s.sends.map Send.is_verified = [some true] ∧
    ∀ send ∈ s.sends, send.fk_type = .PC → ∃ row ∈ s.table, row.request_id = send.request_id ∧
      Occurs (step officer_config) (Audits row) (init officer_config 100) judged_run ∧
      ∃ full_report report verdict, row.full_report = some full_report ∧
        read_report full_report = .ok report ∧
        is_report_deemed_correct report_processing.report_encoder send.request_id (some (sample_stored 0xaa))
          report = .ok verdict ∧ send.is_verified = some verdict := by
  have hsent : (run (step officer_config) (init officer_config 100) judged_run).map
      (fun s => s.sends.map Send.is_verified) = some [some true] := by
    decide +kernel
  obtain ⟨s, hrun, hsends⟩ := Option.map_eq_some_iff.mp hsent
  exact ⟨s, hrun, hsends, police_sends_judged (fun _ _ => some (sample_stored 0xaa))
    (by decide +kernel) hrun⟩

end qsp.audit
