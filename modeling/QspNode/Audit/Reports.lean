import QspNode.Audit.LifeCycle

open lib.fifo lib.transition qsp.evt qsp.monitor_submission_thread qsp.submit_report_thread

namespace qsp.audit

/-- What was sent for a request is the report that its row holds. -/
def Sent (table : List Row) (send : Send) : Prop :=
  ∃ row ∈ table, row.request_id = send.request_id ∧ row.fk_status ≠ .AS ∧
    row.fk_type = send.fk_type ∧ row.audit_state = send.audit_state ∧
    row.compressed_report = send.compressed_report

section
variable {config : Config} {s t : Node} {table table' : List Row}

theorem Sent.of_evolves {send : Send} (hsent : Sent table send)
    (hevolves : Relation.ReflGen (Evolves MAX_SUBMISSION_ATTEMPTS) table table') : Sent table' send := by
  obtain ⟨row, hrow, hid, hstatus, htype, hstate, hreport⟩ := hsent
  obtain ⟨row', hrow', hstatus', hidentity', hreport'⟩ := produced_of_evolves hevolves hrow hstatus
  obtain ⟨hid', htype'⟩ := request_of_identity hidentity'
  obtain ⟨hcompressed', hstate', _⟩ := columns_of_report hreport'
  exact ⟨row', hrow', hid'.trans hid, hstatus', htype'.trans htype, hstate'.trans hstate,
    hcompressed'.trans hreport⟩

theorem step_sent {label : Label} (hinv : Inv config s) (hsent : ∀ send ∈ s.sends, Sent s.table send)
    (hstep : step config s label = some t) : ∀ send ∈ t.sends, Sent t.table send := by
  have hevolves := step_evolves hinv hstep
  intro send hsend
  cases step_effect hstep with
  | silent htable hsends | written hqueue htable hsends =>
    rw [hsends] at hsend
    exact (hsent send hsend).of_evolves hevolves
  | @sent row rows evt answers hlabel hrunning hdecode htable hsends =>
    rw [hsends] at hsend
    rcases List.mem_append.mp hsend with hsend | hsend
    · obtain ⟨rfl, hmem, hstatus⟩ := hinv.running_event hrunning hdecode
      obtain ⟨hid, htype, hstate, hreport, _⟩ := mem_sends hsend
      have hsubmit : evt.fk_status = .TS := by simpa [Stage.statuses] using hstatus
      rw [htable]
      exact ⟨encode evt, hmem, hid.symm, by simp [encode, hsubmit], htype.symm, hstate.symm,
        hreport.symm⟩
    · exact (hsent send hsend).of_evolves hevolves

theorem run_sent {height : Int} {labels : List Label}
    (hrun : run (step config) (init config height) labels = some s) :
    ∀ send ∈ s.sends, Sent s.table send :=
  (run_invariant (motive := fun s => Inv config s ∧ ∀ send ∈ s.sends, Sent s.table send)
    (fun _ label _ hinv hstep => ⟨step_inv label hinv.1 hstep, step_sent hinv.1 hinv.2 hstep⟩)
    ⟨init_inv height, fun _ hsend => absurd hsend List.not_mem_nil⟩ hrun).2

/-- The columns of a row that say what was requested never change, those of its
    report never once it has left `AS`, and all that was ever sent for a request
    is one report. -/
theorem report_immutable (config : Config) (height : Int) (labels : List Label) (s : Node)
    (hrun : run (step config) (init config height) labels = some s) :
    (s.table.map Evt.request_id).Nodup ∧
    (∀ further t, run (step config) s further = some t → ∀ row ∈ s.table,
      ∃ row' ∈ t.table, row'.identity = row.identity ∧
        (row.fk_status ≠ .AS → row'.report = row.report)) ∧
    ∀ send ∈ s.sends, ∀ resend ∈ s.sends, resend.request_id = send.request_id →
      resend.fk_type = send.fk_type ∧ resend.audit_state = send.audit_state ∧
        resend.compressed_report = send.compressed_report := by
  have hinv := run_inv (init_inv height) hrun
  refine ⟨hinv.keys, ?_, ?_⟩
  · intro further t hfurther row hrow
    obtain ⟨row', hrow', _, hadvances⟩ := row_successor hinv hfurther hrow
    exact ⟨row', hrow', identity_of_reflTransGen_advances hadvances,
      fun hproduced => (report_of_reflTransGen_advances hproduced hadvances).2⟩
  · intro send hsend resend hresend hid
    obtain ⟨row, hrow, hkey, _, htype, hstate, hreport⟩ := run_sent hrun send hsend
    obtain ⟨row', hrow', hkey', _, htype', hstate', hreport'⟩ := run_sent hrun resend hresend
    have hsame : row'.request_id = row.request_id := by rw [hkey', hid, hkey]
    obtain rfl := lib.table.eq_of_key_eq hinv.keys hrow' hrow hsame
    exact ⟨htype'.symm.trans htype, hstate'.symm.trans hstate, hreport'.symm.trans hreport⟩

end

/-- The audit is not finished when the monitor thread looks, and its report is
    submitted once more. -/
def resubmission_run : List Label :=
  (audit_run 0 6).dropLast ++
    [.monitor { isAuditFinished := .ok false, block_number := .ok (), error_text := "", evt_text := "" },
      .put .monitor, .execute false, .select_to_be_submitted, .execute false,
      .submit accepted_submission]

theorem report_immutable_resubmission_run :
    ∃ s, run (step sample_config) (init sample_config 100) resubmission_run = some s ∧
      s.sends.map Send.height = [106, 100] ∧
      ∀ send ∈ s.sends, ∀ resend ∈ s.sends, resend.request_id = send.request_id →
        resend.fk_type = send.fk_type ∧ resend.audit_state = send.audit_state ∧
          resend.compressed_report = send.compressed_report := by
  have hsent : (run (step sample_config) (init sample_config 100) resubmission_run).map
      (fun s => s.sends.map Send.height) = some [106, 100] := by
    decide +kernel
  obtain ⟨s, hrun, hsends⟩ := Option.map_eq_some_iff.mp hsent
  exact ⟨s, hrun, hsends, (report_immutable sample_config 100 _ s hrun).2.2⟩

end qsp.audit
