import QspNode.Audit.Moves
import QspNode.Audit.Reports

open lib.fifo lib.transition qsp.evt qsp.monitor_submission_thread qsp.perform_audit_thread
open qsp.submit_report_thread

namespace qsp.audit

/-- The columns that an audit fills in at a height of the chain. -/
def produced (result : AuditResult) (height : Int) :
    Option String × Option String × Option String × Option String × Option Int × Option String :=
  (some result.compressed_report, some result.full_report, some result.audit_uri, some result.audit_hash,
    some result.audit_state, some (str height))

/-- A step in which the perform thread audits what a row asks for, with the report
    that the row holds. -/
def Audits (row : Row) (s : Node) (label : Label) : Prop :=
  ∃ result traceback assigned rows, label = .perform (.ok (some result)) (.ok ()) traceback ∧
    s.activity .perform = .running (assigned :: rows) ∧ assigned.identity = row.identity ∧
    row.report = produced result s.height

/-- A statement that fills in a report does so for a request of the table, and it
    fills in that of the row only after its audit. -/
def Stems (row : Row) (audited : Prop) (table : List Row) (w : Write) : Prop :=
  ∀ values, w = .set_evt_status_to_be_submitted values →
    (∃ stored ∈ table, stored.identity = values.identity) ∧
      (values.identity = row.identity → values.report = row.report → audited)

/-- A row that has been on its way to the contract has been submitted to it. -/
def Attempted (table : List Row) : Prop :=
  ∀ stored ∈ table, stored.fk_status = .TS ∨ stored.fk_status = .SB ∨ stored.fk_status = .DN →
    stored.submission_attempts ≠ 0

/-- The report of a row is followed from its audit through the queue and the table
    to what is sent. -/
structure Provenance (config : Config) (row : Row) (audited : Prop) (s : Node) : Prop where
  inv : Inv config s
  attempted : Attempted s.table
  rows : ∀ stored ∈ s.table, stored.submission_attempts ≠ 0 → stored.identity = row.identity →
    stored.report = row.report → audited
  statements : ∀ p, .AS ∈ p.statuses → ∀ w ∈ pending p s.queue (s.activity p), Stems row audited s.table w
  recoveries : ∀ p, .AS ∈ p.statuses → ∀ w full rows, s.activity p = .writing w full rows →
    ∀ values, full ≠ .put (.set_evt_status_to_be_submitted values)

section
variable {config : Config} {s t : Node} {label : Label} {p : Stage} {row stored : Row} {w : Write}
  {full : Recovery} {evt : Event} {audited : Prop} {table table' : List Row}

theorem Stems.of_evolves (hstems : Stems row audited table w)
    (hevolves : Relation.ReflGen (Evolves MAX_SUBMISSION_ATTEMPTS) table table') :
    Stems row audited table' w := by
  intro values hw
  obtain ⟨⟨stored, hstored, hidentity⟩, haudited⟩ := hstems values hw
  obtain ⟨stored', hstored', hidentity'⟩ := identity_of_evolves hevolves hstored
  exact ⟨⟨stored', hstored', hidentity'.trans hidentity⟩, haudited⟩

theorem Stems.mono {audited' : Prop} (himp : audited → audited') (hstems : Stems row audited table w) :
    Stems row audited' table w := by
  intro values hw
  obtain ⟨hstored, haudited⟩ := hstems values hw
  exact ⟨hstored, fun hidentity hreport => himp (haudited hidentity hreport)⟩

theorem Provenance.mono {audited' : Prop} (himp : audited → audited')
    (hprovenance : Provenance config row audited s) : Provenance config row audited' s where
  inv := hprovenance.inv
  attempted := hprovenance.attempted
  rows := fun stored hstored hattempts hidentity hreport =>
    himp (hprovenance.rows stored hstored hattempts hidentity hreport)
  statements := fun p hassigned w hw => (hprovenance.statements p hassigned w hw).mono himp
  recoveries := hprovenance.recoveries

theorem stems_error (row : Row) (audited : Prop) (table : List Row) (evt : Event) :
    Stems row audited table (set_evt_status_to_error evt) := by
  intro values hw
  cases hw

/-- The callback of an audit writes the report of the audit, or an error. -/
theorem put_of_request {audit : Except PyException (Option AuditResult)}
    {block_number : Except PyException Int} {traceback : String}
    (haction : process_audit_request evt audit block_number traceback = .put w full) :
    (∃ error, w = set_evt_status_to_error error ∧ full = .raise) ∨
      ∃ result height evt' error, audit = .ok (some result) ∧ block_number = .ok height ∧
        w = set_evt_status_to_be_submitted evt' ∧ full = .put (set_evt_status_to_error error) ∧
        (encode evt').identity = (encode evt).identity ∧ (encode evt').report = produced result height := by
  unfold process_audit_request at haction
  split at haction
  · cases haction
  · cases haction
  · obtain ⟨rfl, rfl⟩ := Action.put.inj haction
    exact Or.inl ⟨_, rfl, rfl⟩
  · obtain ⟨rfl, rfl⟩ := Action.put.inj haction
    exact Or.inl ⟨_, rfl, rfl⟩
  · obtain ⟨rfl, rfl⟩ := Action.put.inj haction
    exact Or.inl ⟨_, rfl, rfl⟩
  · next result height =>
    obtain ⟨rfl, rfl⟩ := Action.put.inj haction
    exact Or.inr ⟨result, height, _, _, rfl, rfl, rfl, rfl, rfl, rfl⟩

/-- A callback on an assigned row fills in a report only when it has audited it. -/
theorem called_stems {callback : Event → Action} {rows : List Row} (hassigned : .AS ∈ p.statuses)
    (hcallback : label.callback config s = some (p, callback))
    (hrunning : s.activity p = .running (encode evt :: rows)) (hmem : encode evt ∈ s.table)
    (haction : callback evt = .put w full) :
    Stems row (Audits row s label) s.table w ∧
      ∀ values, full ≠ .put (.set_evt_status_to_be_submitted values) := by
  cases label with
  | timeout =>
    obtain ⟨rfl, rfl⟩ := Prod.mk.inj (Option.some.inj hcallback)
    simp only [timeout_event] at haction
    split at haction
    · obtain ⟨rfl, rfl⟩ := Action.put.inj haction
      exact ⟨stems_error _ _ _ _, fun values hfull => by cases hfull⟩
    · cases haction
  | perform audit block_number traceback =>
    obtain ⟨rfl, rfl⟩ := Prod.mk.inj (Option.some.inj hcallback)
    rcases put_of_request haction with ⟨error, rfl, rfl⟩ |
      ⟨result, height, evt', error, rfl, hheight, rfl, rfl, hidentity, hreport⟩
    · exact ⟨stems_error _ _ _ _, fun values hfull => by cases hfull⟩
    · refine ⟨?_, fun values hfull => by cases hfull⟩
      intro values hvalues
      obtain rfl := Write.set_evt_status_to_be_submitted.inj hvalues
      refine ⟨⟨encode evt, hmem, hidentity.symm⟩, fun hrow hsame => ?_⟩
      cases block_number with
      | error e => cases hheight
      | ok answer =>
        obtain rfl : s.height = height := Except.ok.inj hheight
        exact ⟨result, traceback, encode evt, rows, rfl, hrunning, hidentity.symm.trans hrow,
          hsame.symm.trans hreport⟩
  | submit answers | monitor answers =>
    obtain ⟨rfl, rfl⟩ := Prod.mk.inj (Option.some.inj hcallback)
    simp [Stage.statuses] at hassigned
  | _ => cases hcallback

theorem stems_step (hprovenance : Provenance config row audited s) (hassigned : .AS ∈ p.statuses)
    (hstep : step config s label = some t) :
    (∀ w ∈ pending p t.queue (t.activity p), Stems row (audited ∨ Audits row s label) t.table w) ∧
      ∀ w full rows, t.activity p = .writing w full rows →
        ∀ values, full ≠ .put (.set_evt_status_to_be_submitted values) := by
  have hevolves := step_evolves hprovenance.inv hstep
  refine pending_step ?_ ?_ ?_ ?_ ?_ hstep
  · intro w values hraise
    cases hraise
  · exact fun w hw => ((hprovenance.statements p hassigned w hw).of_evolves hevolves).mono Or.inl
  · exact hprovenance.recoveries p hassigned
  · intro stored rows evt callback hcallback hrunning hdecode w full haction
    obtain ⟨rfl, hmem, _⟩ := hprovenance.inv.running_event hrunning hdecode
    obtain ⟨hstems, hfull⟩ := called_stems hassigned hcallback hrunning hmem haction
    exact ⟨(hstems.of_evolves hevolves).mono Or.inr, hfull⟩
  · intro w v rows _ _ hwriting values hv
    exact absurd (congrArg Recovery.put hv)
      (hprovenance.recoveries p hassigned w (.put v) rows hwriting values)

theorem Attempted.of_evolves (hattempted : Attempted table)
    (hevolves : Relation.ReflGen (Evolves MAX_SUBMISSION_ATTEMPTS) table table') : Attempted table' := by
  cases hevolves with
  | refl => exact hattempted
  | single hevolves =>
    refine hevolves.forall_mem ?_ ?_ hattempted
    · rintro stored ⟨evt, rfl⟩ hstatus
      simp [encode, NewEvt.event] at hstatus
    · intro stored stored' hadvances hbefore hstatus
      have hsuccessor := hadvances.status
      rw [hadvances.attempts]
      by_cases hentered : stored'.fk_status = .TS
      · simp [hentered]
      · have hlater := hstatus.resolve_left hentered
        have hopen : stored.fk_status = .TS ∨ stored.fk_status = .SB := by
          revert hsuccessor
          cases stored.fk_status <;>
            rcases hlater with hlater | hlater <;> simp [Status.successors, hlater]
        have hattempts := hbefore (hopen.imp id Or.inl)
        omega

/-- From `AS` a row comes to `TS` by a statement that fills in its report. -/
theorem to_be_submitted_of_on (hassigned : stored.fk_status = .AS) (hentered : (w.on stored).fk_status = .TS) :
    ∃ values, w = .set_evt_status_to_be_submitted values := by
  cases w with
  | set_evt_status_to_be_submitted values => exact ⟨values, rfl⟩
  | _ => simp [Write.on, hassigned] at hentered

/-- A row gets its report from the statement of an audit. -/
theorem report_step (hprovenance : Provenance config row audited s) (hstep : step config s label = some t) :
    ∀ stored ∈ t.table, stored.submission_attempts ≠ 0 → stored.identity = row.identity →
      stored.report = row.report → audited := by
  have hinv := hprovenance.inv
  intro stored hstored hattempts hidentity hreport
  cases step_effect hstep with
  | silent htable hsends | sent hlabel hrunning hdecode htable hsends =>
    rw [htable] at hstored
    exact hprovenance.rows stored hstored hattempts hidentity hreport
  | @written client w queue hqueue htable hsends =>
    rw [htable] at hstored
    cases client with
    | stage p =>
      obtain ⟨before, hbefore, hstatus, hissues, hexec, _⟩ := hinv.exec_stage hqueue
      rw [hexec] at hstored
      rcases lib.table.of_mem_update hstored with ⟨hkept, _⟩ | ⟨before', hbefore', hid, rfl⟩
      · exact hprovenance.rows stored hkept hattempts hidentity hreport
      obtain rfl := lib.table.eq_of_key_eq hinv.keys hbefore' hbefore (hid.trans hissues.1)
      have hadvances := hissues.2
      rw [identity_on] at hidentity
      by_cases hfirst : before'.fk_status = .AS
      · -- it enters `TS` by what a stage of assigned rows has queued
        have hentered : (w.on before').fk_status = .TS := by
          by_contra hne
          simp [hadvances.attempts, (hinv.stored before' hbefore).attempts_eq_zero hfirst, hne] at hattempts
        obtain ⟨values, rfl⟩ := to_be_submitted_of_on hfirst hentered
        obtain ⟨⟨other, hother, hsame⟩, haudited⟩ :=
          hprovenance.statements p (hfirst ▸ hstatus) (.set_evt_status_to_be_submitted values)
            (by simp [pending, hqueue]) values rfl
        obtain rfl := lib.table.eq_of_key_eq hinv.keys hother hbefore
          ((request_of_identity hsame).1.trans hid.symm)
        refine haudited (hsame.symm.trans hidentity) (Eq.trans ?_ hreport)
        rw [Write.on, if_pos (Or.inl hfirst)]
        rfl
      · -- it has a report, which it keeps
        have hopen : before'.fk_status = .TS ∨ before'.fk_status = .SB := by
          have hsuccessor := hadvances.status
          revert hsuccessor hfirst
          cases before'.fk_status <;> simp [Status.successors]
        exact hprovenance.rows before' hbefore (hprovenance.attempted before' hbefore (hopen.imp id Or.inl))
          hidentity ((hadvances.report hfirst).symm.trans hreport)
    | poll =>
      rcases hinv.exec_poll hqueue with ⟨evt, _, _, hexec⟩ | hexec
      · rw [hexec] at hstored
        rcases List.mem_append.mp hstored with hstored | hstored
        · exact hprovenance.rows stored hstored hattempts hidentity hreport
        · obtain rfl := List.mem_singleton.mp hstored
          exact absurd rfl hattempts
      · rw [hexec] at hstored
        exact hprovenance.rows stored hstored hattempts hidentity hreport

theorem provenance_step (hprovenance : Provenance config row audited s)
    (hstep : step config s label = some t) : Provenance config row (audited ∨ Audits row s label) t where
  inv := step_inv label hprovenance.inv hstep
  attempted := hprovenance.attempted.of_evolves (step_evolves hprovenance.inv hstep)
  rows := fun stored hstored hattempts hidentity hreport =>
    Or.inl (report_step hprovenance hstep stored hstored hattempts hidentity hreport)
  statements := fun _ hassigned => (stems_step hprovenance hassigned hstep).1
  recoveries := fun _ hassigned => (stems_step hprovenance hassigned hstep).2

theorem init_provenance (row : Row) (height : Int) : Provenance config row False (init config height) where
  inv := init_inv height
  attempted := fun _ hstored => absurd hstored List.not_mem_nil
  rows := fun _ hstored => absurd hstored List.not_mem_nil
  statements := fun _ _ _ hw => absurd hw List.not_mem_nil
  recoveries := by simp [init, Node.restart]

/-- The request of what is sent has been submitted to. -/
def Submitted (table : List Row) (send : Send) : Prop :=
  ∃ stored ∈ table, stored.request_id = send.request_id ∧ stored.submission_attempts ≠ 0

theorem Submitted.of_evolves {send : Send} (hsubmitted : Submitted table send)
    (hevolves : Relation.ReflGen (Evolves MAX_SUBMISSION_ATTEMPTS) table table') :
    Submitted table' send := by
  obtain ⟨stored, hstored, hid, hattempts⟩ := hsubmitted
  cases hevolves with
  | refl => exact ⟨stored, hstored, hid, hattempts⟩
  | single hevolves =>
    obtain ⟨stored', hstored', hkey, hadvances⟩ := hevolves.successor hstored
    refine ⟨stored', hstored', hkey.trans hid, ?_⟩
    cases hadvances with
    | refl => exact hattempts
    | single hadvances =>
      rw [hadvances.attempts]
      omega

theorem step_submitted (hinv : Inv config s) (hattempted : Attempted s.table)
    (hsubmitted : ∀ send ∈ s.sends, Submitted s.table send) (hstep : step config s label = some t) :
    ∀ send ∈ t.sends, Submitted t.table send := by
  have hevolves := step_evolves hinv hstep
  intro send hsend
  cases step_effect hstep with
  | silent htable hsends | written hqueue htable hsends =>
    rw [hsends] at hsend
    exact (hsubmitted send hsend).of_evolves hevolves
  | @sent row rows evt answers hlabel hrunning hdecode htable hsends =>
    rw [hsends] at hsend
    rcases List.mem_append.mp hsend with hsend | hsend
    · obtain ⟨rfl, hmem, hstatus⟩ := hinv.running_event hrunning hdecode
      have hsubmit : evt.fk_status = .TS := by simpa [Stage.statuses] using hstatus
      rw [htable]
      exact ⟨encode evt, hmem, (mem_sends hsend).1.symm, hattempted _ hmem (Or.inl hsubmit)⟩
    · exact (hsubmitted send hsend).of_evolves hevolves

theorem audited_of_attempted {height : Int} {labels : List Label}
    (hrun : run (step config) (init config height) labels = some s) (hrow : row ∈ s.table)
    (hattempts : row.submission_attempts ≠ 0) :
    Occurs (step config) (Audits row) (init config height) labels := by
  have hprovenance := run_monitor (p := Audits row) (motive := Provenance config row)
    (fun _ _ _ _ hprovenance hstep => provenance_step hprovenance hstep) (init_provenance row height) hrun
  rw [false_or] at hprovenance
  exact hprovenance.rows row hrow hattempts rfl rfl

theorem run_submitted {height : Int} {labels : List Label}
    (hrun : run (step config) (init config height) labels = some s) :
    ∀ send ∈ s.sends, Submitted s.table send :=
  (run_invariant
    (motive := fun s => Inv config s ∧ Attempted s.table ∧ ∀ send ∈ s.sends, Submitted s.table send)
    (fun _ label _ hinv hstep =>
      ⟨step_inv label hinv.1 hstep, hinv.2.1.of_evolves (step_evolves hinv.1 hstep),
        step_submitted hinv.1 hinv.2.1 hinv.2.2 hstep⟩)
    ⟨init_inv height, fun _ hstored => absurd hstored List.not_mem_nil,
      fun _ hsend => absurd hsend List.not_mem_nil⟩ hrun).2.2

/-- Every report that the node has is that of an audit of what was requested, at the
    block that it is stored with, and nothing else is ever sent, across all
    interleavings of the threads and all restarts. -/
theorem reports_audited {height : Int} {labels : List Label}
    (hrun : run (step config) (init config height) labels = some s) :
    (∀ row ∈ s.table, row.submission_attempts ≠ 0 →
      Occurs (step config) (Audits row) (init config height) labels) ∧
    ∀ send ∈ s.sends, ∃ row ∈ s.table, row.request_id = send.request_id ∧ row.fk_type = send.fk_type ∧
      row.audit_state = send.audit_state ∧ row.compressed_report = send.compressed_report ∧
      Occurs (step config) (Audits row) (init config height) labels := by
  refine ⟨fun _ hrow hattempts => audited_of_attempted hrun hrow hattempts, fun send hsend => ?_⟩
  have hinv := run_inv (init_inv height) hrun
  obtain ⟨row, hrow, hid, _, htype, hstate, hreport⟩ := run_sent hrun send hsend
  obtain ⟨row', hrow', hid', hattempts⟩ := run_submitted hrun send hsend
  obtain rfl := lib.table.eq_of_key_eq hinv.keys hrow hrow' (hid.trans hid'.symm)
  exact ⟨row, hrow, hid, htype, hstate, hreport, audited_of_attempted hrun hrow hattempts⟩

end

theorem reports_audited_resubmission_run :
    ∃ s, run (step sample_config) (init sample_config 100) resubmission_run = some s ∧
      s.sends.map Send.height = [106, 100] ∧
      ∀ send ∈ s.sends, ∃ row ∈ s.table, row.request_id = send.request_id ∧ row.fk_type = send.fk_type ∧
        row.audit_state = send.audit_state ∧ row.compressed_report = send.compressed_report ∧
        Occurs (step sample_config) (Audits row) (init sample_config 100) resubmission_run := by
  have hsent : (run (step sample_config) (init sample_config 100) resubmission_run).map
      (fun s => s.sends.map Send.height) = some [106, 100] := by
    decide +kernel
  obtain ⟨s, hrun, hsends⟩ := Option.map_eq_some_iff.mp hsent
  exact ⟨s, hrun, hsends, (reports_audited hrun).2⟩

end qsp.audit
