import QspNode.Audit.Moves
import QspNode.Audit.Reports

open lib.fifo lib.transition qsp.evt qsp.monitor_submission_thread qsp.submit_report_thread

namespace qsp.audit

/-- No block was mined between the generation of the report of an audit and a
    submission of it that the provider accepts. -/
def submits_in_time (config : Config) (s : Node) : Label → Bool
  | .submit answers =>
    match s.activity .submit with
    | .running (row :: _) =>
      (decode row).all (fun evt =>
        !is_audit evt ||
          (sends config s.height evt answers).all (fun send => send.accepted = []) ||
            evt.submission_block_nbr.any (fun submission_block => s.height ≤ submission_block))
    | _ => true
  | _ => true

theorem submits_in_time_submit {config : Config} {s : Node} {answers : submit_report_thread.Answers}
    {row : Row} {rows : List Row} {evt : Event} {send : Send}
    (hintime : submits_in_time config s (.submit answers) = true)
    (hrunning : s.activity .submit = .running (row :: rows)) (hdecode : decode row = some evt)
    (haudit : is_audit evt = true) (hsend : send ∈ sends config s.height evt answers)
    (haccepted : send.accepted ≠ []) :
    ∃ submission_block, evt.submission_block_nbr = some submission_block ∧
      s.height ≤ submission_block := by
  simp only [submits_in_time, hrunning, hdecode, Option.all_some, haudit, Bool.not_true,
    Bool.false_or, Bool.or_eq_true, List.all_eq_true, decide_eq_true_eq, Option.any_eq_true] at hintime
  rcases hintime with hnone | hblock
  · exact absurd (hnone send hsend) haccepted
  · exact hblock

/-- The request that the monitor thread is about to declare done. -/
def declared_done (s : Node) : Option Int :=
  match s.activity .monitor with
  | .writing (.set_evt_status_to_done _ request_id) _ _ => some request_id
  | _ => none

/-- The submission block of a request is deep enough in the chain. -/
def Deep (config : Config) (s : Node) (request_id : Int) : Prop :=
  ∃ row ∈ s.table, row.request_id = request_id ∧ row.fk_status ≠ .AS ∧
    ∃ submission_block, row.submission_block_nbr = some (str submission_block) ∧
      submission_block + config.n_blocks_confirmation ≤ s.height

/-- The submission block of a request is not before what was sent for it. -/
def Recorded (table : List Row) (send : Send) : Prop :=
  ∃ row ∈ table, row.request_id = send.request_id ∧ row.fk_status ≠ .AS ∧
    ∃ submission_block, row.submission_block_nbr = some (str submission_block) ∧
      send.height ≤ submission_block

/-- Only deep submissions are about to be declared done. -/
def Settles (config : Config) (s : Node) (activity : Activity) : Prop :=
  ∀ w full rows status_info request_id, activity = .writing w full rows →
    (w = .set_evt_status_to_done status_info request_id ∨
      full = .put (.set_evt_status_to_done status_info request_id)) → Deep config s request_id

section
variable {config : Config} {s t : Node}

/-- A deep submission stays deep: its block is recorded for good and the chain
    only grows. -/
theorem Deep.step {label : Label} {request_id : Int} (hinv : Inv config s)
    (hdeep : Deep config s request_id) (hstep : step config s label = some t) :
    Deep config t request_id := by
  obtain ⟨row, hrow, hid, hstatus, block, hblock, hle⟩ := hdeep
  obtain ⟨row', hrow', hstatus', hidentity', hreport'⟩ :=
    produced_of_evolves (step_evolves hinv hstep) hrow hstatus
  exact ⟨row', hrow', (request_of_identity hidentity').1.trans hid, hstatus', block,
    (columns_of_report hreport').2.2.trans hblock, hle.trans (height_le hstep)⟩

theorem Recorded.of_evolves {table table' : List Row} {send : Send} (hrecorded : Recorded table send)
    (hevolves : Relation.ReflGen (Evolves MAX_SUBMISSION_ATTEMPTS) table table') :
    Recorded table' send := by
  obtain ⟨row, hrow, hid, hstatus, block, hblock, hle⟩ := hrecorded
  obtain ⟨row', hrow', hstatus', hidentity', hreport'⟩ := produced_of_evolves hevolves hrow hstatus
  exact ⟨row', hrow', (request_of_identity hidentity').1.trans hid, hstatus', block,
    (columns_of_report hreport').2.2.trans hblock, hle⟩

theorem step_settles {label : Label} (hinv : Inv config s)
    (hsettles : Settles config s (s.activity .monitor)) (hstep : step config s label = some t) :
    Settles config t (t.activity .monitor) := by
  have hkept : Settles config t (s.activity .monitor) := by
    intro w full rows status_info request_id hwriting hdone
    exact (hsettles w full rows status_info request_id hwriting hdone).step hinv hstep
  cases step_moved .monitor hstep with
  | kept hpending hwriting =>
    intro w full rows status_info request_id hactivity
    exact hkept w full rows status_info request_id (hwriting w full rows hactivity)
  | @called row rows evt callback hcallback hrunning hdecode hqueue hactivity =>
    cases label with
    | monitor answers =>
      obtain rfl := (Prod.mk.inj (Option.some.inj hcallback)).2
      obtain ⟨_, hframe, _⟩ := process_next_frame hstep
      obtain ⟨rfl, hmem, hstatus⟩ := hinv.running_event hrunning hdecode
      have hsubmitted : evt.fk_status = .SB := by simpa [Stage.statuses] using hstatus
      intro w full rows' status_info request_id hwriting hdone
      rw [hactivity] at hwriting
      cases haction : monitor_submission_timeout config s.timeout_limit_blocks s.height evt answers with
      | skip => simp [haction, Action.activity] at hwriting
      | put v full' =>
        simp only [haction, Action.activity, Activity.writing.injEq] at hwriting
        obtain ⟨rfl, rfl, rfl⟩ := hwriting
        obtain ⟨rfl, _, _, block, hblock, hle⟩ := monitor_submission_timeout_done haction hdone
        refine ⟨encode evt, hframe.table ▸ hmem, rfl, by simp [encode, hsubmitted], block, ?_,
          hle.trans (height_le hstep)⟩
        simp [encode, hblock]
    | _ => simp [Label.callback] at hcallback
  | @retried w v rows hlabel hfull hwriting hqueue hactivity =>
    intro w' full' rows' status_info request_id hwriting' hdone
    obtain ⟨rfl, rfl, rfl⟩ := Activity.writing.inj (hactivity.symm.trans hwriting')
    rcases hdone with hdone | hdone
    · exact hkept _ _ _ status_info request_id hwriting (Or.inr (congrArg Recovery.put hdone))
    · cases hdone

theorem step_recorded {label : Label} (hinv : Inv config s)
    (hrecorded : ∀ send ∈ s.sends, send.fk_type = .AU → send.accepted ≠ [] → Recorded s.table send)
    (hintime : submits_in_time config s label = true) (hstep : step config s label = some t) :
    ∀ send ∈ t.sends, send.fk_type = .AU → send.accepted ≠ [] → Recorded t.table send := by
  have hevolves := step_evolves hinv hstep
  intro send hsend htype haccepted
  cases step_effect hstep with
  | silent htable hsends | written hqueue htable hsends =>
    rw [hsends] at hsend
    exact (hrecorded send hsend htype haccepted).of_evolves hevolves
  | @sent row rows evt answers hlabel hrunning hdecode htable hsends =>
    subst hlabel
    rw [hsends] at hsend
    rcases List.mem_append.mp hsend with hsend | hsend
    · obtain ⟨rfl, hmem, hstatus⟩ := hinv.running_event hrunning hdecode
      obtain ⟨hid, htype', _, _, hheight⟩ := mem_sends hsend
      have haudit : is_audit evt = true := by simp [is_audit, ← htype', htype]
      have hsubmit : evt.fk_status = .TS := by simpa [Stage.statuses] using hstatus
      obtain ⟨block, hblock, hle⟩ := submits_in_time_submit hintime hrunning hdecode haudit hsend
        haccepted
      rw [htable]
      refine ⟨encode evt, hmem, hid.symm, by simp [encode, hsubmit], block, ?_, by rwa [hheight]⟩
      simp [encode, hblock]
    · exact (hrecorded send hsend htype haccepted).of_evolves hevolves

/-- In a run in which no block is mined between the generation of a report and
    its submissions, an audit is declared done only when its last submission is
    deep enough. -/
theorem done_confirmed_of_submits_in_time (config : Config) (height : Int) (labels : List Label)
    (s : Node)
    (halong : Along (step config) (fun s label => submits_in_time config s label = true)
      (init config height) labels)
    (hrun : run (step config) (init config height) labels = some s) (request_id : Int)
    (hdone : declared_done s = some request_id) :
    ∀ send ∈ s.sends, send.request_id = request_id → send.fk_type = .AU → send.accepted ≠ [] →
      send.height ≤ s.height - config.n_blocks_confirmation := by
  obtain ⟨hinv, hsettles, hrecorded⟩ := run_invariant_along
    (motive := fun s => Inv config s ∧ Settles config s (s.activity .monitor) ∧
      ∀ send ∈ s.sends, send.fk_type = .AU → send.accepted ≠ [] → Recorded s.table send)
    (fun s label t hinv hintime hstep =>
      ⟨step_inv label hinv.1 hstep, step_settles hinv.1 hinv.2.1 hstep,
        step_recorded hinv.1 hinv.2.2 hintime hstep⟩)
    ⟨init_inv height, by simp [Settles, init, Node.restart], fun _ hsend => absurd hsend List.not_mem_nil⟩
    halong hrun
  have hdeep : Deep config s request_id := by
    unfold declared_done at hdone
    split at hdone
    · next status_info _ full rows hwriting =>
      obtain rfl := Option.some.inj hdone
      exact hsettles _ full rows status_info _ hwriting (Or.inl rfl)
    · cases hdone
  rintro send hsend rfl htype haccepted
  obtain ⟨row, hrow, hid, _, block, hblock, hdeep⟩ := hdeep
  obtain ⟨row', hrow', hid', _, block', hblock', hle⟩ := hrecorded send hsend htype haccepted
  obtain rfl := lib.table.eq_of_key_eq hinv.keys hrow hrow' (hid.trans hid'.symm)
  have hsame : block = block' := by
    have hstr : str block = str block' := Option.some.inj (hblock.symm.trans hblock')
    exact Option.some.inj (by rw [← int_str block, hstr, int_str])
  omega

end

theorem done_confirmed_audit_run :
    ∃ s, run (step sample_config) (init sample_config 100) (audit_run 0 6) = some s ∧
      s.sends.map Send.height = [100] ∧ s.height = 106 ∧
      ∀ send ∈ s.sends, send.request_id = 7 → send.fk_type = .AU → send.accepted ≠ [] →
        send.height ≤ s.height - sample_config.n_blocks_confirmation := by
  have hdone : (run (step sample_config) (init sample_config 100) (audit_run 0 6)).map
      (fun s => (s.sends.map Send.height, s.height, declared_done s)) = some ([100], 106, some 7) := by
    decide +kernel
  obtain ⟨s, hrun, hs⟩ := Option.map_eq_some_iff.mp hdone
  obtain ⟨hsends, hheight, hdeclared⟩ : _ ∧ _ ∧ _ := by simpa only [Prod.mk.injEq] using hs
  exact ⟨s, hrun, hsends, hheight,
    done_confirmed_of_submits_in_time sample_config 100 _ s (by decide +kernel) hrun 7 hdeclared⟩

/-- A report that is submitted six blocks after it was generated is declared
    done at once. -/
theorem done_unconfirmed_delayed_submission :
    ∃ s, run (step sample_config) (init sample_config 100) (audit_run 6 0) = some s ∧
      declared_done s = some 7 ∧
      ¬ ∀ send ∈ s.sends, send.request_id = 7 → send.fk_type = .AU → send.accepted ≠ [] →
        send.height ≤ s.height - sample_config.n_blocks_confirmation := by
  have hdone : (run (step sample_config) (init sample_config 100) (audit_run 6 0)).map
      (fun s => (declared_done s,
        s.sends.all (fun send => send.request_id = 7 ∧ send.fk_type = .AU ∧ send.accepted ≠ [] ∧
          s.height - sample_config.n_blocks_confirmation < send.height), s.sends.length)) =
        some (some 7, true, 1) := by
    decide +kernel
  obtain ⟨s, hrun, hs⟩ := Option.map_eq_some_iff.mp hdone
  obtain ⟨hdeclared, hlate, hlength⟩ : _ ∧ _ ∧ _ := by simpa only [Prod.mk.injEq] using hs
  refine ⟨s, hrun, hdeclared, ?_⟩
  intro hall
  obtain ⟨send, hsends⟩ := List.length_eq_one_iff.mp hlength
  rw [hsends] at hall hlate
  obtain ⟨hid, htype, haccepted, hheight⟩ : _ ∧ _ ∧ _ ∧ _ := by simpa using hlate
  have hle := hall send List.mem_cons_self hid htype haccepted
  omega

end qsp.audit
