import QspNode.Audit.Invariant

open lib.fifo qsp.evt qsp.monitor_submission_thread

namespace qsp.audit

section
variable {config : Config} {s t : Node} {p : Stage} {status : Status}

theorem restart_inv (hkeys : (s.table.map Evt.request_id).Nodup)
    (hstored : ∀ row ∈ s.table, Stored MAX_SUBMISSION_ATTEMPTS row) : Inv config (s.restart config) :=
  { keys := hkeys
    stored := hstored
    stages := fun _ => stageInv_idle rfl
    poll := pollInv_idle rfl
    stale := fun _ hmem => hmem
    unstarted := fun _ => ⟨rfl, fun _ _ => rfl, fun _ hjob => absurd hjob List.not_mem_nil⟩
    started := fun hstarted => absurd hstarted Bool.false_ne_true
    ordered := List.Pairwise.nil
    exclusive := fun _ _ _ => rfl }

theorem init_inv (height : Int) : Inv config (init config height) :=
  restart_inv List.nodup_nil (fun _ hrow => absurd hrow List.not_mem_nil)

theorem Inv.begin_select (hinv : Inv config s) (hstarted : s.started = true ↔ p ≠ .timeout)
    (hstatus : status ∈ p.statuses) (hstep : begin_select p status s = some t) : Inv config t := by
  unfold audit.begin_select at hstep
  split at hstep
  · next hidle =>
    obtain rfl := Option.some.inj hstep
    have hstage := hinv.stages p
    rw [hidle] at hstage
    split
    · refine hinv.advance_stage hstarted (hstage.select hstatus) (Or.inr ⟨_, rfl⟩) ?_
      rw [hidle]
      exact tasks_select.trans
    · refine hinv.advance_stage hstarted (hstage.die rfl) (Or.inl rfl) ?_
      rw [hidle]
      exact id
  · cases hstep

/-- The row that a stage takes next is one of the table, in a status of the
    stage, and reads as the event that it encodes. -/
theorem Inv.running_row {row : Row} {rows : List Row} (hinv : Inv config s)
    (hrunning : s.activity p = .running (row :: rows)) :
    ∃ evt, row = encode evt ∧ decode row = some evt ∧ encode evt ∈ s.table ∧
      evt.fk_status ∈ p.statuses := by
  obtain ⟨hmem, hstatus⟩ := (hinv.stages p).owned row (by simp [hrunning, Activity.rows])
  obtain ⟨evt, rfl⟩ := (hinv.stored row hmem).encoded
  exact ⟨evt, rfl, decode_encode evt, hmem, hstatus⟩

theorem Inv.running_event {row : Row} {rows : List Row} {evt : Event} (hinv : Inv config s)
    (hrunning : s.activity p = .running (row :: rows)) (hdecode : decode row = some evt) :
    row = encode evt ∧ encode evt ∈ s.table ∧ evt.fk_status ∈ p.statuses := by
  obtain ⟨evt', rfl, hdecode', hmem, hstatus⟩ := hinv.running_row hrunning
  obtain rfl : evt' = evt := Option.some.inj (hdecode'.symm.trans hdecode)
  exact ⟨rfl, hmem, hstatus⟩

/-- A stage takes its next row, with a callback that respects the rows of the
    stage. -/
theorem Inv.process_next {callback : Event → Action} {sends : Event → List submit_report_thread.Send}
    (hinv : Inv config s)
    (hcallback : ∀ evt, evt.fk_status ∈ p.statuses → Stored MAX_SUBMISSION_ATTEMPTS (encode evt) →
      (callback evt).Respects MAX_SUBMISSION_ATTEMPTS (encode evt))
    (hstep : process_next p callback sends s = some t) : Inv config t := by
  unfold audit.process_next at hstep
  split at hstep
  · next row rows hrunning =>
    obtain rfl := Option.some.inj hstep
    have hstarted := hinv.started_iff (p := p) (by simp [hrunning])
    have hstage := hinv.stages p
    obtain ⟨evt, rfl, hdecode, hmem, hstatus⟩ := hinv.running_row hrunning
    have hrespects := hcallback evt hstatus (hinv.stored (encode evt) hmem)
    rw [hrunning] at hstage
    have hbusy (activity : Activity) : tasks p s.queue (s.activity p) = [] →
        tasks p s.queue activity = [] := by
      simp [hrunning, tasks, Activity.rows]
    simp only [hdecode]
    cases haction : callback evt with
    | skip => exact hinv.advance_stage hstarted hstage.skip (Or.inl rfl) (hbusy _)
    | put w full =>
      rw [haction] at hrespects
      exact hinv.advance_stage hstarted (hstage.write hrespects.1 hrespects.2) (Or.inl rfl) (hbusy _)
  · cases hstep

theorem Inv.put (hinv : Inv config s) (hstep : put p s = some t) : Inv config t := by
  unfold audit.put at hstep
  split at hstep
  · next w full rows hwriting =>
    obtain rfl := Option.some.inj hstep
    have hstarted := hinv.started_iff (p := p) (by simp [hwriting])
    have hstage := hinv.stages p
    rw [hwriting] at hstage
    have hbusy (queue : List (Client × Request Write Query)) (activity : Activity) :
        tasks p s.queue (s.activity p) = [] → tasks p queue activity = [] := by
      simp [hwriting, tasks, pending, Activity.held]
    split
    · exact hinv.advance_stage hstarted hstage.put (Or.inr ⟨_, rfl⟩) (hbusy _ _)
    · cases full with
      | raise => exact hinv.advance_stage hstarted (hstage.die rfl) (Or.inl rfl) (hbusy _ _)
      | ignore => exact hinv.advance_stage hstarted hstage.drop (Or.inl rfl) (hbusy _ _)
      | put v => exact hinv.advance_stage hstarted hstage.retry (Or.inl rfl) (hbusy _ _)
  · cases hstep

theorem Inv.poll_put (hinv : Inv config s) (hstep : poll_put config s = some t) : Inv config t := by
  have hpoll := hinv.poll
  unfold audit.poll_put at hstep
  split at hstep
  · next assignment current_block hasking =>
    obtain rfl := Option.some.inj hstep
    have hstarted := hinv.started_of_poll (by simp [hasking])
    rw [hasking] at hpoll
    split
    · exact hinv.advance_poll hstarted hpoll.ask (Or.inr ⟨_, rfl⟩)
    · exact hinv.advance_poll hstarted
        (hpoll.move rfl poll_requests_thread.awaited_abandon poll_requests_thread.statements_abandon)
        (Or.inl rfl)
  · next assignment current_block hsaving =>
    obtain rfl := Option.some.inj hstep
    have hstarted := hinv.started_of_poll (by simp [hsaving])
    rw [hsaving] at hpoll
    split
    · exact hinv.advance_poll hstarted
        (hpoll.put rfl rfl poll_requests_thread.awaited_proceed poll_requests_thread.statements_proceed)
        (Or.inr ⟨_, rfl⟩)
    · exact hinv.advance_poll hstarted hpoll.fail (Or.inl rfl)
  · next assignment current_block hfailing =>
    obtain rfl := Option.some.inj hstep
    have hstarted := hinv.started_of_poll (by simp [hfailing])
    rw [hfailing] at hpoll
    split
    · exact hinv.advance_poll hstarted
        (hpoll.put rfl rfl poll_requests_thread.awaited_proceed poll_requests_thread.statements_proceed)
        (Or.inr ⟨_, rfl⟩)
    · exact hinv.advance_poll hstarted
        (hpoll.move rfl poll_requests_thread.awaited_abandon poll_requests_thread.statements_abandon)
        (Or.inl rfl)
  · cases hstep

/-- The polling thread moves on without the database. -/
theorem Inv.poll_move {pc : poll_requests_thread.Pc} (hinv : Inv config s) (hstarted : s.started = true)
    (hfree : s.poll.awaited = none) (hawaited : pc.awaited = none) (hstatements : pc.statements config = []) :
    Consistent config s.table s.queue s.activity pc s.stale_queries s.started :=
  hinv.advance_poll hstarted (hinv.poll.move hfree hawaited hstatements) (Or.inl rfl)

theorem poll_audit_request_free {is_police_officer : Bool} {current_block : Int}
    {answer : Except PyException poll_requests_thread.MostRecentAudit} :
    let pc := poll_requests_thread.poll_audit_request config is_police_officer current_block answer
    pc.awaited = none ∧ pc.statements config = [] := by
  unfold poll_requests_thread.poll_audit_request
  split
  · exact ⟨rfl, rfl⟩
  · split
    · exact ⟨rfl, rfl⟩
    · split
      · exact ⟨rfl, rfl⟩
      · split <;> exact ⟨rfl, rfl⟩

theorem poll_police_request_free {is_police_officer : Bool} {current_block : Int}
    {answer : Except PyException poll_requests_thread.PoliceAssignment} :
    let pc := poll_requests_thread.poll_police_request is_police_officer current_block answer
    pc.awaited = none ∧ pc.statements config = [] := by
  unfold poll_requests_thread.poll_police_request
  split
  · exact ⟨rfl, rfl⟩
  · split <;> exact ⟨rfl, rfl⟩

theorem bid_free {answers : poll_requests_thread.BidAnswers} {current_block : Int} :
    let pc := poll_requests_thread.bid config answers current_block
    pc.awaited = none ∧ pc.statements config = [] := by
  unfold poll_requests_thread.bid
  split
  · split
    · exact ⟨rfl, rfl⟩
    · split <;> exact ⟨rfl, rfl⟩
  · exact ⟨rfl, rfl⟩

theorem attempted_free {i nonce : Nat} {answers : tx.Answers} {current_block : Int} :
    let pc := poll_requests_thread.attempted config i nonce answers current_block
    pc.awaited = none ∧ pc.statements config = [] := by
  unfold poll_requests_thread.attempted
  split <;> exact ⟨rfl, rfl⟩

theorem poll_to_frame (s : Node) (pc : poll_requests_thread.Pc) :
    (s.poll_to pc).table = s.table ∧ (s.poll_to pc).queue = s.queue ∧
      (s.poll_to pc).activity = s.activity ∧ (s.poll_to pc).poll = pc ∧
      (s.poll_to pc).stale_queries = s.stale_queries ∧ (s.poll_to pc).started = s.started ∧
      (s.poll_to pc).sends = s.sends ∧ (s.poll_to pc).height = s.height := by
  unfold Node.poll_to
  split <;> exact ⟨rfl, rfl, rfl, rfl, rfl, rfl, rfl, rfl⟩

theorem Inv.poll_to {pc : poll_requests_thread.Pc} (hinv : Inv config s) (hstarted : s.started = true)
    (hfree : s.poll.awaited = none) (hpc : pc.awaited = none ∧ pc.statements config = []) :
    Inv config (s.poll_to pc) := by
  obtain ⟨htable, hqueue, hactivity, hpoll, hstale, hstart, _⟩ := poll_to_frame s pc
  rw [Inv, htable, hqueue, hactivity, hpoll, hstale, hstart]
  exact hinv.poll_move hstarted hfree hpc.1 hpc.2

theorem Inv.poll_audit {is_police_officer : Bool}
    {answer : Except PyException poll_requests_thread.MostRecentAudit} (hinv : Inv config s)
    (hstep : step config s (.poll_audit is_police_officer answer) = some t) : Inv config t := by
  simp only [step] at hstep
  split at hstep
  · next current_block hpoll =>
    obtain rfl := Option.some.inj hstep
    exact Inv.poll_to (s := { s with is_police_officer_cached := _ }) hinv
      (hinv.started_of_poll (by simp [hpoll])) (by rw [hpoll]; rfl) poll_audit_request_free
  · cases hstep

theorem Inv.poll_police {answer : Except PyException poll_requests_thread.PoliceAssignment}
    (hinv : Inv config s) (hstep : step config s (.poll_police answer) = some t) : Inv config t := by
  simp only [step] at hstep
  split at hstep
  · next current_block hpoll =>
    obtain rfl := Option.some.inj hstep
    exact hinv.poll_to (hinv.started_of_poll (by simp [hpoll])) (by rw [hpoll]; rfl)
      poll_police_request_free
  · cases hstep

theorem Inv.poll_bid {answers : poll_requests_thread.BidAnswers} (hinv : Inv config s)
    (hstep : step config s (.poll_bid answers) = some t) : Inv config t := by
  simp only [step] at hstep
  split at hstep
  · next current_block hpoll =>
    obtain rfl := Option.some.inj hstep
    exact hinv.poll_move (hinv.started_of_poll (by simp [hpoll])) (by rw [hpoll]; rfl) bid_free.1
      bid_free.2
  · cases hstep

theorem Inv.poll_attempt {answers : tx.Answers} (hinv : Inv config s)
    (hstep : step config s (.poll_attempt answers) = some t) : Inv config t := by
  simp only [step] at hstep
  split at hstep
  · next i nonce current_block hpoll =>
    obtain rfl := Option.some.inj hstep
    have hstarted := hinv.started_of_poll (by simp [hpoll])
    have hfree : s.poll.awaited = none := by
      rw [hpoll]
      rfl
    cases answers.accepted with
    | true => exact hinv.poll_move hstarted hfree rfl rfl
    | false => exact hinv.poll_move hstarted hfree attempted_free.1 attempted_free.2
  · next i nonce current_block hpoll =>
    split at hstep
    · obtain rfl := Option.some.inj hstep
      exact hinv.poll_move (hinv.started_of_poll (by simp [hpoll])) (by rw [hpoll]; rfl)
        attempted_free.1 attempted_free.2
    · cases hstep
  · cases hstep

theorem timeout_event_respects {first_valid_block : Int} {evt : Event}
    (hstatus : evt.fk_status ∈ Stage.timeout.statuses)
    (hattempts : evt.submission_attempts ≤ MAX_SUBMISSION_ATTEMPTS) :
    (timeout_event first_valid_block evt).Respects MAX_SUBMISSION_ATTEMPTS (encode evt) := by
  unfold timeout_event
  split
  · refine ⟨issues_error rfl ?_ hattempts, respects_ignore⟩
    revert hstatus
    cases evt.fk_status <;> simp [Stage.statuses, stale_statuses]
  · trivial

theorem step_inv (label : Label) (hinv : Inv config s) (hstep : step config s label = some t) :
    Inv config t := by
  cases label with
  | mine blocks | block_mined =>
    obtain rfl := Option.some.inj hstep
    exact hinv
  | execute fails => exact hinv.execute hstep
  | select_stale =>
    simp only [step] at hstep
    split at hstep
    · cases hstep
    · next status stale_queries hstale =>
      have hunstarted : s.started = false := by
        by_contra hstarted
        simp [(hinv.started (Bool.eq_true_of_not_eq_false hstarted)).1] at hstale
      have hstatus := hinv.stale
      rw [hstale] at hstatus
      have hrest : Inv config { s with stale_queries } :=
        { hinv with
          stale := fun status hmem => hstatus status (List.mem_cons_of_mem _ hmem)
          started := fun hstarted => absurd hstarted (by simp [hunstarted]) }
      exact hrest.begin_select (p := .timeout) (by simp [hunstarted]) (hstatus status List.mem_cons_self)
        hstep
  | select_incoming =>
    simp only [step] at hstep
    split at hstep
    · next hstarted =>
      exact hinv.begin_select (p := .perform) (by simp [hstarted]) (by simp [Stage.statuses]) hstep
    · cases hstep
  | select_to_be_submitted =>
    simp only [step] at hstep
    split at hstep
    · next hstarted =>
      exact hinv.begin_select (p := .submit) (by simp [hstarted]) (by simp [Stage.statuses]) hstep
    · cases hstep
  | select_monitored timeout_limit_blocks =>
    simp only [step] at hstep
    split at hstep
    · next hguard =>
      obtain ⟨hstarted, hidle⟩ := hguard
      split at hstep
      · obtain rfl := Option.some.inj hstep
        have hstage := hinv.stages .monitor
        refine hinv.advance_stage (by simp [hstarted]) (hstage.die (by rw [hidle]; rfl)) (Or.inl rfl) ?_
        rw [hidle]
        exact id
      · next limit =>
        have hmonitored : Status.SB ∈ Stage.monitor.statuses := by simp [Stage.statuses]
        exact Inv.begin_select (s := { s with timeout_limit_blocks := limit }) hinv (by simp [hstarted])
          hmonitored hstep
    · cases hstep
  | timeout =>
    exact hinv.process_next (fun evt hstatus hstored => timeout_event_respects hstatus hstored.attempts_le)
      hstep
  | perform audit block_number traceback =>
    refine hinv.process_next ?_ hstep
    intro evt hstatus hstored
    obtain hassigned : evt.fk_status = .AS := by simpa [Stage.statuses] using hstatus
    apply perform_audit_thread.process_audit_request_respects hassigned
    have hzero : evt.submission_attempts = 0 := hstored.attempts_eq_zero hassigned
    rw [hzero]
    decide
  | submit answers =>
    refine hinv.process_next ?_ hstep
    intro evt hstatus hstored
    exact submit_report_thread.process_submission_request_respects
      (by simpa [Stage.statuses] using hstatus) hstored.attempts_le
  | monitor answers =>
    refine hinv.process_next ?_ hstep
    intro evt hstatus hstored
    exact monitor_submission_timeout_respects (by simpa [Stage.statuses] using hstatus)
      hstored.attempts_le
  | put p => exact hinv.put hstep
  | poll_begin =>
    simp only [step] at hstep
    split at hstep
    · next hguard =>
      obtain ⟨hstarted, hidle, _⟩ := hguard
      obtain rfl := Option.some.inj hstep
      exact hinv.poll_move hstarted (by rw [hidle]; rfl) rfl rfl
    · cases hstep
  | poll_audit is_police_officer answer => exact hinv.poll_audit hstep
  | poll_police answer => exact hinv.poll_police hstep
  | poll_put => exact hinv.poll_put hstep
  | poll_bid answers => exact hinv.poll_bid hstep
  | poll_attempt answers => exact hinv.poll_attempt hstep
  | start_threads =>
    simp only [step] at hstep
    split at hstep
    · next hguard =>
      obtain ⟨_, hstale, hidle⟩ := hguard
      obtain rfl := Option.some.inj hstep
      exact
        { hinv with
          unstarted := fun hunstarted => absurd hunstarted (by simp)
          started := fun _ => ⟨hstale, hidle⟩ }
    · cases hstep
  | restart =>
    obtain rfl := Option.some.inj hstep
    exact restart_inv hinv.keys hinv.stored

end

end qsp.audit
