import QspNode.Audit.LifeCycle

open lib.fifo lib.transition qsp.evt qsp.monitor_submission_thread qsp.poll_requests_thread

namespace qsp.audit

/-- Some poll found the event assigned, and deep enough in the chain. -/
def Admitted (config : Config) (polls : List Poll) (evt : NewEvt) : Prop :=
  ∃ poll ∈ polls, poll.assignment.evt config = evt ∧
    poll.assignment.Confirmed config poll.current_block

/-- The assignment that the polling thread works on was answered by the
    contract, and is confirmed before it is saved. -/
def Traced (config : Config) (polls : List Poll) : Pc → Prop
  | .asking assignment current_block | .selecting assignment current_block =>
    { current_block, assignment } ∈ polls ∧
      ∀ most_recent, assignment = .audit most_recent → assignment.Confirmed config current_block
  | .saving assignment current_block | .failing assignment current_block =>
    { current_block, assignment } ∈ polls ∧ assignment.Confirmed config current_block
  | .idle | .polling_audit _ | .bidding _ | .sending _ _ _ | .waiting _ _ _ | .polling_police _ => True

/-- Every row, and every row that is yet to be inserted, was admitted by a
    poll. -/
structure Logged (config : Config) (s : Node) : Prop where
  rows : ∀ row ∈ s.table, ∃ evt, Admitted config s.polls evt ∧ row.identity = (encode evt.event).identity
  inserts : ∀ evt, .add_evt_to_be_assigned evt ∈ writes .poll s.queue → Admitted config s.polls evt
  traced : Traced config s.polls s.poll

section
variable {config : Config} {s t : Node} {polls : List Poll} {assignment : Assignment}
  {current_block : Int} {pc : Pc} {p : Stage}

theorem traced_proceed : Traced config polls (assignment.proceed current_block) := by
  cases assignment <;> trivial

theorem traced_abandon : Traced config polls (assignment.abandon current_block) := by
  cases assignment <;> trivial

theorem traced_bid {answers : BidAnswers} : Traced config polls (bid config answers current_block) := by
  unfold bid
  split
  · split
    · trivial
    · split <;> trivial
  · trivial

theorem traced_attempted {i nonce : Nat} {answers : tx.Answers} :
    Traced config polls (attempted config i nonce answers current_block) := by
  unfold attempted
  split <;> trivial

theorem traced_processed {rows : List Row} (hpoll : { current_block, assignment } ∈ polls)
    (haudit : ∀ most_recent, assignment = .audit most_recent →
      assignment.Confirmed config current_block) :
    Traced config polls (processed config assignment current_block rows) := by
  unfold processed
  split
  · exact traced_abandon
  · exact traced_proceed
  · next most_recent _ => exact ⟨hpoll, haudit most_recent rfl⟩
  · split
    · trivial
    · next hassigned =>
      split
      · trivial
      · next hdeep =>
        refine ⟨hpoll, ?_, ?_⟩
        · simpa using hassigned
        · omega

theorem traced_answered {fails : Bool} {rows : List Row} (htraced : Traced config polls pc) :
    Traced config polls (pc.answered config fails rows) := by
  cases pc with
  | selecting assignment current_block =>
    rw [Pc.answered]
    split
    · exact traced_abandon
    · exact traced_processed htraced.1 htraced.2
  | _ => exact htraced

theorem Admitted.cons {evt : NewEvt} {poll : Poll} (hadmitted : Admitted config polls evt) :
    Admitted config (poll :: polls) evt := by
  obtain ⟨poll', hpoll', hevt⟩ := hadmitted
  exact ⟨poll', List.mem_cons_of_mem _ hpoll', hevt⟩

/-- The polling thread reads the contract. -/
theorem Logged.poll_to (hlogged : Logged config s)
    (hpc : (∃ assignment current_block, pc = .asking assignment current_block ∧
      ∀ most_recent, assignment = .audit most_recent → assignment.Confirmed config current_block) ∨
      ((∀ assignment current_block, pc ≠ .asking assignment current_block) ∧
        Traced config s.polls pc)) :
    Logged config (s.poll_to pc) := by
  rcases hpc with ⟨assignment, current_block, rfl, haudit⟩ | ⟨hother, htraced⟩
  · exact
      { rows := by
          intro row hrow
          obtain ⟨evt, hadmitted, hidentity⟩ := hlogged.rows row hrow
          exact ⟨evt, hadmitted.cons, hidentity⟩
        inserts := fun evt hevt => (hlogged.inserts evt hevt).cons
        traced := ⟨List.mem_cons_self, haudit⟩ }
  · have hsame : s.poll_to pc = { s with poll := pc } := by
      unfold Node.poll_to
      split
      · next assignment current_block => exact absurd rfl (hother assignment current_block)
      · rfl
    rw [hsame]
    exact { rows := hlogged.rows, inserts := hlogged.inserts, traced := htraced }

theorem poll_audit_request_asks {is_police_officer : Bool} {answer : Except PyException MostRecentAudit} :
    let pc := poll_audit_request config is_police_officer current_block answer
    (∃ assignment current_block, pc = .asking assignment current_block ∧
      ∀ most_recent, assignment = .audit most_recent → assignment.Confirmed config current_block) ∨
      ((∀ assignment current_block, pc ≠ .asking assignment current_block) ∧
        Traced config polls pc) := by
  unfold poll_audit_request
  split
  · exact Or.inr ⟨by simp, trivial⟩
  · next most_recent =>
    split
    · exact Or.inr ⟨by simp, trivial⟩
    · split
      · exact Or.inr ⟨by simp, trivial⟩
      · next hdeep =>
        split
        · refine Or.inl ⟨_, _, rfl, ?_⟩
          intro _ _
          simp only [Assignment.Confirmed]
          omega
        · exact Or.inr ⟨by simp, trivial⟩

theorem poll_police_request_asks {is_police_officer : Bool}
    {answer : Except PyException PoliceAssignment} :
    let pc := poll_police_request is_police_officer current_block answer
    (∃ assignment current_block, pc = .asking assignment current_block ∧
      ∀ most_recent, assignment = .audit most_recent → assignment.Confirmed config current_block) ∨
      ((∀ assignment current_block, pc ≠ .asking assignment current_block) ∧
        Traced config polls pc) := by
  unfold poll_police_request
  split
  · exact Or.inr ⟨by simp, trivial⟩
  · split
    · exact Or.inl ⟨_, _, rfl, by simp⟩
    · exact Or.inr ⟨by simp, trivial⟩

theorem Logged.poll_put (hlogged : Logged config s) (hstep : poll_put config s = some t) :
    Logged config t := by
  have htraced := hlogged.traced
  unfold audit.poll_put at hstep
  split at hstep
  · next assignment current_block hasking =>
    obtain rfl := Option.some.inj hstep
    rw [hasking] at htraced
    split
    · refine { rows := hlogged.rows, inserts := ?_, traced := htraced }
      intro evt hevt
      rw [Node.enqueue, writes_enqueue_read] at hevt
      exact hlogged.inserts evt hevt
    · exact { rows := hlogged.rows, inserts := hlogged.inserts, traced := traced_abandon }
  · next assignment current_block hsaving =>
    obtain rfl := Option.some.inj hstep
    rw [hsaving] at htraced
    split
    · refine { rows := hlogged.rows, inserts := ?_, traced := traced_proceed }
      intro evt hevt
      rw [Node.enqueue, writes_enqueue_write] at hevt
      rcases List.mem_append.mp hevt with hevt | hevt
      · exact hlogged.inserts evt hevt
      · obtain rfl := Write.add_evt_to_be_assigned.inj (List.mem_singleton.mp hevt)
        exact ⟨_, htraced.1, rfl, htraced.2⟩
    · exact { rows := hlogged.rows, inserts := hlogged.inserts, traced := htraced }
  · next assignment current_block hfailing =>
    obtain rfl := Option.some.inj hstep
    split
    · refine { rows := hlogged.rows, inserts := ?_, traced := traced_proceed }
      intro evt hevt
      rw [Node.enqueue, writes_enqueue_write] at hevt
      rcases List.mem_append.mp hevt with hevt | hevt
      · exact hlogged.inserts evt hevt
      · cases List.mem_singleton.mp hevt
    · exact { rows := hlogged.rows, inserts := hlogged.inserts, traced := traced_abandon }
  · cases hstep

theorem Logged.execute {fails : Bool} (hinv : Inv config s) (hlogged : Logged config s)
    (hstep : execute config fails s = some t) : Logged config t := by
  have hinserts := hlogged.inserts
  unfold audit.execute at hstep
  split at hstep
  · cases hstep
  · next client w queue hqueue =>
    obtain rfl := Option.some.inj hstep
    rw [hqueue] at hinserts
    have hrest (evt : NewEvt) (hevt : .add_evt_to_be_assigned evt ∈ writes .poll queue) :
        Admitted config s.polls evt := by
      apply hinserts evt
      cases client with
      | poll =>
        rw [writes_cons_write]
        exact List.mem_cons_of_mem _ hevt
      | stage p => rwa [writes_cons_of_ne (by simp)]
    refine { rows := ?_, inserts := hrest, traced := hlogged.traced }
    cases fails with
    | true => exact hlogged.rows
    | false =>
      intro row hrow
      have hrow : row ∈ w.exec s.table := hrow
      cases client with
      | stage p =>
        obtain ⟨_, _, _, _, hexec, _⟩ := hinv.exec_stage hqueue
        rw [hexec] at hrow
        rcases lib.table.of_mem_update hrow with ⟨hrow, _⟩ | ⟨before, hbefore, _, rfl⟩
        · exact hlogged.rows row hrow
        · obtain ⟨evt, hadmitted, hidentity⟩ := hlogged.rows before hbefore
          exact ⟨evt, hadmitted, (identity_on w before).trans hidentity⟩
      | poll =>
        rcases hinv.exec_poll hqueue with ⟨evt, rfl, _, hexec⟩ | hexec
        · rw [hexec] at hrow
          rcases List.mem_append.mp hrow with hrow | hrow
          · exact hlogged.rows row hrow
          · obtain rfl := List.mem_singleton.mp hrow
            exact ⟨evt, hinserts evt (by simp), rfl⟩
        · rw [hexec] at hrow
          exact hlogged.rows row hrow
  · next p query queue hqueue =>
    obtain rfl := Option.some.inj hstep
    rw [hqueue] at hinserts
    refine { rows := hlogged.rows, inserts := ?_, traced := hlogged.traced }
    intro evt hevt
    exact hinserts evt (by rwa [writes_cons_of_ne (by simp)])
  · next query queue hqueue =>
    obtain rfl := Option.some.inj hstep
    rw [hqueue] at hinserts
    refine { rows := hlogged.rows, inserts := ?_, traced := traced_answered hlogged.traced }
    intro evt hevt
    exact hinserts evt (by rwa [writes_cons_read])

/-- What a stage does is of no concern to the polling thread. -/
structure Apart (s t : Node) : Prop where
  table : t.table = s.table
  polls : t.polls = s.polls
  poll : t.poll = s.poll
  inserts : writes .poll t.queue = writes .poll s.queue

theorem Logged.apart (hlogged : Logged config s) (hapart : Apart s t) : Logged config t where
  rows := by
    rw [hapart.table, hapart.polls]
    exact hlogged.rows
  inserts := by
    rw [hapart.inserts, hapart.polls]
    exact hlogged.inserts
  traced := by
    rw [hapart.poll, hapart.polls]
    exact hlogged.traced

theorem step_apart {label : Label} (hclient : label.client ≠ some .poll)
    (hexecute : ∀ fails, label ≠ .execute fails) (hrestart : label ≠ .restart)
    (hstep : step config s label = some t) : Apart s t := by
  rcases step_cases hstep with ⟨fails, hlabel⟩ | hlabel | ⟨_, hframe, _⟩
  · exact absurd hlabel (hexecute fails)
  · exact absurd hlabel hrestart
  · exact
      { table := hframe.table
        polls := (hframe.poll hclient).2
        poll := (hframe.poll hclient).1
        inserts := hframe.inserts hclient }

theorem step_logged (label : Label) (hinv : Inv config s) (hlogged : Logged config s)
    (hstep : step config s label = some t) : Logged config t := by
  cases label with
  | execute fails => exact hlogged.execute hinv hstep
  | poll_begin =>
    simp only [step] at hstep
    split at hstep
    · obtain rfl := Option.some.inj hstep
      exact { rows := hlogged.rows, inserts := hlogged.inserts, traced := trivial }
    · cases hstep
  | poll_audit is_police_officer answer =>
    simp only [step] at hstep
    split at hstep
    · obtain rfl := Option.some.inj hstep
      exact Logged.poll_to
        { rows := hlogged.rows, inserts := hlogged.inserts, traced := hlogged.traced }
        poll_audit_request_asks
    · cases hstep
  | poll_police answer =>
    simp only [step] at hstep
    split at hstep
    · obtain rfl := Option.some.inj hstep
      exact hlogged.poll_to poll_police_request_asks
    · cases hstep
  | poll_put => exact hlogged.poll_put hstep
  | poll_bid answers =>
    simp only [step] at hstep
    split at hstep
    · obtain rfl := Option.some.inj hstep
      exact { rows := hlogged.rows, inserts := hlogged.inserts, traced := traced_bid }
    · cases hstep
  | poll_attempt answers =>
    simp only [step] at hstep
    split at hstep
    · obtain rfl := Option.some.inj hstep
      refine { rows := hlogged.rows, inserts := hlogged.inserts, traced := ?_ }
      cases answers.accepted with
      | true => trivial
      | false => exact traced_attempted
    · split at hstep
      · obtain rfl := Option.some.inj hstep
        exact { rows := hlogged.rows, inserts := hlogged.inserts, traced := traced_attempted }
      · cases hstep
    · cases hstep
  | restart =>
    obtain rfl := Option.some.inj hstep
    exact
      { rows := hlogged.rows
        inserts := fun evt hevt => absurd hevt List.not_mem_nil
        traced := trivial }
  | _ => exact hlogged.apart (step_apart (by simp [Label.client]) (by simp) (by simp) hstep)

theorem run_logged {height : Int} {labels : List Label}
    (hrun : run (step config) (init config height) labels = some s) : Logged config s :=
  (run_invariant (motive := fun s => Inv config s ∧ Logged config s)
    (fun _ label _ hinv hstep =>
      ⟨step_inv label hinv.1 hstep, step_logged label hinv.1 hinv.2 hstep⟩)
    ⟨init_inv height,
      { rows := fun _ hrow => absurd hrow List.not_mem_nil
        inserts := fun _ hevt => absurd hevt List.not_mem_nil
        traced := trivial }⟩ hrun).2

/-- No event is saved twice, whatever its type, and none before its assignment
    is deep enough: a poll goes on to save only what the contract answered to it
    and what is confirmed at its block, and each row comes from such a poll. -/
theorem event_saved_once_and_confirmed (config : Config) (height : Int) (labels : List Label) (s : Node)
    (hrun : run (step config) (init config height) labels = some s) :
    (s.table.map Evt.request_id).Nodup ∧
    (∀ assignment current_block, s.poll = .saving assignment current_block →
      { current_block, assignment } ∈ s.polls ∧ assignment.Confirmed config current_block) ∧
    ∀ row ∈ s.table, ∃ poll ∈ s.polls,
      match poll.assignment with
      | .audit most_recent =>
        row.identity =
            (most_recent.request_id, most_recent.requestor, most_recent.uri, "LogAuditAssigned",
              str most_recent.assignment_block_number, .AU, str most_recent.price) ∧
          (most_recent.assignment_block_number = 0 ∨
            most_recent.assignment_block_number + config.n_blocks_confirmation ≤ poll.current_block)
      | .police probe =>
        row.identity =
            (probe.request_id, config.audit_contract_address, probe.uri, "LogAuditAssigned",
              str probe.assignment_block_number, .PC, str probe.price) ∧
          probe.has_assignment = true ∧
            probe.assignment_block_number + config.n_blocks_confirmation ≤ poll.current_block := by
  have hlogged := run_logged hrun
  refine ⟨(run_inv (init_inv height) hrun).keys, ?_, ?_⟩
  · intro assignment current_block hsaving
    have htraced := hlogged.traced
    rwa [hsaving] at htraced
  · intro row hrow
    obtain ⟨evt, ⟨poll, hpoll, rfl, hconfirmed⟩, hidentity⟩ := hlogged.rows row hrow
    obtain ⟨current_block, assignment⟩ := poll
    refine ⟨⟨current_block, assignment⟩, hpoll, ?_⟩
    cases assignment with
    | audit most_recent => exact ⟨hidentity, hconfirmed⟩
    | police probe => exact ⟨hidentity, hconfirmed⟩

end

theorem event_saved_once_audit_run :
    ∃ s, run (step sample_config) (init sample_config 100) (audit_run 0 0) = some s ∧
      s.table.map Evt.request_id = [7] ∧ (s.table.map Evt.request_id).Nodup := by
  have hsaved : (run (step sample_config) (init sample_config 100) (audit_run 0 0)).map
      (fun s => s.table.map Evt.request_id) = some [7] := by
    decide +kernel
  obtain ⟨s, hrun, htable⟩ := Option.map_eq_some_iff.mp hsaved
  exact ⟨s, hrun, htable, (event_saved_once_and_confirmed sample_config 100 _ s hrun).1⟩

end qsp.audit
