import QspNode.Audit.Moves
import QspNode.Audit.Reports

open lib.fifo lib.transition qsp.evt qsp.monitor_submission_thread qsp.submit_report_thread

namespace qsp.audit

/-- The node and what became of the submissions, newest first: the hash of the
    transaction that was sent for the request, or the exception instead. -/
structure Ledger where
  node : Node
  submissions : List (Int × Except PyException String)

/-- The submission that a step is. -/
def submitted (config : Config) (s : Node) : Label → List (Int × Except PyException String)
  | .submit answers =>
    match s.activity .submit with
    | .running (row :: _) =>
      match decode row with
      | none => []
      | some evt => [(evt.request_id, tx_hash config s.height evt answers)]
    | _ => []
  | _ => []

def Ledger.step (config : Config) (l : Ledger) (label : Label) : Option Ledger :=
  (audit.step config l.node label).map (fun node =>
    { node, submissions := submitted config l.node label ++ l.submissions })

def Ledger.init (config : Config) (height : Int) : Ledger :=
  { node := audit.init config height, submissions := [] }

/-- The hash of the transaction that the latest submission for a request sent. -/
def latest (submissions : List (Int × Except PyException String)) (request_id : Int) : Option String :=
  (submissions.find? (fun submission => submission.1 = request_id)).bind
    (fun submission => submission.2.toOption)

/-- The monitoring of an event ends in no exception but one of a missing
    field. -/
def undisturbed (evt : Event) (answers : monitor_submission_thread.Answers) : Bool :=
  match answers.isAuditFinished, answers.block_number with
  | .error (.KeyError _), _ | .ok _, .error (.KeyError _) => true
  | .error _, _ | .ok _, .error _ => false
  | .ok finished, .ok _ => !finished || evt.submission_block_nbr.isSome

/-- No exception makes the monitor thread submit a report once more: it does not
    occur, the attempts are used up, or it is the timed retry that it
    interrupts. -/
def no_retry_after_exception (s : Node) : Label → Bool
  | .monitor answers =>
    match s.activity .monitor with
    | .running (row :: _) =>
      (decode row).all (fun evt =>
        MAX_SUBMISSION_ATTEMPTS < evt.submission_attempts + 1 || undisturbed evt answers)
    | _ => true
  | .put .monitor =>
    match s.activity .monitor with
    | .writing (.set_evt_status_to_be_submitted _) _ _ => true
    | .writing _ (.put (.set_evt_status_to_be_submitted _)) _ => s.has_room
    | _ => true
  | _ => true

/-- The hash of a row is that of the current submission. -/
def Current (submissions : List (Int × Except PyException String)) (row : Row) : Prop :=
  ((row.fk_status = .AS ∨ row.fk_status = .TS) → row.tx_hash = none) ∧
    (row.fk_status = .SB → ∃ hash, row.tx_hash = some hash ∧
      latest submissions row.request_id = some hash)

/-- The hash that a statement of a stage binds is that of the current
    submission. -/
def Carries (submissions : List (Int × Except PyException String)) (p : Stage) : Write → Prop
  | .set_evt_status_to_be_submitted values => values.tx_hash = none
  | .set_evt_status_to_submitted values =>
    p = .submit ∧ ∃ hash, values.tx_hash = some hash ∧ latest submissions values.request_id = some hash
  | _ => True

/-- Only the monitor thread tries a retry instead, and after a timed retry it
    has reset the hash. -/
def Recovers (p : Stage) (w : Write) (full : Recovery) : Prop :=
  ∀ v, full = .put v → (∀ values, v ≠ .set_evt_status_to_submitted values) ∧
    ∀ values, v = .set_evt_status_to_be_submitted values →
      p = .monitor ∧ ((∃ values', w = .set_evt_status_to_be_submitted values') → values.tx_hash = none)

/-- What a callback puts. -/
def Binds (submissions : List (Int × Except PyException String)) (p : Stage) (action : Action) : Prop :=
  ∀ w full, action = .put w full → Carries submissions p w ∧ Recovers p w full

/-- The invariant of the hashes. -/
structure Hashed (config : Config) (l : Ledger) : Prop where
  inv : Inv config l.node
  rows : ∀ row ∈ l.node.table, Current l.submissions row
  statements : ∀ p, ∀ w ∈ pending p l.node.queue (l.node.activity p), Carries l.submissions p w
  recoveries : ∀ p w full rows, l.node.activity p = .writing w full rows → Recovers p w full

section
variable {config : Config} {s t : Node} {l m : Ledger} {label : Label} {p : Stage} {w : Write}
  {row : Row} {evt : Event} {subs : List (Int × Except PyException String)} {request_id : Int}

theorem latest_cons_of_ne {submission : Int × Except PyException String}
    (hne : submission.1 ≠ request_id) : latest (submission :: subs) request_id = latest subs request_id := by
  rw [latest, List.find?_cons_of_neg (by simpa using hne), latest]

theorem recovers_error : Recovers p w (.put (set_evt_status_to_error evt)) := by
  intro v hv
  obtain rfl := Recovery.put.inj hv
  constructor
  · intro values heq
    cases heq
  · intro values heq
    cases heq

theorem recovers_raise : Recovers p w .raise := by
  intro v hv
  cases hv

theorem binds_skip : Binds subs p .skip := by
  intro w full haction
  cases haction

theorem binds_put {full : Recovery} (hcarries : Carries subs p w) (hrecovers : Recovers p w full) :
    Binds subs p (.put w full) := by
  intro w' full' haction
  obtain ⟨rfl, rfl⟩ := Action.put.inj haction
  exact ⟨hcarries, hrecovers⟩

theorem timeout_event_binds {first_valid_block : Int} :
    Binds subs .timeout (timeout_event first_valid_block evt) := by
  unfold timeout_event
  split
  · exact binds_put trivial (fun v hv => by cases hv)
  · exact binds_skip

theorem process_audit_request_binds
    {audit : Except PyException (Option perform_audit_thread.AuditResult)}
    {block_number : Except PyException Int} {traceback : String} (hnone : evt.tx_hash = none) :
    Binds subs .perform (perform_audit_thread.process_audit_request evt audit block_number traceback) := by
  unfold perform_audit_thread.process_audit_request
  split
  · exact binds_skip
  · exact binds_skip
  · exact binds_put trivial recovers_raise
  · exact binds_put trivial recovers_raise
  · exact binds_put trivial recovers_raise
  · exact binds_put hnone recovers_error

theorem process_submission_request_binds {height : Int} {answers : submit_report_thread.Answers}
    (hlatest : latest subs evt.request_id = (tx_hash config height evt answers).toOption) :
    Binds subs .submit (process_submission_request config height evt answers) := by
  unfold process_submission_request
  split
  · exact binds_skip
  · exact binds_skip
  · exact binds_skip
  · exact binds_put trivial recovers_raise
  · next hash hhash =>
    rw [hhash] at hlatest
    exact binds_put ⟨rfl, hash, rfl, hlatest⟩ recovers_error

/-- The handler for any exception, which keeps the hash of the event. -/
theorem unexpected_error_carries {answers : monitor_submission_thread.Answers}
    (hreset : evt.submission_attempts + 1 ≤ MAX_SUBMISSION_ATTEMPTS → evt.tx_hash = none) :
    Carries subs p (unexpected_error evt answers) := by
  simp only [unexpected_error]
  split
  · trivial
  · next hroom => exact hreset (by omega)

theorem recovers_unexpected_error {answers : monitor_submission_thread.Answers}
    (hreset : (∃ values, w = .set_evt_status_to_be_submitted values) → evt.tx_hash = none) :
    Recovers .monitor w (.put (unexpected_error evt answers)) := by
  intro v hv
  obtain rfl := Recovery.put.inj hv
  constructor
  · intro values heq
    simp only [unexpected_error] at heq
    split at heq
    · cases heq
    · cases heq
  · intro values heq
    simp only [unexpected_error] at heq
    split at heq
    · cases heq
    · obtain rfl := Write.set_evt_status_to_be_submitted.inj heq
      exact ⟨rfl, hreset⟩

theorem handle_binds {answers : monitor_submission_thread.Answers} {e : PyException}
    (hclean : MAX_SUBMISSION_ATTEMPTS < evt.submission_attempts + 1 ∨ ∃ key, e = .KeyError key) :
    Binds subs .monitor (handle evt answers e) := by
  unfold handle
  split
  · exact binds_put trivial recovers_raise
  · next hkey =>
    refine binds_put (unexpected_error_carries ?_) recovers_raise
    intro hroom
    rcases hclean with hused | ⟨key, rfl⟩
    · omega
    · exact absurd rfl (hkey key)

theorem monitor_submission_timeout_binds {timeout_limit_blocks height : Int}
    {answers : monitor_submission_thread.Answers}
    (hclean : MAX_SUBMISSION_ATTEMPTS < evt.submission_attempts + 1 ∨ undisturbed evt answers = true) :
    Binds subs .monitor
      (monitor_submission_timeout config timeout_limit_blocks height evt answers) := by
  unfold undisturbed at hclean
  unfold monitor_submission_timeout
  split
  · next e herror =>
    apply handle_binds
    rw [herror] at hclean
    cases e <;> simp_all
  · next finished e hfinished herror =>
    apply handle_binds
    rw [hfinished, herror] at hclean
    cases e <;> simp_all
  · next hfinished hblock =>
    unfold finished
    split
    · next hnone =>
      apply handle_binds
      simpa [hfinished, hblock, hnone] using hclean
    · split
      · exact binds_skip
      · refine binds_put trivial (recovers_unexpected_error ?_)
        rintro ⟨values, heq⟩
        cases heq
  · unfold unfinished
    split
    · split
      · refine binds_put trivial (recovers_unexpected_error ?_)
        rintro ⟨values, heq⟩
        cases heq
      · exact binds_put rfl (recovers_unexpected_error (fun _ => rfl))
    · refine binds_put trivial (recovers_unexpected_error ?_)
      rintro ⟨values, heq⟩
      cases heq

/-- A statement leaves the rows with the hash of the current submission. -/
theorem Current.on (hcurrent : Current subs row) (hcarries : Carries subs p w)
    (hid : w.request_id = row.request_id) : Current subs (w.on row) := by
  cases w with
  | add_evt_to_be_assigned evt => exact hcurrent
  | set_evt_status_to_be_submitted values =>
    simp only [Write.on]
    split
    · exact ⟨fun _ => hcarries, fun heq => by cases heq⟩
    · exact hcurrent
  | set_evt_status_to_submitted values =>
    simp only [Write.on]
    split
    · obtain ⟨_, hash, hhash, hlatest⟩ := hcarries
      have hsame : values.request_id = row.request_id := hid
      rw [hsame] at hlatest
      exact ⟨by simp, fun _ => ⟨hash, hhash, hlatest⟩⟩
    · exact hcurrent
  | set_evt_status_to_done status_info request_id =>
    simp only [Write.on]
    split
    · simp [Current]
    · exact hcurrent
  | set_evt_status_to_error status_info request_id => simp [Write.on, Current]

/-- What a step submits is the event that the submit thread works on. -/
theorem submitted_cases (config : Config) (s : Node) (label : Label) :
    submitted config s label = [] ∨ ∃ answers row rows evt, label = .submit answers ∧
      s.activity .submit = .running (row :: rows) ∧ decode row = some evt ∧
      submitted config s label = [(evt.request_id, tx_hash config s.height evt answers)] := by
  unfold submitted
  split
  · next answers =>
    split
    · next row rows hrunning =>
      cases hdecode : decode row with
      | none => exact Or.inl rfl
      | some evt => exact Or.inr ⟨answers, row, rows, evt, rfl, hrunning, hdecode, rfl⟩
    · exact Or.inl rfl
  · exact Or.inl rfl

/-- Nothing is submitted for a request that is submitted already. -/
theorem Hashed.current (hhashed : Hashed config l) (hrow : row ∈ l.node.table) :
    Current (submitted config l.node label ++ l.submissions) row := by
  refine ⟨(hhashed.rows row hrow).1, ?_⟩
  intro hstatus
  obtain ⟨hash, hhash, hlatest⟩ := (hhashed.rows row hrow).2 hstatus
  refine ⟨hash, hhash, ?_⟩
  rcases submitted_cases config l.node label with hnone | ⟨answers, row', rows, evt, _, hrunning, hdecode, hone⟩
  · rwa [hnone]
  · obtain ⟨rfl, hmem, hstatus'⟩ := hhashed.inv.running_event hrunning hdecode
    rw [hone, List.singleton_append, latest_cons_of_ne, hlatest]
    intro hid
    obtain rfl := lib.table.eq_of_key_eq hhashed.inv.keys hmem hrow hid
    have hsubmit : evt.fk_status = .TS := by simpa [Stage.statuses] using hstatus'
    rw [encode, hsubmit] at hstatus
    cases hstatus

/-- Nor for one whose hash is still to be stored. -/
theorem Hashed.carries (hhashed : Hashed config l)
    (hw : w ∈ pending p l.node.queue (l.node.activity p)) :
    Carries (submitted config l.node label ++ l.submissions) p w := by
  have hcarries := hhashed.statements p w hw
  cases w with
  | set_evt_status_to_submitted values =>
    obtain ⟨rfl, hash, hhash, hlatest⟩ := hcarries
    refine ⟨rfl, hash, hhash, ?_⟩
    rcases submitted_cases config l.node label with
      hnone | ⟨answers, row, rows, evt, _, hrunning, hdecode, hone⟩
    · rwa [hnone]
    · obtain ⟨rfl, _⟩ := hhashed.inv.running_event hrunning hdecode
      rw [hone, List.singleton_append, latest_cons_of_ne, hlatest]
      intro hid
      have hdistinct := (hhashed.inv.stages .submit).distinct
      rw [hrunning] at hdistinct hw
      have hapart := (List.nodup_append.mp hdistinct).2.2
      exact hapart values.request_id (List.mem_map_of_mem hw) evt.request_id
        (List.mem_map_of_mem List.mem_cons_self) hid.symm
  | _ => exact hcarries

theorem rows_step (hhashed : Hashed config l) (hstep : step config l.node label = some t) :
    ∀ row ∈ t.table, Current (submitted config l.node label ++ l.submissions) row := by
  have hinv := hhashed.inv
  cases step_effect hstep with
  | silent htable hsends | sent hlabel hrunning hdecode htable hsends =>
    rw [htable]
    exact fun row hrow => hhashed.current hrow
  | @written client w queue hqueue htable hsends =>
    rw [htable]
    cases client with
    | stage p =>
      obtain ⟨_, _, _, _, hexec, _⟩ := hinv.exec_stage hqueue
      have hcarries : Carries (submitted config l.node label ++ l.submissions) p w :=
        hhashed.carries (by simp [pending, hqueue])
      rw [hexec]
      intro row hrow
      rcases lib.table.of_mem_update hrow with ⟨hrow', _⟩ | ⟨row', hrow', hid, rfl⟩
      · exact hhashed.current hrow'
      · exact (hhashed.current hrow').on hcarries hid.symm
    | poll =>
      rcases hinv.exec_poll hqueue with ⟨evt, _, _, hexec⟩ | hexec
      · rw [hexec]
        intro row hrow
        rcases List.mem_append.mp hrow with hrow | hrow
        · exact hhashed.current hrow
        · obtain rfl := List.mem_singleton.mp hrow
          exact ⟨fun _ => rfl, fun heq => by cases heq⟩
      · rw [hexec]
        exact fun row hrow => hhashed.current hrow

theorem callback_binds {callback : Event → Action} {rows : List Row} (hhashed : Hashed config l)
    (hclean : no_retry_after_exception l.node label = true)
    (hcallback : label.callback config l.node = some (p, callback))
    (hrunning : l.node.activity p = .running (row :: rows)) (hdecode : decode row = some evt) :
    Binds (submitted config l.node label ++ l.submissions) p (callback evt) := by
  cases label with
  | timeout =>
    obtain ⟨rfl, rfl⟩ := Prod.mk.inj (Option.some.inj hcallback)
    exact timeout_event_binds
  | perform audit block_number traceback =>
    obtain ⟨rfl, rfl⟩ := Prod.mk.inj (Option.some.inj hcallback)
    apply process_audit_request_binds
    obtain ⟨rfl, hmem, hstatus⟩ := hhashed.inv.running_event hrunning hdecode
    have hassigned : evt.fk_status = .AS := by simpa [Stage.statuses] using hstatus
    exact (hhashed.rows (encode evt) hmem).1 (Or.inl hassigned)
  | submit answers =>
    obtain ⟨rfl, rfl⟩ := Prod.mk.inj (Option.some.inj hcallback)
    have hlatest : latest (submitted config l.node (.submit answers) ++ l.submissions) evt.request_id =
        (tx_hash config l.node.height evt answers).toOption := by
      simp [submitted, hrunning, hdecode, latest]
    exact process_submission_request_binds hlatest
  | monitor answers =>
    obtain ⟨rfl, rfl⟩ := Prod.mk.inj (Option.some.inj hcallback)
    apply monitor_submission_timeout_binds
    simpa [no_retry_after_exception, hrunning, hdecode] using hclean
  | _ => cases hcallback

/-- The handler of a statement that found no room keeps to the hash. -/
theorem retried_carries {v : Write} {rows : List Row} (hhashed : Hashed config l)
    (hclean : no_retry_after_exception l.node (.put p) = true) (hfull : l.node.has_room = false)
    (hwriting : l.node.activity p = .writing w (.put v) rows) : Carries subs p v := by
  obtain ⟨hsubmitted, hretry⟩ := hhashed.recoveries p w (.put v) rows hwriting v rfl
  cases v with
  | set_evt_status_to_submitted values => exact absurd rfl (hsubmitted values)
  | set_evt_status_to_be_submitted values =>
    obtain ⟨rfl, hreset⟩ := hretry values rfl
    apply hreset
    cases w with
    | set_evt_status_to_be_submitted values' => exact ⟨values', rfl⟩
    | _ => simp [no_retry_after_exception, hwriting, hfull] at hclean
  | _ => trivial

theorem statements_step (hhashed : Hashed config l) (hclean : no_retry_after_exception l.node label = true)
    (hstep : step config l.node label = some t) (p : Stage) :
    (∀ w ∈ pending p t.queue (t.activity p),
        Carries (submitted config l.node label ++ l.submissions) p w) ∧
      ∀ w full rows, t.activity p = .writing w full rows → Recovers p w full := by
  apply pending_step (fun _ => recovers_raise) (fun w hw => hhashed.carries hw) (hhashed.recoveries p)
    _ _ hstep
  · intro row rows evt callback hcallback hrunning hdecode
    exact callback_binds hhashed hclean hcallback hrunning hdecode
  · rintro w v rows rfl hfull hwriting
    exact retried_carries hhashed hclean hfull hwriting

theorem step_hashed (hhashed : Hashed config l) (hclean : no_retry_after_exception l.node label = true)
    (hstep : Ledger.step config l label = some m) : Hashed config m := by
  obtain ⟨t, hnode, rfl⟩ := Option.map_eq_some_iff.mp hstep
  exact
    { inv := step_inv label hhashed.inv hnode
      rows := rows_step hhashed hnode
      statements := fun p => (statements_step hhashed hclean hnode p).1
      recoveries := fun p => (statements_step hhashed hclean hnode p).2 }

theorem init_hashed (config : Config) (height : Int) : Hashed config (Ledger.init config height) where
  inv := init_inv height
  rows := fun row hrow => absurd hrow List.not_mem_nil
  statements := by
    intro p w hw
    simp [Ledger.init, init, Node.restart, pending, Activity.held] at hw
  recoveries := by simp [Ledger.init, init, Node.restart]

end

/-- In a run in which no exception makes the monitor thread submit a report once
    more, the hash of a row is null before its submission and that of the
    transaction of the latest submission after it. -/
theorem tx_hash_current (config : Config) (height : Int) (labels : List Label) (l : Ledger)
    (hclean : Along (Ledger.step config) (fun l label => no_retry_after_exception l.node label = true)
      (Ledger.init config height) labels)
    (hrun : run (Ledger.step config) (Ledger.init config height) labels = some l) :
    ∀ row ∈ l.node.table,
      (row.fk_status = .TS → row.tx_hash = none) ∧
      (row.fk_status = .SB → ∃ hash, row.tx_hash = some hash ∧
        latest l.submissions row.request_id = some hash) := by
  have hhashed : Hashed config l :=
    run_invariant_along (fun _ _ _ hhashed hclean hstep => step_hashed hhashed hclean hstep)
      (init_hashed config height) hclean hrun
  intro row hrow
  obtain ⟨hnone, hlatest⟩ := hhashed.rows row hrow
  exact ⟨fun hstatus => hnone (Or.inr hstatus), hlatest⟩

/-- The report is submitted once more, under another hash. -/
def resubmitted_run : List Label :=
  resubmission_run.dropLast ++
    [.submit
      { accepted_submission with
        provider := fun i =>
          { accepted_submission.provider i with sendRawTransaction := .ok "0xbeef" } },
      .put .submit, .execute false]

theorem tx_hash_current_resubmitted_run :
    ∃ l, run (Ledger.step sample_config) (Ledger.init sample_config 100) resubmitted_run = some l ∧
      l.node.table.map (fun row => (row.fk_status, row.tx_hash)) = [(.SB, some "0xbeef")] ∧
      ∀ row ∈ l.node.table,
        (row.fk_status = .TS → row.tx_hash = none) ∧
        (row.fk_status = .SB → ∃ hash, row.tx_hash = some hash ∧
          latest l.submissions row.request_id = some hash) := by
  have hstored : (run (Ledger.step sample_config) (Ledger.init sample_config 100) resubmitted_run).map
      (fun l => l.node.table.map (fun row => (row.fk_status, row.tx_hash))) =
        some [(.SB, some "0xbeef")] := by
    decide +kernel
  obtain ⟨l, hrun, htable⟩ := Option.map_eq_some_iff.mp hstored
  exact ⟨l, hrun, htable, tx_hash_current sample_config 100 resubmitted_run l (by decide +kernel) hrun⟩

/-- The query of the monitor thread times out, and the report is to be submitted
    again with the hash of its first submission. -/
def disturbed_run : List Label :=
  (audit_run 0 6).dropLast ++
    [.monitor
      { isAuditFinished := .error (.Exception "timed out")
        block_number := .ok ()
        error_text := "timed out"
        evt_text := "" },
      .put .monitor, .execute false]

theorem tx_hash_stale_disturbed_run :
    ∃ l, run (Ledger.step sample_config) (Ledger.init sample_config 100) disturbed_run = some l ∧
      ¬ ∀ row ∈ l.node.table, row.fk_status = .TS → row.tx_hash = none := by
  have hstored : (run (Ledger.step sample_config) (Ledger.init sample_config 100) disturbed_run).map
      (fun l => l.node.table.map (fun row => (row.fk_status, row.tx_hash))) =
        some [(.TS, some "0xfeed")] := by
    decide +kernel
  obtain ⟨l, hrun, htable⟩ := Option.map_eq_some_iff.mp hstored
  refine ⟨l, hrun, ?_⟩
  intro hnone
  obtain ⟨row, hrow, hpair⟩ := List.mem_map.mp (htable ▸ List.mem_cons_self)
  obtain ⟨hstatus, hhash⟩ := Prod.mk.inj hpair
  rw [hnone row hrow hstatus] at hhash
  cases hhash

end qsp.audit
