import QspNode.Audit.PoliceAssignments
import QspNode.Audit.Provenance

open lib.fifo lib.transition qsp.evt qsp.monitor_submission_thread qsp.submit_report_thread

namespace qsp.audit

/-- A police report, with the block at which it was generated. -/
structure PoliceReport where
  request_id : Int
  block_nbr : Int
  deriving DecidableEq, Repr

/-- The node and the contract: the reports of the node that are recorded and the
    requests whose audit is finished. The list `generated` records the police
    reports of the node, newest first. -/
structure Chain where
  node : Node
  recorded : List Send
  finished : List Int
  generated : List PoliceReport

/-- Besides the node, the chain takes steps: it records a report whose
    transaction was accepted, or the audit report of another node. A transaction
    that is dropped or reverted is one that is never recorded. -/
inductive ChainLabel where
  | node (label : Label)
  | record (send : Send)
  | submitReport (request_id : Int)

/-- The monitor thread is told whether the audit is finished, unless the call
    fails. -/
def Chain.answers (c : Chain) : Label → Bool
  | .monitor answers =>
    match c.node.activity .monitor with
    | .running (row :: _) =>
      (decode row).all (fun evt =>
        match answers.isAuditFinished with
        | .error _ => true
        | .ok is_finished => is_finished = decide (evt.request_id ∈ c.finished))
    | _ => true
  | _ => true

/-- The police reports after a step of the node: one is generated by the audit of
    a police check. -/
def Chain.generates (c : Chain) : Label → List PoliceReport
  | .perform (.ok (some _)) (.ok ()) _ =>
    match c.node.activity .perform with
    | .running (row :: _) =>
      if row.fk_type = .PC then { request_id := row.request_id, block_nbr := c.node.height } :: c.generated
      else c.generated
    | _ => c.generated
  | _ => c.generated

/-- The requests whose audit is finished after a report is recorded. -/
def Chain.finishes (c : Chain) (send : Send) : List Int :=
  if send.fk_type = .AU then send.request_id :: c.finished else c.finished

def Chain.step (config : Config) (c : Chain) : ChainLabel → Option Chain
  | .node label =>
    if c.answers label then
      (audit.step config c.node label).map (fun node => { c with node, generated := c.generates label })
    else none
  | .record send =>
    if send ∈ c.node.sends ∧ send.accepted ≠ [] then
      some { c with recorded := send :: c.recorded, finished := c.finishes send }
    else none
  | .submitReport request_id => some { c with finished := request_id :: c.finished }

def Chain.init (config : Config) (height : Int) : Chain :=
  { node := audit.init config height, recorded := [], finished := [], generated := [] }

/-- The police report that was sent for a request is recorded. -/
def police_report_recorded (recorded : List Send) (request_id : Int) : Bool :=
  recorded.any (fun send => send.request_id = request_id ∧ send.fk_type = .PC)

/-- The node has given up the event of a request. -/
def given_up (table : List Row) (request_id : Int) : Bool :=
  table.any (fun row => row.request_id = request_id ∧ row.fk_status = .ER)

/-- A police report is not late while the audit of its request is open, or fewer
    blocks have been mined since its generation than a confirmation takes. -/
def in_time (config : Config) (height : Int) (finished : List Int) (report : PoliceReport) : Bool :=
  report.request_id ∉ finished ∨ height < report.block_nbr + config.n_blocks_confirmation

/-- A police report is recorded in time, unless the node gives it up. -/
def Chain.accounts (config : Config) (c : Chain) (height : Int) (finished : List Int)
    (report : PoliceReport) : Bool :=
  police_report_recorded c.recorded report.request_id || given_up c.node.table report.request_id ||
    in_time config height finished report

/-- Before the audit of its request is finished, or before it is deep enough, each
    police report of the node is recorded. -/
def police_reports_in_time (config : Config) (c : Chain) : ChainLabel → Bool
  | .node (.mine blocks) => c.generated.all (c.accounts config (c.node.height + blocks) c.finished)
  | .node (.perform audit block_number traceback) =>
    (c.generates (.perform audit block_number traceback)).all
      (c.accounts config c.node.height c.finished)
  | .node _ => true
  | .record send => c.generated.all (c.accounts config c.node.height (c.finishes send))
  | .submitReport request_id =>
    c.generated.all (c.accounts config c.node.height (request_id :: c.finished))

/-- A request that may be declared done. -/
def Settled (table : List Row) (recorded : List Send) (request_id : Int) : Prop :=
  (∃ row ∈ table, row.request_id = request_id ∧ row.fk_type ≠ .PC) ∨
    police_report_recorded recorded request_id = true

/-- A statement declares no other request done. -/
def Permitted (table : List Row) (recorded : List Send) (w : Write) : Prop :=
  ∀ status_info request_id, w = .set_evt_status_to_done status_info request_id →
    Settled table recorded request_id

/-- The report of a row is one of those that were generated. -/
def Generated (generated : List PoliceReport) (row : Row) : Prop :=
  ∃ block_nbr, row.submission_block_nbr = some (str block_nbr) ∧
    { request_id := row.request_id, block_nbr } ∈ generated

/-- The invariant of the police reports. -/
structure Policed (config : Config) (c : Chain) : Prop where
  inv : Inv config c.node
  provenance : ∀ row, row.fk_type = .PC → Provenance config row (Generated c.generated row) c.node
  timely : ∀ report ∈ c.generated, c.accounts config c.node.height c.finished report = true
  sent : ∀ send ∈ c.node.sends, Sent c.node.table send
  recorded : ∀ send ∈ c.recorded, send ∈ c.node.sends
  done : ∀ row ∈ c.node.table, row.fk_status = .DN → Settled c.node.table c.recorded row.request_id
  statements : ∀ p, ∀ w ∈ pending p c.node.queue (c.node.activity p), Permitted c.node.table c.recorded w
  recoveries : ∀ p w full rows, c.node.activity p = .writing w full rows →
    ∀ v, full = .put v → Permitted c.node.table c.recorded v

section
variable {config : Config} {c d : Chain} {t : Node} {label : Label} {p : Stage} {w : Write}
  {full : Recovery} {row : Row} {evt : Event} {table : List Row} {recorded : List Send}
  {status_info : Option String} {request_id : Int}

theorem Settled.of_evolves {table' : List Row} (hsettled : Settled table recorded request_id)
    (hevolves : Relation.ReflGen (Evolves MAX_SUBMISSION_ATTEMPTS) table table') :
    Settled table' recorded request_id := by
  rcases hsettled with ⟨row, hrow, hid, htype⟩ | hrecorded
  · left
    obtain ⟨row', hrow', hidentity⟩ := identity_of_evolves hevolves hrow
    obtain ⟨hid', htype'⟩ := request_of_identity hidentity
    exact ⟨row', hrow', hid'.trans hid, by rwa [htype']⟩
  · exact Or.inr hrecorded

theorem police_report_recorded_cons (hrecorded : police_report_recorded recorded request_id = true)
    (send : Send) : police_report_recorded (send :: recorded) request_id = true := by
  rw [police_report_recorded, List.any_cons, Bool.or_eq_true]
  exact Or.inr hrecorded

theorem Settled.record (hsettled : Settled table recorded request_id) (send : Send) :
    Settled table (send :: recorded) request_id := by
  rcases hsettled with hrow | hrecorded
  · exact Or.inl hrow
  · exact Or.inr (police_report_recorded_cons hrecorded send)

theorem Permitted.of_evolves {table' : List Row} (hpermitted : Permitted table recorded w)
    (hevolves : Relation.ReflGen (Evolves MAX_SUBMISSION_ATTEMPTS) table table') :
    Permitted table' recorded w :=
  fun status_info request_id hdone => (hpermitted status_info request_id hdone).of_evolves hevolves

theorem Permitted.record (hpermitted : Permitted table recorded w) (send : Send) :
    Permitted table (send :: recorded) w :=
  fun status_info request_id hdone => (hpermitted status_info request_id hdone).record send

/-- A row only enters `DN` by a statement that declares its request done. -/
theorem done_of_on (hstatus : (w.on row).fk_status = .DN) :
    row.fk_status = .DN ∨ ∃ status_info request_id, w = .set_evt_status_to_done status_info request_id := by
  cases w with
  | set_evt_status_to_done status_info request_id => exact Or.inr ⟨status_info, request_id, rfl⟩
  | add_evt_to_be_assigned evt => exact Or.inl hstatus
  | set_evt_status_to_error status_info request_id => cases hstatus
  | _ =>
    simp only [Write.on] at hstatus
    split at hstatus
    · cases hstatus
    · exact Or.inl hstatus

/-- Only the callback of the monitor thread declares a request done. -/
theorem callback_done {s : Node} {callback : Event → Action}
    (hcallback : label.callback config s = some (p, callback)) (haction : callback evt = .put w full)
    (hdone : w = .set_evt_status_to_done status_info request_id ∨
      full = .put (.set_evt_status_to_done status_info request_id)) :
    ∃ answers, label = .monitor answers := by
  cases label with
  | timeout =>
    obtain ⟨rfl, rfl⟩ := Prod.mk.inj (Option.some.inj hcallback)
    simp only [timeout_event] at haction
    split at haction
    · obtain ⟨rfl, rfl⟩ := Action.put.inj haction
      rcases hdone with hdone | hdone <;> cases hdone
    · cases haction
  | perform audit block_number traceback =>
    obtain ⟨rfl, rfl⟩ := Prod.mk.inj (Option.some.inj hcallback)
    simp only [perform_audit_thread.process_audit_request] at haction
    split at haction
    · cases haction
    · cases haction
    all_goals
      obtain ⟨rfl, rfl⟩ := Action.put.inj haction
      rcases hdone with hdone | hdone <;> cases hdone
  | submit answers =>
    obtain ⟨rfl, rfl⟩ := Prod.mk.inj (Option.some.inj hcallback)
    simp only [process_submission_request] at haction
    split at haction
    · cases haction
    · cases haction
    · cases haction
    all_goals
      obtain ⟨rfl, rfl⟩ := Action.put.inj haction
      rcases hdone with hdone | hdone <;> cases hdone
  | monitor answers => exact ⟨answers, rfl⟩
  | _ => cases hcallback

theorem given_up_of_evolves {table' : List Row} (hup : given_up table request_id = true)
    (hevolves : Relation.ReflGen (Evolves MAX_SUBMISSION_ATTEMPTS) table table') :
    given_up table' request_id = true := by
  obtain ⟨row, hrow, hmatch⟩ := List.any_eq_true.mp hup
  obtain ⟨hid, herror⟩ := of_decide_eq_true hmatch
  obtain ⟨row', hrow', _, hadvances⟩ :=
    lib.table.successor_of_reflTransGen hevolves.to_reflTransGen hrow
  obtain rfl := eq_of_reflTransGen_advances (Or.inr herror) hadvances
  exact List.any_eq_true.mpr ⟨row', hrow', hmatch⟩

theorem accounts_iff {height : Int} {finished : List Int} {report : PoliceReport} :
    c.accounts config height finished report = true ↔
      police_report_recorded c.recorded report.request_id = true ∨
        given_up c.node.table report.request_id = true ∨ in_time config height finished report = true := by
  rw [Chain.accounts, Bool.or_eq_true, Bool.or_eq_true, or_assoc]

theorem generated_subset (c : Chain) (label : Label) : c.generated ⊆ c.generates label := by
  unfold Chain.generates
  split
  · split
    · split
      · exact List.subset_cons_self _ _
      · exact List.Subset.refl _
    · exact List.Subset.refl _
  · exact List.Subset.refl _

/-- The audit of a police check generates the report that its row holds. -/
theorem generated_of_audits (htype : row.fk_type = .PC) (haudits : Audits row c.node label) :
    Generated (c.generates label) row := by
  obtain ⟨result, traceback, assigned, rows, rfl, hrunning, hidentity, hreport⟩ := haudits
  obtain ⟨hid, htype'⟩ := request_of_identity hidentity
  simp only [Evt.report, produced, Prod.mk.injEq] at hreport
  refine ⟨c.node.height, hreport.2.2.2.2.2, ?_⟩
  simp [Chain.generates, hrunning, htype', htype, hid]

/-- A police report that is due is recorded. -/
theorem recorded_of_due (hpoliced : Policed config c) (hmem : encode evt ∈ c.node.table)
    (htype : evt.fk_type = .PC) (hstatus : evt.fk_status = .SB) {block : Int}
    (hblock : evt.submission_block_nbr = some block) (hfinished : evt.request_id ∈ c.finished)
    (hdeep : block + config.n_blocks_confirmation ≤ c.node.height) :
    police_report_recorded c.recorded evt.request_id = true := by
  have hprovenance := hpoliced.provenance (encode evt) htype
  obtain ⟨block_nbr, hstored, hgenerated⟩ := hprovenance.rows (encode evt) hmem
    (hprovenance.attempted _ hmem (Or.inr (Or.inl hstatus))) rfl rfl
  have hsame : str block = str block_nbr := by simpa [encode, hblock] using hstored
  have hblocks : block = block_nbr := by
    have hint := congrArg int hsame
    rw [int_str, int_str] at hint
    exact Option.some.inj hint
  rcases accounts_iff.mp (hpoliced.timely _ hgenerated) with hrecorded | hup | htime
  · exact hrecorded
  · obtain ⟨row, hrow, hmatch⟩ := List.any_eq_true.mp hup
    obtain ⟨hid, herror⟩ := of_decide_eq_true hmatch
    obtain rfl := lib.table.eq_of_key_eq hpoliced.inv.keys hrow hmem hid
    rw [show (encode evt).fk_status = evt.fk_status from rfl, hstatus] at herror
    cases herror
  · rcases of_decide_eq_true htime with hopen | hearly
    · exact absurd hfinished hopen
    · simp only at hearly
      omega

theorem settled_of_monitor {answers : monitor_submission_thread.Answers} {rows : List Row}
    (hpoliced : Policed config c) (hanswers : c.answers (.monitor answers) = true)
    (hrunning : c.node.activity .monitor = .running (row :: rows)) (hdecode : decode row = some evt)
    (haction : monitor_submission_timeout config c.node.timeout_limit_blocks c.node.height evt answers =
      .put w full)
    (hdone : w = .set_evt_status_to_done status_info request_id ∨
      full = .put (.set_evt_status_to_done status_info request_id)) :
    Settled c.node.table c.recorded request_id := by
  obtain ⟨rfl, hmem, hmonitored⟩ := hpoliced.inv.running_event hrunning hdecode
  obtain ⟨rfl, hfinished, _, block, hblock, hdeep⟩ := monitor_submission_timeout_done haction hdone
  by_cases htype : evt.fk_type = .PC
  · right
    have hstatus : evt.fk_status = .SB := by simpa [Stage.statuses] using hmonitored
    have hmember : evt.request_id ∈ c.finished := by
      simpa [Chain.answers, hrunning, hdecode, hfinished] using hanswers
    exact recorded_of_due hpoliced hmem htype hstatus hblock hmember hdeep
  · exact Or.inl ⟨encode evt, hmem, rfl, htype⟩

theorem done_step (hpoliced : Policed config c) (hstep : step config c.node label = some t) :
    ∀ row ∈ t.table, row.fk_status = .DN → Settled t.table c.recorded row.request_id := by
  have hinv := hpoliced.inv
  have hevolves := step_evolves hinv hstep
  intro row hrow hstatus
  cases step_effect hstep with
  | silent htable hsends | sent hlabel hrunning hdecode htable hsends =>
    rw [htable] at hrow
    exact (hpoliced.done row hrow hstatus).of_evolves hevolves
  | @written client w queue hqueue htable hsends =>
    rw [htable] at hrow
    cases client with
    | stage p =>
      obtain ⟨_, _, _, _, hexec, _⟩ := hinv.exec_stage hqueue
      rw [hexec] at hrow
      rcases lib.table.of_mem_update hrow with ⟨hrow', _⟩ | ⟨row', hrow', hid, rfl⟩
      · exact (hpoliced.done row hrow' hstatus).of_evolves hevolves
      · rw [request_id_on]
        rcases done_of_on hstatus with hstatus' | ⟨status_info, request_id, rfl⟩
        · exact (hpoliced.done row' hrow' hstatus').of_evolves hevolves
        · have hsettled := hpoliced.statements p (.set_evt_status_to_done status_info request_id)
            (by simp [pending, hqueue]) status_info request_id rfl
          obtain rfl : row'.request_id = request_id := hid
          exact hsettled.of_evolves hevolves
    | poll =>
      rcases hinv.exec_poll hqueue with ⟨evt, _, _, hexec⟩ | hexec
      · rw [hexec] at hrow
        rcases List.mem_append.mp hrow with hrow | hrow
        · exact (hpoliced.done row hrow hstatus).of_evolves hevolves
        · obtain rfl := List.mem_singleton.mp hrow
          cases hstatus
      · rw [hexec] at hrow
        exact (hpoliced.done row hrow hstatus).of_evolves hevolves

theorem permitted_step (hpoliced : Policed config c) (hanswers : c.answers label = true)
    (hstep : step config c.node label = some t) (p : Stage) :
    (∀ w ∈ pending p t.queue (t.activity p), Permitted t.table c.recorded w) ∧
      ∀ w full rows, t.activity p = .writing w full rows →
        ∀ v, full = .put v → Permitted t.table c.recorded v := by
  have hevolves := step_evolves hpoliced.inv hstep
  refine pending_step ?_ ?_ ?_ ?_ ?_ hstep
  · intro w v heq
    cases heq
  · exact fun w hw => (hpoliced.statements p w hw).of_evolves hevolves
  · exact fun w full rows hwriting v hv => (hpoliced.recoveries p w full rows hwriting v hv).of_evolves hevolves
  · intro row rows evt callback hcallback hrunning hdecode w full haction
    have hsettled {status_info : Option String} {request_id : Int}
        (hdone : w = .set_evt_status_to_done status_info request_id ∨
          full = .put (.set_evt_status_to_done status_info request_id)) :
        Settled t.table c.recorded request_id := by
      obtain ⟨answers, rfl⟩ := callback_done hcallback haction hdone
      obtain ⟨rfl, rfl⟩ := Prod.mk.inj (Option.some.inj hcallback)
      exact (settled_of_monitor hpoliced hanswers hrunning hdecode haction hdone).of_evolves hevolves
    constructor
    · exact fun status_info request_id hdone => hsettled (Or.inl hdone)
    · rintro v hv status_info request_id rfl
      exact hsettled (Or.inr hv)
  · intro w v rows _ _ hwriting
    exact (hpoliced.recoveries p w (.put v) rows hwriting v rfl).of_evolves hevolves

/-- Outside mining and the audit of a police check, what was in time before stays so. -/
theorem accounts_step (hinv : Inv config c.node) (hstep : step config c.node label = some t)
    {height : Int} {finished : List Int} {report : PoliceReport} {generated : List PoliceReport}
    (haccounts : c.accounts config height finished report = true) :
    ({ c with node := t, generated } : Chain).accounts config height finished report = true := by
  rw [accounts_iff] at haccounts ⊢
  exact haccounts.imp id (Or.imp (fun hup => given_up_of_evolves hup (step_evolves hinv hstep)) id)

theorem timely_step (hpoliced : Policed config c)
    (htime : police_reports_in_time config c (.node label) = true)
    (hstep : step config c.node label = some t) :
    ∀ report ∈ c.generates label,
      ({ c with node := t, generated := c.generates label } : Chain).accounts config t.height c.finished
        report = true := by
  have hheight := step_height hstep
  intro report hreport
  apply accounts_step hpoliced.inv hstep
  cases label with
  | mine blocks =>
    rw [hheight]
    exact List.all_eq_true.mp htime report hreport
  | perform audit block_number traceback =>
    rw [hheight]
    simpa [Label.mined] using List.all_eq_true.mp htime report hreport
  | _ =>
    rw [hheight]
    simpa [Label.mined] using hpoliced.timely report hreport

theorem provenance_generates (hpoliced : Policed config c) (hstep : step config c.node label = some t)
    (htype : row.fk_type = .PC) : Provenance config row (Generated (c.generates label) row) t := by
  refine (provenance_step (hpoliced.provenance row htype) hstep).mono ?_
  rintro (⟨block_nbr, hblock, hgenerated⟩ | haudits)
  · exact ⟨block_nbr, hblock, generated_subset c label hgenerated⟩
  · exact generated_of_audits htype haudits

theorem node_policed (hpoliced : Policed config c) (hanswers : c.answers label = true)
    (htime : police_reports_in_time config c (.node label) = true)
    (hstep : step config c.node label = some t) :
    Policed config { c with node := t, generated := c.generates label } where
  inv := step_inv label hpoliced.inv hstep
  provenance := fun _ htype => provenance_generates hpoliced hstep htype
  timely := timely_step hpoliced htime hstep
  sent := step_sent hpoliced.inv hpoliced.sent hstep
  recorded := by
    intro send hsend
    have hold := hpoliced.recorded send hsend
    cases step_effect hstep with
    | silent htable hsends | written hqueue htable hsends =>
      rw [hsends]
      exact hold
    | sent hlabel hrunning hdecode htable hsends =>
      rw [hsends]
      exact List.mem_append_right _ hold
  done := fun row hrow hstatus => done_step hpoliced hstep row hrow hstatus
  statements := fun p => (permitted_step hpoliced hanswers hstep p).1
  recoveries := fun p => (permitted_step hpoliced hanswers hstep p).2

theorem record_policed (hpoliced : Policed config c) {send : Send} (hsent : send ∈ c.node.sends)
    (htime : police_reports_in_time config c (.record send) = true) :
    Policed config { c with recorded := send :: c.recorded, finished := c.finishes send } where
  inv := hpoliced.inv
  provenance := hpoliced.provenance
  timely := by
    intro report hreport
    have haccounts := accounts_iff.mp (List.all_eq_true.mp htime report hreport)
    exact accounts_iff.mpr
      (haccounts.imp (fun hrecorded => police_report_recorded_cons hrecorded send) id)
  sent := hpoliced.sent
  recorded := List.forall_mem_cons.mpr ⟨hsent, hpoliced.recorded⟩
  done := fun row hrow hstatus => (hpoliced.done row hrow hstatus).record send
  statements := fun p w hw => (hpoliced.statements p w hw).record send
  recoveries := fun p w full rows hwriting v hv =>
    (hpoliced.recoveries p w full rows hwriting v hv).record send

theorem step_policed {label : ChainLabel} (hpoliced : Policed config c)
    (htime : police_reports_in_time config c label = true) (hstep : c.step config label = some d) :
    Policed config d := by
  cases label with
  | node label =>
    simp only [Chain.step] at hstep
    split at hstep
    · next hanswers =>
      obtain ⟨t, hnode, rfl⟩ := Option.map_eq_some_iff.mp hstep
      exact node_policed hpoliced hanswers htime hnode
    · cases hstep
  | record send =>
    simp only [Chain.step] at hstep
    split at hstep
    · next hguard =>
      obtain rfl := Option.some.inj hstep
      exact record_policed hpoliced hguard.1 htime
    · cases hstep
  | submitReport request_id =>
    obtain rfl := Option.some.inj hstep
    exact { hpoliced with timely := fun report hreport => List.all_eq_true.mp htime report hreport }

theorem init_policed (config : Config) (height : Int) : Policed config (Chain.init config height) where
  inv := init_inv height
  provenance := fun row _ => (init_provenance row height).mono False.elim
  timely := fun report hreport => absurd hreport List.not_mem_nil
  sent := fun send hsend => absurd hsend List.not_mem_nil
  recorded := fun send hsend => absurd hsend List.not_mem_nil
  done := fun row hrow => absurd hrow List.not_mem_nil
  statements := by
    intro p w hw
    simp [Chain.init, init, Node.restart, pending, Activity.held] at hw
  recoveries := by simp [Chain.init, init, Node.restart]

end

/-- In a run in which each police report of the node is recorded before the audit of
    its request is finished, or before as many blocks as a confirmation takes have been
    mined since its generation, a police check is only done when the report that its
    row holds is recorded. -/
theorem police_check_done_recorded (config : Config) (height : Int) (labels : List ChainLabel) (c : Chain)
    (htime : Along (Chain.step config) (fun c label => police_reports_in_time config c label = true)
      (Chain.init config height) labels)
    (hrun : run (Chain.step config) (Chain.init config height) labels = some c) :
    ∀ row ∈ c.node.table, row.fk_type = .PC → row.fk_status = .DN →
      ∃ send ∈ c.recorded, send.request_id = row.request_id ∧ send.fk_type = .PC ∧
        send.compressed_report = row.compressed_report := by
  have hpoliced : Policed config c :=
    run_invariant_along (fun _ _ _ hpoliced htime hstep => step_policed hpoliced htime hstep)
      (init_policed config height) htime hrun
  intro row hrow htype hstatus
  rcases hpoliced.done row hrow hstatus with ⟨row', hrow', hid, htype'⟩ | hrecorded
  · obtain rfl := lib.table.eq_of_key_eq hpoliced.inv.keys hrow' hrow hid
    exact absurd htype htype'
  · obtain ⟨send, hsend, hmatch⟩ := List.any_eq_true.mp hrecorded
    obtain ⟨hid, hpolice⟩ := of_decide_eq_true hmatch
    obtain ⟨row', hrow', hid', _, _, _, hreport⟩ := hpoliced.sent send (hpoliced.recorded send hsend)
    obtain rfl := lib.table.eq_of_key_eq hpoliced.inv.keys hrow' hrow (hid'.trans hid)
    exact ⟨send, hsend, hid, hpolice, hreport.symm⟩

/-- A police check up to the submission of its report; once it is saved it goes the
    way of an audit. -/
def police_check : List Label :=
  officer_run 0 [] ++ [.poll_police (.ok sample_probe), .poll_put, .execute false, .poll_put, .execute false] ++
    ((audit_run 0 6).take 23).drop 12

/-- Six blocks later the monitor thread is told that the audit is finished. -/
def police_monitoring : List Label := (audit_run 0 6).drop 23 ++ [.put .monitor, .execute false]

def police_run (chain : List ChainLabel) : List ChainLabel :=
  police_check.map .node ++ chain ++ police_monitoring.map .node

def police_report : Send :=
  { request_id := 7
    fk_type := .PC
    audit_state := some 4
    compressed_report := some "2003"
    is_verified := some true
    height := 100
    accepted := [5] }

theorem police_check_done_recorded_police_run :
    ∃ c, run (Chain.step officer_config) (Chain.init officer_config 100)
        (police_run [.record police_report, .submitReport 7]) = some c ∧
      c.node.table.map (fun row => (row.fk_type, row.fk_status)) = [(.PC, .DN)] ∧
      ∀ row ∈ c.node.table, row.fk_type = .PC → row.fk_status = .DN →
        ∃ send ∈ c.recorded, send.request_id = row.request_id ∧ send.fk_type = .PC ∧
          send.compressed_report = row.compressed_report := by
  have hdone : (run (Chain.step officer_config) (Chain.init officer_config 100)
      (police_run [.record police_report, .submitReport 7])).map
        (fun c => c.node.table.map (fun row => (row.fk_type, row.fk_status))) = some [(.PC, .DN)] := by
    decide +kernel
  obtain ⟨c, hrun, htable⟩ := Option.map_eq_some_iff.mp hdone
  exact ⟨c, hrun, htable, police_check_done_recorded officer_config 100 _ c (by decide +kernel) hrun⟩

/-- The police report is lost, but that of the auditor is recorded. -/
theorem police_check_done_lost :
    ∃ c, run (Chain.step officer_config) (Chain.init officer_config 100)
        (police_run [.submitReport 7]) = some c ∧
      c.node.table.map (fun row => (row.fk_type, row.fk_status)) = [(.PC, .DN)] ∧
      c.node.sends = [police_report] ∧ c.recorded = [] := by
  have hdone : (run (Chain.step officer_config) (Chain.init officer_config 100)
      (police_run [.submitReport 7])).map
        (fun c => (c.node.table.map (fun row => (row.fk_type, row.fk_status)), c.node.sends, c.recorded)) =
          some ([(.PC, .DN)], [police_report], []) := by
    decide +kernel
  obtain ⟨c, hrun, hc⟩ := Option.map_eq_some_iff.mp hdone
  obtain ⟨htable, hsends, hrecorded⟩ : _ ∧ _ ∧ _ := by simpa only [Prod.mk.injEq] using hc
  exact ⟨c, hrun, htable, hsends, hrecorded⟩

end qsp.audit
