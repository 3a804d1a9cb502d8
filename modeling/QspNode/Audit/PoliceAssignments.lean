import QspNode.Audit.Assigned
import QspNode.Audit.Moves

open lib.fifo lib.transition qsp.evt qsp.monitor_submission_thread qsp.poll_requests_thread

namespace qsp.audit

/-- The polling thread is not cut off from the database: the node is not
    restarted, the queue has room for its requests and they do not fail. -/
def serves_poll (s : Node) : Label → Bool
  | .restart => false
  | .execute fails => s.queue.head?.all (fun job => job.1 ≠ .poll || !fails)
  | .poll_put => s.has_room
  | _ => true

/-- The event has its row, or its insert is on the way. -/
def Arrives (evt : NewEvt) (s : Node) : Prop :=
  .add_evt_to_be_assigned evt ∈ writes .poll s.queue ∨
    ∃ row ∈ s.table, row.identity = (encode evt.event).identity

/-- Nothing is known of a request, nor about to be. -/
def Unknown (request_id : Int) (s : Node) : Prop :=
  request_id ∉ s.table.map Evt.request_id ∧
    ∀ evt, .add_evt_to_be_assigned evt ∈ writes .poll s.queue → evt.request_id ≠ request_id

/-- A poll that is about to save an assignment, or has done so. -/
def Saves (config : Config) (assignment : Assignment) (current_block : Int) (s : Node) : Prop :=
  (s.poll = .asking assignment current_block ∧ Unknown assignment.request_id s) ∨
    (s.poll = .selecting assignment current_block ∧ Unknown assignment.request_id s) ∨
    s.poll = .saving assignment current_block ∨ Arrives (assignment.evt config) s

section
variable {config : Config} {s t : Node} {evt : NewEvt} {label : Label} {assignment : Assignment}
  {current_block : Int}

/-- A client takes nothing back that is queued. -/
theorem Turn.writes_append {client : Option Client} {mined : Nat} {sent : List submit_report_thread.Send}
    (hturn : Turn client mined sent s t) (c : Client) :
    ∃ ws, writes c t.queue = writes c s.queue ++ ws := by
  rcases hturn.queue with hqueue | ⟨queued, request, _, hqueue⟩
  · exact ⟨[], by rw [hqueue, List.append_nil]⟩
  · exact ⟨writes c [(queued, request)], by rw [hqueue, lib.fifo.writes_append]⟩

theorem Arrives.of_row {row : Row} (hrow : row ∈ s.table)
    (hidentity : row.identity = (encode evt.event).identity) (hinv : Inv config s)
    (hstep : step config s label = some t) : Arrives evt t := by
  obtain ⟨row', hrow', hidentity'⟩ := identity_of_evolves (step_evolves hinv hstep) hrow
  exact Or.inr ⟨row', hrow', hidentity'.trans hidentity⟩

/-- An insert that is on the way arrives, unless the database fails. -/
theorem step_arrives (hinv : Inv config s) (harrives : Arrives evt s)
    (hserves : serves_poll s label = true) (hstep : step config s label = some t) : Arrives evt t := by
  rcases harrives with hqueued | ⟨row, hrow, hidentity⟩
  · rcases step_cases hstep with ⟨fails, rfl⟩ | rfl | ⟨_, hframe, _⟩
    · simp only [step, execute] at hstep
      split at hstep
      · cases hstep
      · next client w queue hqueue =>
        obtain rfl := Option.some.inj hstep
        rw [hqueue] at hqueued
        cases client with
        | stage p => exact Or.inl (by rwa [writes_cons_of_ne (by simp)] at hqueued)
        | poll =>
          rw [writes_cons_write, List.mem_cons] at hqueued
          rcases hqueued with rfl | hqueued
          · obtain rfl : fails = false := by simpa [serves_poll, hqueue] using hserves
            rcases hinv.exec_poll hqueue with ⟨evt', heq, _, hexec⟩ | hexec
            · obtain rfl := Write.add_evt_to_be_assigned.inj heq
              exact Or.inr ⟨_, by simp [hexec], rfl⟩
            · have hnew : evt.request_id ∉ s.table.map Evt.request_id := by
                have hpoll := hinv.poll
                rw [hqueue] at hpoll
                exact hpoll.new (.add_evt_to_be_assigned evt) (by simp)
              rw [exec_add_evt hnew] at hexec
              simp at hexec
          · exact Or.inl hqueued
      · next p query queue hqueue =>
        obtain rfl := Option.some.inj hstep
        rw [hqueue, writes_cons_of_ne (by simp)] at hqueued
        exact Or.inl hqueued
      · next query queue hqueue =>
        obtain rfl := Option.some.inj hstep
        rw [hqueue, writes_cons_read] at hqueued
        exact Or.inl hqueued
    · cases hserves
    · obtain ⟨ws, hws⟩ := hframe.writes_append .poll
      left
      rw [hws]
      exact List.mem_append_left ws hqueued
  · exact Arrives.of_row hrow hidentity hinv hstep

/-- No stage makes a request known, and no insert of another request does. -/
theorem Unknown.execute_write {request_id : Int} {client : Client} {w : Write}
    {queue : List (Client × Request Write Query)} {table : List Row}
    (hunknown : Unknown request_id s) (hinv : Inv config s)
    (hqueue : s.queue = (client, .write w) :: queue) (htable : table = s.table ∨ table = w.exec s.table) :
    Unknown request_id { s with queue, table } := by
  obtain ⟨hrow, hinserts⟩ := hunknown
  rw [hqueue] at hinserts
  refine ⟨?_, ?_⟩
  · rcases htable with rfl | rfl
    · exact hrow
    · cases client with
      | stage p =>
        obtain ⟨_, _, _, _, hexec, _⟩ := hinv.exec_stage hqueue
        rw [hexec, lib.table.keys_update (request_id_on w)]
        exact hrow
      | poll =>
        rcases hinv.exec_poll hqueue with ⟨evt, rfl, _, hexec⟩ | hexec
        · have hne := hinserts evt (by simp)
          rw [hexec, List.map_append, List.mem_append, not_or]
          exact ⟨hrow, by simpa [encode, NewEvt.event] using hne.symm⟩
        · rwa [hexec]
  · intro evt hevt
    apply hinserts evt
    cases client with
    | poll =>
      rw [writes_cons_write]
      exact List.mem_cons_of_mem _ hevt
    | stage p => rwa [writes_cons_of_ne (by simp)]

theorem Unknown.of_same {request_id : Int} (hunknown : Unknown request_id s) (htable : t.table = s.table)
    (hwrites : writes .poll t.queue = writes .poll s.queue) : Unknown request_id t := by
  rw [Unknown, htable, hwrites]
  exact hunknown

/-- The answer of the database to a police assignment that nothing is known
    of. -/
theorem answered_police {probe : PoliceAssignment} (hassigned : probe.has_assignment = true)
    (hconfirmed : probe.assignment_block_number + config.n_blocks_confirmation ≤ current_block) :
    Pc.answered config false [] (.selecting (.police probe) current_block) =
      .saving (.police probe) current_block := by
  simp [Pc.answered, processed, is_request_processed, hassigned, not_lt.mpr hconfirmed]

theorem execute_saves {fails : Bool} {probe : PoliceAssignment}
    (hassigned : probe.has_assignment = true)
    (hconfirmed : probe.assignment_block_number + config.n_blocks_confirmation ≤ current_block)
    (hinv : Inv config s) (hsaves : Saves config (.police probe) current_block s)
    (hserves : serves_poll s (.execute fails) = true) (hstep : execute config fails s = some t) :
    Saves config (.police probe) current_block t := by
  have harrives (h : Arrives ((Assignment.police probe).evt config) s) :
      Saves config (.police probe) current_block t := by
    have hexecute : step config s (.execute fails) = some t := hstep
    exact Or.inr (Or.inr (Or.inr (step_arrives hinv h hserves hexecute)))
  unfold execute at hstep
  split at hstep
  · cases hstep
  · next client w queue hqueue =>
    obtain rfl := Option.some.inj hstep
    have htable : (if fails then s.table else w.exec s.table) = s.table ∨
        (if fails then s.table else w.exec s.table) = w.exec s.table := by
      cases fails
      · exact Or.inr rfl
      · exact Or.inl rfl
    rcases hsaves with ⟨hpoll, hunknown⟩ | ⟨hpoll, hunknown⟩ | hpoll | harrived
    · exact Or.inl ⟨hpoll, hunknown.execute_write hinv hqueue htable⟩
    · exact Or.inr (Or.inl ⟨hpoll, hunknown.execute_write hinv hqueue htable⟩)
    · exact Or.inr (Or.inr (Or.inl hpoll))
    · exact harrives harrived
  · next p query queue hqueue =>
    obtain rfl := Option.some.inj hstep
    have hwrites : writes .poll queue = writes .poll s.queue := by
      rw [hqueue, writes_cons_of_ne (by simp)]
    rcases hsaves with ⟨hpoll, hunknown⟩ | ⟨hpoll, hunknown⟩ | hpoll | harrived
    · exact Or.inl ⟨hpoll, hunknown.of_same rfl hwrites⟩
    · exact Or.inr (Or.inl ⟨hpoll, hunknown.of_same rfl hwrites⟩)
    · exact Or.inr (Or.inr (Or.inl hpoll))
    · exact harrives harrived
  · next query queue hqueue =>
    obtain rfl := Option.some.inj hstep
    have hinv_poll := hinv.poll
    rw [hqueue] at hinv_poll
    obtain ⟨_, assignment', current_block', hselecting, _⟩ := hinv_poll.answered fails
    rcases hsaves with ⟨hpoll, _⟩ | ⟨hpoll, hunknown⟩ | hpoll | harrived
    · rw [hpoll] at hselecting
      cases hselecting
    · obtain rfl : fails = false := by simpa [serves_poll, hqueue] using hserves
      rw [hpoll] at hinv_poll
      obtain ⟨hawaited, _⟩ := hinv_poll.lined.dequeue_read
      obtain rfl : .event_by_request_id probe.request_id = query := Option.some.inj hawaited
      have hrows : (Query.event_by_request_id probe.request_id).rows s.table = [] := by
        rw [Query.rows, List.filter_eq_nil_iff]
        intro row hrow heq
        exact hunknown.1 (List.mem_map.mpr ⟨row, hrow, of_decide_eq_true heq⟩)
      refine Or.inr (Or.inr (Or.inl ?_))
      rw [hpoll, hrows]
      exact answered_police hassigned hconfirmed
    · rw [hpoll] at hselecting
      cases hselecting
    · exact harrives harrived

/-- A step of the polling thread that is at an assignment deals with that
    assignment. -/
theorem poll_step_saves {probe : PoliceAssignment} (hclient : label.client = some .poll)
    (hsaves : Saves config (.police probe) current_block s) (hinv : Inv config s)
    (hserves : serves_poll s label = true) (hstep : step config s label = some t) :
    Saves config (.police probe) current_block t := by
  rcases hsaves with ⟨hpoll, hunknown⟩ | ⟨hpoll, hunknown⟩ | hpoll | harrived
  · cases label with
    | poll_put =>
      have hroom : s.has_room = true := hserves
      simp only [step, poll_put, hpoll, hroom, if_true, Option.some.injEq] at hstep
      obtain rfl := hstep
      exact Or.inr (Or.inl ⟨rfl, hunknown.of_same rfl writes_enqueue_read⟩)
    | _ => simp [step, hpoll, Label.client] at hstep hclient
  · cases label with
    | _ => simp [step, poll_put, hpoll, Label.client] at hstep hclient
  · cases label with
    | poll_put =>
      have hroom : s.has_room = true := hserves
      simp only [step, poll_put, hpoll, hroom, if_true, Option.some.injEq] at hstep
      obtain rfl := hstep
      refine Or.inr (Or.inr (Or.inr (Or.inl ?_)))
      rw [Node.enqueue, writes_enqueue_write]
      exact List.mem_append_right _ (List.mem_singleton_self _)
    | _ => simp [step, hpoll, Label.client] at hstep hclient
  · exact Or.inr (Or.inr (Or.inr (step_arrives hinv harrived hserves hstep)))

theorem step_saves {probe : PoliceAssignment} (hassigned : probe.has_assignment = true)
    (hconfirmed : probe.assignment_block_number + config.n_blocks_confirmation ≤ current_block)
    (hinv : Inv config s) (hsaves : Saves config (.police probe) current_block s)
    (hserves : serves_poll s label = true) (hstep : step config s label = some t) :
    Saves config (.police probe) current_block t := by
  rcases step_cases hstep with ⟨fails, rfl⟩ | rfl | ⟨_, hframe, _⟩
  · exact execute_saves hassigned hconfirmed hinv hsaves hserves hstep
  · cases hserves
  · by_cases hclient : label.client = some .poll
    · exact poll_step_saves hclient hsaves hinv hserves hstep
    · obtain ⟨hpc, _⟩ := hframe.poll hclient
      have hwrites := hframe.inserts hclient
      rcases hsaves with ⟨hpoll, hunknown⟩ | ⟨hpoll, hunknown⟩ | hpoll | harrived
      · exact Or.inl ⟨hpc.trans hpoll, hunknown.of_same hframe.table hwrites⟩
      · exact Or.inr (Or.inl ⟨hpc.trans hpoll, hunknown.of_same hframe.table hwrites⟩)
      · exact Or.inr (Or.inr (Or.inl (hpc.trans hpoll)))
      · exact Or.inr (Or.inr (Or.inr (step_arrives hinv harrived hserves hstep)))

theorem run_saves {probe : PoliceAssignment} {labels : List Label}
    (hassigned : probe.has_assignment = true)
    (hconfirmed : probe.assignment_block_number + config.n_blocks_confirmation ≤ current_block)
    (hinv : Inv config s) (hsaves : Saves config (.police probe) current_block s)
    (hserves : Along (step config) (fun s label => serves_poll s label = true) s labels)
    (hrun : run (step config) s labels = some t) :
    Inv config t ∧ Saves config (.police probe) current_block t :=
  run_invariant_along
    (motive := fun s => Inv config s ∧ Saves config (.police probe) current_block s)
    (fun _ label _ h hserves hstep =>
      ⟨step_inv label h.1 hstep, step_saves hassigned hconfirmed h.1 h.2 hserves hstep⟩)
    ⟨hinv, hsaves⟩ hserves hrun

theorem run_arrives {labels : List Label} (hinv : Inv config s) (harrives : Arrives evt s)
    (hserves : Along (step config) (fun s label => serves_poll s label = true) s labels)
    (hrun : run (step config) s labels = some t) : Inv config t ∧ Arrives evt t :=
  run_invariant_along (motive := fun s => Inv config s ∧ Arrives evt s)
    (fun _ label _ h hserves hstep =>
      ⟨step_inv label h.1 hstep, step_arrives h.1 h.2 hserves hstep⟩)
    ⟨hinv, harrives⟩ hserves hrun

/-- The database holds a row of the kind for the request, or an insert of one is
    in its queue. -/
def Holds (fk_type : EvtType) (request_id : Int) (s : Node) : Prop :=
  (∃ row ∈ s.table, row.request_id = request_id ∧ row.fk_type = fk_type) ∨
    ∃ evt, .add_evt_to_be_assigned evt ∈ writes .poll s.queue ∧ evt.request_id = request_id ∧
      evt.fk_type = fk_type

/-- A request that is held as one kind has no row of the other. -/
theorem Holds.not_row {fk_type fk_type' : EvtType} {request_id : Int} {row : Row}
    (hholds : Holds fk_type request_id s) (hinv : Inv config s) (hne : fk_type ≠ fk_type')
    (hrow : row ∈ s.table) (hid : row.request_id = request_id) : row.fk_type ≠ fk_type' := by
  rcases hholds with ⟨row', hrow', hid', htype⟩ | ⟨evt, hevt, hid', _⟩
  · obtain rfl := lib.table.eq_of_key_eq hinv.keys hrow hrow' (hid.trans hid'.symm)
    rwa [htype]
  · have hnew : evt.request_id ∉ s.table.map Evt.request_id :=
      hinv.poll.new (.add_evt_to_be_assigned evt) (List.mem_append_left _ hevt)
    exact absurd (List.mem_map.mpr ⟨row, hrow, hid.trans hid'.symm⟩) hnew

theorem step_holds {fk_type : EvtType} {request_id : Int} (hinv : Inv config s)
    (hholds : Holds fk_type request_id s) (hserves : serves_poll s label = true)
    (hstep : step config s label = some t) : Holds fk_type request_id t := by
  rcases hholds with ⟨row, hrow, hid, htype⟩ | ⟨evt, hevt, hid, htype⟩
  · left
    obtain ⟨row', hrow', hidentity⟩ := identity_of_evolves (step_evolves hinv hstep) hrow
    obtain ⟨hid', htype'⟩ := request_of_identity hidentity
    exact ⟨row', hrow', hid'.trans hid, htype'.trans htype⟩
  · rcases step_arrives hinv (Or.inl hevt) hserves hstep with hevt | ⟨row, hrow, hidentity⟩
    · exact Or.inr ⟨evt, hevt, hid, htype⟩
    · obtain ⟨hid', htype'⟩ := request_of_identity hidentity
      exact Or.inl ⟨row, hrow, hid'.trans hid, htype'.trans htype⟩

/-- While the database serves the polling thread, a confirmed police assignment
    that has no row yet is saved, exactly when the node does not hold the same
    request as an audit. -/
theorem police_assignment_saved_iff {config : Config} {height : Int} {before labels : List Label}
    {s t : Node} {probe : PoliceAssignment} {current_block : Int}
    (hreach : run (step config) (init config height) before = some s)
    (hofficer : s.is_police_officer_cached = some true)
    (hpolling : s.poll = .polling_police current_block) (hassigned : probe.has_assignment = true)
    (hconfirmed : probe.assignment_block_number + config.n_blocks_confirmation ≤ current_block)
    (hnew : ∀ row ∈ s.table, row.request_id = probe.request_id → row.fk_type ≠ .PC)
    (hserves : Along (step config) (fun s label => serves_poll s label = true) s
      (.poll_police (.ok probe) :: labels))
    (hrun : run (step config) s (.poll_police (.ok probe) :: labels) = some t)
    (hidle : t.poll = .idle) (hdrained : t.queue = []) :
    (∃ row ∈ t.table, row.request_id = probe.request_id ∧ row.fk_type = .PC) ↔
      ¬ Holds .AU probe.request_id s := by
  have hinv := run_inv (init_inv height) hreach
  have hpresent {evt : NewEvt} (harrives : Arrives evt t) (hid : evt.request_id = probe.request_id)
      (htype : evt.fk_type = .PC) :
      ∃ row ∈ t.table, row.request_id = probe.request_id ∧ row.fk_type = .PC := by
    rcases harrives with hqueued | ⟨row, hrow, hidentity⟩
    · simp [hdrained] at hqueued
    · obtain ⟨hid', htype'⟩ := request_of_identity hidentity
      exact ⟨row, hrow, hid'.trans hid, htype'.trans htype⟩
  constructor
  · rintro ⟨row, hrow, hid, htype⟩ hholds
    obtain ⟨hinv', hholds'⟩ := run_invariant_along
      (motive := fun s => Inv config s ∧ Holds .AU probe.request_id s)
      (fun _ label _ h hserves hstep =>
        ⟨step_inv label h.1 hstep, step_holds h.1 h.2 hserves hstep⟩)
      ⟨hinv, hholds⟩ hserves hrun
    exact hholds'.not_row hinv' (by decide) hrow hid htype
  · intro hnot
    by_cases hqueued : ∃ evt, .add_evt_to_be_assigned evt ∈ writes .poll s.queue ∧
        evt.request_id = probe.request_id
    · obtain ⟨evt, hevt, hid⟩ := hqueued
      have htype : evt.fk_type = .PC := by
        cases heq : evt.fk_type with
        | AU => exact absurd (Or.inr ⟨evt, hevt, hid, heq⟩) hnot
        | PC => rfl
      exact hpresent (run_arrives hinv (Or.inl hevt) hserves hrun).2 hid htype
    · have hunknown : Unknown probe.request_id s := by
        refine ⟨?_, fun evt hevt hid => hqueued ⟨evt, hevt, hid⟩⟩
        intro hmem
        obtain ⟨row, hrow, hid⟩ := List.mem_map.mp hmem
        cases heq : row.fk_type with
        | AU => exact hnot (Or.inl ⟨row, hrow, hid, heq⟩)
        | PC => exact hnew row hrow hid heq
      obtain ⟨next, hnext, hrest⟩ := run_cons_eq_some_iff.mp hrun
      have hinv' := step_inv _ hinv hnext
      obtain ⟨_, hserves'⟩ := along_cons_iff.mp hserves
      have hasks : Saves config (.police probe) current_block next := by
        have hask := hnext
        simp only [step, hpolling, hofficer, Option.getD_some, poll_police_request, if_true,
          Option.some.injEq] at hask
        obtain rfl := hask
        exact Or.inl ⟨rfl, hunknown⟩
      obtain ⟨_, hsaves⟩ := run_saves hassigned hconfirmed hinv' hasks (hserves' next hnext) hrest
      rcases hsaves with ⟨hpoll, _⟩ | ⟨hpoll, _⟩ | hpoll | harrived
      · rw [hidle] at hpoll
        cases hpoll
      · rw [hidle] at hpoll
        cases hpoll
      · rw [hidle] at hpoll
        cases hpoll
      · exact hpresent harrived rfl rfl

end

/-- A police officer that also polls for audits, up to the police half of its
    first poll; the contract answers with the given audit. -/
def officer_config : Config := { sample_config with enable_police_audit_polling := true }

def officer_run (request_id : Int) (saving : List Label) : List Label :=
  [.select_stale, .execute false, .select_stale, .execute false, .start_threads, .block_mined,
    .poll_begin,
    .poll_audit true
      (.ok
        { request_id
          requestor := "0xa0"
          uri := "https://contract.sol"
          price := 100
          assignment_block_number := 90 })] ++
  saving ++
  [.poll_bid
      { anyRequestAvailable := .ok 0
        assignedRequestCount := .ok 0
        getTransactionCount := .ok 5 }]

def sample_probe : PoliceAssignment :=
  { has_assignment := true
    request_id := 7
    price := 50
    uri := "https://contract.sol"
    assignment_block_number := 91 }

theorem police_assignment_saved_fresh :
    ∃ s t, run (step officer_config) (init officer_config 100) (officer_run 0 []) = some s ∧
      run (step officer_config) s [.poll_police (.ok sample_probe), .poll_put, .execute false, .poll_put,
        .execute false] = some t ∧
      ((∃ row ∈ t.table, row.request_id = 7 ∧ row.fk_type = .PC) ↔ ¬ Holds .AU 7 s) := by
  have hruns : ∃ s t, run (step officer_config) (init officer_config 100) (officer_run 0 []) = some s ∧
      run (step officer_config) s [.poll_police (.ok sample_probe), .poll_put, .execute false, .poll_put,
        .execute false] = some t ∧
      (s.is_police_officer_cached = some true ∧ s.poll = .polling_police 100 ∧ s.table = [] ∧
        Along (step officer_config) (fun s label => serves_poll s label = true) s
          [.poll_police (.ok sample_probe), .poll_put, .execute false, .poll_put, .execute false] ∧
        t.poll = .idle ∧ t.queue = []) :=
    ⟨_, _, rfl, rfl, by decide +kernel⟩
  obtain ⟨s, t, hreach, hrun, hofficer, hpolling, htable, hserves, hidle, hdrained⟩ := hruns
  exact ⟨s, t, hreach, hrun, police_assignment_saved_iff hreach hofficer hpolling rfl (by decide)
    (by simp [htable]) hserves hrun hidle hdrained⟩

/-- The assignment of a request that the node is auditing is dropped. -/
theorem police_assignment_dropped :
    ∃ s t, run (step officer_config) (init officer_config 100)
        (officer_run 7 [.poll_put, .execute false, .poll_put, .execute false]) = some s ∧
      s.is_police_officer_cached = some true ∧ s.poll = .polling_police 100 ∧
      s.table.map (fun row => (row.request_id, row.fk_type)) = [(7, .AU)] ∧
      run (step officer_config) s [.poll_police (.ok sample_probe), .poll_put, .execute false] = some t ∧
      t.poll = .idle ∧ t.queue = [] ∧
      ¬ ∃ row ∈ t.table, row.request_id = 7 ∧ row.fk_type = .PC :=
  ⟨_, _, rfl, by decide +kernel, by decide +kernel, by decide +kernel, rfl, by decide +kernel,
    by decide +kernel, by decide +kernel⟩

end qsp.audit
