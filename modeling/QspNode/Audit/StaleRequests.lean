import QspNode.Audit.LifeCycle
import QspNode.Lib.Table
import QspNode.Lib.Transition

open lib.fifo lib.transition qsp.evt

namespace qsp.audit

/-- The statements for rows that are read, `none` when one of them cannot be
    decoded. -/
def timeout_writes (first_valid_block : Int) : List Row → Option (List Write)
  | [] => some []
  | row :: rows =>
    (decode row).bind (fun evt =>
      (timeout_writes first_valid_block rows).map ((timeout_event first_valid_block evt).writes ++ ·))

/-- `__timeout_stale_requests`, each pass with its statements executed before
    the next one reads. -/
def timeout_passes (first_valid_block : Int) : List Status → List Row → Option (List Row)
  | [], table => some table
  | status :: statuses, table =>
    (timeout_writes first_valid_block ((Query.events_with_status status).rows table)).bind (fun ws =>
      timeout_passes first_valid_block statuses (exec_all ws table))

/-- A row is stale up to a block. -/
def expired (first_valid_block : Int) (row : Row) : Bool :=
  (int row.assigned_block_nbr).any (· ≤ first_valid_block)

def time_out (row : Row) : Row := { row with fk_status := .ER, status_info := some "Submission timeout" }

/-- What becomes of a row when those of some statuses are timed out. -/
def settle (first_valid_block : Int) (statuses : List Status) (row : Row) : Row :=
  if row.fk_status ∈ statuses ∧ expired first_valid_block row then time_out row else row

/-- A request is stale that is still worked on and was assigned too long ago. -/
def Stale (first_valid_block : Int) (row : Row) : Prop :=
  (row.fk_status = .AS ∨ row.fk_status = .TS) ∧
    ∃ assigned_block_nbr, int row.assigned_block_nbr = some assigned_block_nbr ∧
      assigned_block_nbr ≤ first_valid_block

/-- Stale requests turn into errors and nothing else changes. -/
def TimesOut (first_valid_block : Int) (row row' : Row) : Prop :=
  (row'.fk_status = .ER ↔ row.fk_status = .ER ∨ Stale first_valid_block row) ∧
    (¬ Stale first_valid_block row → row' = row) ∧
      { row' with fk_status := row.fk_status, status_info := row.status_info } = row

section
variable {first_valid_block : Int} {statuses : List Status} {rows table : List Row} {ws : List Write}

/-- The callback acts on the events whose rows have expired. -/
theorem timeout_event_writes {row : Row} {evt : Event} (hdecode : decode row = some evt) :
    (timeout_event first_valid_block evt).writes =
      if expired first_valid_block row then
        [.set_evt_status_to_error (some "Submission timeout") row.request_id]
      else [] := by
  obtain ⟨hid, _, hblock⟩ := decode_columns hdecode
  rw [timeout_event, expired, hblock, Option.any_some]
  by_cases hstale : evt.assigned_block_nbr ≤ first_valid_block
  · simp [hstale, Action.writes, set_evt_status_to_error, hid]
  · simp [hstale, Action.writes]

theorem timeout_writes_eq (hwrites : timeout_writes first_valid_block rows = some ws) :
    ws = ((rows.filter (expired first_valid_block)).map Evt.request_id).map
      (Write.set_evt_status_to_error (some "Submission timeout")) := by
  induction rows generalizing ws with
  | nil =>
    obtain rfl := Option.some.inj hwrites
    rfl
  | cons row rows ih =>
    rw [timeout_writes, Option.bind_eq_some_iff] at hwrites
    obtain ⟨evt, hdecode, hrest⟩ := hwrites
    obtain ⟨vs, hvs, rfl⟩ := Option.map_eq_some_iff.mp hrest
    rw [timeout_event_writes hdecode, ih hvs, List.filter_cons]
    split <;> rfl

theorem exec_all_error (request_ids : List Int) (table : List Row) :
    exec_all (request_ids.map (Write.set_evt_status_to_error (some "Submission timeout"))) table =
      table.map (fun row => if row.request_id ∈ request_ids then time_out row else row) := by
  rw [exec_all, List.foldl_map]
  exact lib.table.foldl_update (f := time_out) (fun _ => rfl) (fun _ => rfl) request_ids table

/-- One pass times out the rows of its status that have expired. -/
theorem exec_timeout_writes {status : Status} (hkeys : (table.map Evt.request_id).Nodup)
    (hwrites : timeout_writes first_valid_block ((Query.events_with_status status).rows table) = some ws) :
    exec_all ws table = table.map (settle first_valid_block [status]) := by
  rw [timeout_writes_eq hwrites, exec_all_error]
  apply List.map_congr_left
  intro row hrow
  have hchosen : row.request_id ∈ (((Query.events_with_status status).rows table).filter
      (expired first_valid_block)).map Evt.request_id ↔
        row.fk_status ∈ [status] ∧ expired first_valid_block row := by
    rw [List.mem_map]
    constructor
    · intro hmem
      obtain ⟨other, hother, hid⟩ := hmem
      simp only [Query.rows, List.mem_filter, decide_eq_true_eq] at hother
      obtain rfl := lib.table.eq_of_key_eq hkeys hother.1.1 hrow hid
      exact ⟨List.mem_singleton.mpr hother.1.2, hother.2⟩
    · intro hstale
      refine ⟨row, ?_, rfl⟩
      simp only [Query.rows, List.mem_filter, decide_eq_true_eq]
      exact ⟨⟨hrow, List.mem_singleton.mp hstale.1⟩, hstale.2⟩
  simp only [settle, hchosen]

theorem settle_request_id (row : Row) :
    (settle first_valid_block statuses row).request_id = row.request_id := by
  unfold settle
  split <;> rfl

/-- A row that one pass has timed out is no more among those of another. -/
theorem settle_settle {status : Status} (hopen : Status.ER ∉ statuses) (row : Row) :
    settle first_valid_block statuses (settle first_valid_block [status] row) =
      settle first_valid_block (status :: statuses) row := by
  by_cases hstatus : row.fk_status = status
  · by_cases hexpired : expired first_valid_block row
    · simp [settle, hstatus, hexpired, time_out, hopen]
    · simp [settle, hexpired]
  · simp [settle, hstatus]

theorem expired_iff (row : Row) :
    expired first_valid_block row ↔ ∃ assigned_block_nbr,
      int row.assigned_block_nbr = some assigned_block_nbr ∧ assigned_block_nbr ≤ first_valid_block := by
  rw [expired, Option.any_eq_true]
  simp

theorem settle_times_out (row : Row) :
    TimesOut first_valid_block row (settle first_valid_block stale_statuses row) := by
  have hstatuses : row.fk_status ∈ stale_statuses ↔ row.fk_status = .AS ∨ row.fk_status = .TS := by
    simp [stale_statuses]
  rw [TimesOut, Stale, ← expired_iff, ← hstatuses]
  by_cases hstale : row.fk_status ∈ stale_statuses ∧ expired first_valid_block row
  · rw [settle, if_pos hstale]
    exact ⟨iff_of_true rfl (Or.inr hstale), fun hnot => absurd hstale hnot, rfl⟩
  · rw [settle, if_neg hstale]
    exact ⟨⟨Or.inl, fun h => h.resolve_right hstale⟩, fun _ => rfl, rfl⟩

theorem timeout_passes_eq {final : List Row} (hopen : Status.ER ∉ statuses)
    (hkeys : (table.map Evt.request_id).Nodup)
    (hpasses : timeout_passes first_valid_block statuses table = some final) :
    final = table.map (settle first_valid_block statuses) := by
  induction statuses generalizing table with
  | nil =>
    obtain rfl := Option.some.inj hpasses
    exact (List.map_id'' (fun row => if_neg (by simp)) table).symm
  | cons status statuses ih =>
    rw [timeout_passes, Option.bind_eq_some_iff] at hpasses
    obtain ⟨ws, hwrites, hrest⟩ := hpasses
    rw [List.mem_cons, not_or] at hopen
    rw [exec_timeout_writes hkeys hwrites] at hrest
    have hkeys' : ((table.map (settle first_valid_block [status])).map Evt.request_id).Nodup := by
      have hcomp : Evt.request_id ∘ settle first_valid_block [status] = Evt.request_id :=
        funext settle_request_id
      rwa [List.map_map, hcomp]
    rw [ih hopen.2 hkeys' hrest, List.map_map]
    exact List.map_congr_left (fun row _ => settle_settle hopen.2 row)

end

/-- What is left of the passes while the stage is in the middle of one. -/
def Activity.resume (first_valid_block : Int) (statuses : List Status) : Activity → List Row → Option (List Row)
  | .running rows, table =>
    (timeout_writes first_valid_block rows).bind (fun ws =>
      timeout_passes first_valid_block statuses (exec_all ws table))
  | .waiting status, table => timeout_passes first_valid_block (status :: statuses) table
  | .writing w _ rows, table =>
    (timeout_writes first_valid_block rows).bind (fun ws =>
      timeout_passes first_valid_block statuses (exec_all (w :: ws) table))
  | .dead, _ => none

/-- The queue of a node that does nothing but time out stale requests. -/
def timeout_queue (ws : List Write) (activity : Activity) : List (Client × Request Write Query) :=
  ws.map (fun w => (.stage .timeout, .write w)) ++
    activity.awaited.toList.map (fun query => (.stage .timeout, .read query))

/-- Between restart and the start of the threads the passes are on their way to
    one outcome, however far the queue is behind. -/
structure OnCourse (first_valid_block : Int) (outcome : Option (List Row)) (s : Node) : Prop where
  valid : s.first_valid_block = first_valid_block
  unstarted : s.started = false
  idle : s.poll = .idle
  alone : ∀ p, p ≠ .timeout → s.activity p = .running []
  course : ∃ ws, s.queue = timeout_queue ws (s.activity .timeout) ∧
    (s.activity .timeout = .dead ∨
      outcome =
        (s.activity .timeout).resume first_valid_block s.stale_queries (exec_all ws s.table))

/-- The queue takes each statement of the timeout in time and the worker
    executes it; the threads are not started yet. -/
def Node.serves_timeouts (s : Node) : Label → Bool
  | .execute true =>
    match s.queue with
    | (_, .write _) :: _ => false
    | _ => true
  | .put _ => s.has_room
  | .start_threads | .restart => false
  | _ => true

section
variable {config : Config} {first_valid_block : Int} {outcome : Option (List Row)} {s t : Node}

theorem restart_on_course (config : Config) (s : Node) :
    OnCourse (s.restart config).first_valid_block
      (timeout_passes (s.restart config).first_valid_block stale_statuses s.table) (s.restart config) where
  valid := rfl
  unstarted := rfl
  idle := rfl
  alone := fun _ _ => rfl
  course := ⟨[], rfl, Or.inr rfl⟩

/-- The stage moves on, towards the same outcome. -/
theorem OnCourse.advance {table : List Row} {queue : List (Client × Request Write Query)}
    {activity : Activity} {statuses : List Status} (hinv : OnCourse first_valid_block outcome s)
    (ws : List Write) (hqueue : queue = timeout_queue ws activity)
    (hcourse : activity = .dead ∨
      outcome = activity.resume first_valid_block statuses (exec_all ws table)) :
    OnCourse first_valid_block outcome
      { s with
        table
        queue
        stale_queries := statuses
        activity := Function.update s.activity .timeout activity } where
  valid := hinv.valid
  unstarted := hinv.unstarted
  idle := hinv.idle
  alone := fun p hp => (Function.update_of_ne hp _ _).trans (hinv.alone p hp)
  course := by
    simp only [Function.update_self]
    exact ⟨ws, hqueue, hcourse⟩

theorem OnCourse.select_stale (hinv : OnCourse first_valid_block outcome s)
    (hstep : step config s .select_stale = some t) : OnCourse first_valid_block outcome t := by
  obtain ⟨ws, hqueue, hcourse⟩ := hinv.course
  simp only [step, begin_select] at hstep
  split at hstep
  · cases hstep
  · next status statuses hstale =>
    split at hstep
    · next hidle =>
      obtain rfl := Option.some.inj hstep
      replace hidle : s.activity .timeout = .running [] := hidle
      rw [hidle, hstale] at hcourse
      rw [hidle] at hqueue
      split
      · refine OnCourse.advance (s := s) hinv ws ?_ (Or.inr ?_)
        · simp [Node.enqueue, hqueue, timeout_queue, Activity.awaited]
        · simpa [Activity.resume, timeout_writes, exec_all, Node.enqueue] using hcourse
      · exact OnCourse.advance (s := s) hinv ws hqueue (Or.inl rfl)
    · cases hstep

/-- The callback takes a row and leaves its statement to be queued. -/
theorem OnCourse.timeout (hinv : OnCourse first_valid_block outcome s)
    (hstep : step config s .timeout = some t) : OnCourse first_valid_block outcome t := by
  obtain ⟨ws, hqueue, hcourse⟩ := hinv.course
  simp only [step, process_next, hinv.valid] at hstep
  split at hstep
  · next row rows hrunning =>
    rw [hrunning] at hqueue hcourse
    obtain rfl := Option.some.inj hstep
    cases hdecode : decode row with
    | none => exact hinv.advance ws hqueue (Or.inl rfl)
    | some evt =>
      have hrest : outcome = (Activity.running (row :: rows)).resume first_valid_block s.stale_queries
          (exec_all ws s.table) := by simpa using hcourse
      rw [Activity.resume, timeout_writes, hdecode, Option.bind_some, Option.bind_map] at hrest
      simp only
      cases haction : timeout_event first_valid_block evt with
      | skip =>
        rw [haction] at hrest
        exact hinv.advance ws hqueue (Or.inr hrest)
      | put w full =>
        rw [haction] at hrest
        exact hinv.advance ws hqueue (Or.inr hrest)
  · cases hstep

theorem OnCourse.put {p : Stage} (hinv : OnCourse first_valid_block outcome s) (hroom : s.has_room)
    (hstep : put p s = some t) : OnCourse first_valid_block outcome t := by
  obtain ⟨ws, hqueue, hcourse⟩ := hinv.course
  unfold audit.put at hstep
  split at hstep
  · next w full rows hwriting =>
    obtain rfl : p = .timeout := by
      by_contra hp
      simp [hinv.alone p hp] at hwriting
    rw [hwriting] at hqueue hcourse
    rw [if_pos hroom] at hstep
    obtain rfl := Option.some.inj hstep
    have hrest : outcome = (Activity.writing w full rows).resume first_valid_block s.stale_queries
        (exec_all ws s.table) := by simpa using hcourse
    refine OnCourse.advance (s := s) hinv (ws ++ [w]) ?_ (Or.inr ?_)
    · simp [Node.enqueue, hqueue, timeout_queue, Activity.awaited]
    · rwa [exec_all_append]
  · cases hstep

theorem OnCourse.execute {fails : Bool} (hinv : OnCourse first_valid_block outcome s)
    (hserves : s.serves_timeouts (.execute fails)) (hstep : step config s (.execute fails) = some t) :
    OnCourse first_valid_block outcome t := by
  obtain ⟨ws, hqueue, hcourse⟩ := hinv.course
  cases ws with
  | cons w ws =>
    cases fails with
    | true => simp [Node.serves_timeouts, hqueue, timeout_queue] at hserves
    | false =>
      simp only [step, audit.execute, hqueue, timeout_queue, List.map_cons, List.cons_append] at hstep
      obtain rfl := Option.some.inj hstep
      exact { hinv with course := ⟨ws, rfl, hcourse⟩ }
  | nil =>
    cases hactivity : s.activity .timeout with
    | waiting status =>
      rw [hactivity] at hqueue hcourse
      have hrest : outcome = (Activity.waiting status).resume first_valid_block s.stale_queries
          s.table := by simpa [exec_all] using hcourse
      simp only [step, audit.execute, hqueue, timeout_queue, Activity.awaited, List.map_nil,
        List.nil_append, Option.toList_some, List.map_cons] at hstep
      obtain rfl := Option.some.inj hstep
      cases fails with
      | true => exact OnCourse.advance (s := s) hinv [] rfl (Or.inl rfl)
      | false => exact OnCourse.advance (s := s) hinv [] rfl (Or.inr hrest)
    | _ =>
      simp [step, audit.execute, hqueue, hactivity, timeout_queue, Activity.awaited] at hstep

theorem step_on_course {label : Label} (hinv : OnCourse first_valid_block outcome s)
    (hserves : s.serves_timeouts label) (hstep : step config s label = some t) :
    OnCourse first_valid_block outcome t := by
  have hnone (p : Stage) (callback : Event → Action) (sends : Event → List submit_report_thread.Send) :
      p ≠ .timeout → process_next p callback sends s = none := by
    intro hp
    simp [process_next, hinv.alone p hp]
  cases label with
  | mine blocks | block_mined =>
    obtain rfl := Option.some.inj hstep
    exact { hinv with }
  | execute fails => exact hinv.execute hserves hstep
  | select_stale => exact hinv.select_stale hstep
  | timeout => exact hinv.timeout hstep
  | put p => exact hinv.put hserves hstep
  | start_threads | restart => cases hserves
  | perform audit block_number traceback | submit answers | monitor answers =>
    simp [step, hnone] at hstep
  | select_incoming | select_to_be_submitted | select_monitored timeout_limit_blocks | poll_begin =>
    simp [step, hinv.unstarted] at hstep
  | poll_audit is_police_officer answer | poll_police answer | poll_bid answers | poll_attempt answers =>
    simp [step, hinv.idle] at hstep
  | poll_put => simp [step, audit.poll_put, hinv.idle] at hstep

theorem OnCourse.passes_eq (hinv : OnCourse first_valid_block outcome s) (hpassed : s.stale_queries = [])
    (hreturned : s.activity .timeout = .running []) (happlied : s.queue = []) : outcome = some s.table := by
  obtain ⟨ws, hqueue, hcourse⟩ := hinv.course
  rw [hreturned, happlied] at hqueue
  obtain rfl : ws = [] := by simpa [timeout_queue, Activity.awaited] using hqueue.symm
  rw [hreturned, hpassed] at hcourse
  simpa [Activity.resume, timeout_writes, timeout_passes, exec_all] using hcourse

/-- Restart times out exactly the requests that are stale, whatever the order in
    which statements are queued and executed. -/
theorem restart_times_out_stale_requests (config : Config) (s : Node)
    (hkeys : (s.table.map Evt.request_id).Nodup) (labels : List Label) (t : Node)
    (halong : Along (step config) (fun s label => s.serves_timeouts label) (s.restart config) labels)
    (hrun : run (step config) (s.restart config) labels = some t) (hpassed : t.stale_queries = [])
    (hreturned : t.activity .timeout = .running []) (happlied : t.queue = []) :
    List.Forall₂
      (TimesOut (s.height - config.submission_timeout_limit_blocks + config.block_discard_on_restart))
      s.table t.table := by
  have hinv := run_invariant_along (motive := OnCourse _ _)
    (fun _ label _ hinv hserves hstep => step_on_course hinv hserves hstep)
    (restart_on_course config s) halong hrun
  have htable := timeout_passes_eq (by simp [stale_statuses]) hkeys
    (hinv.passes_eq hpassed hreturned happlied)
  rw [htable, List.forall₂_map_right_iff, List.forall₂_same]
  intro row _
  exact settle_times_out row

end

def left_evt (request_id assigned_block_nbr : Int) : NewEvt :=
  { request_id
    requestor := "x"
    contract_uri := "x"
    evt_name := "x"
    assigned_block_nbr
    status_info := "x"
    fk_type := .AU
    price := 12 }

/-- A node that stopped before block 101 with two requests left. -/
def stopped_node : Node :=
  { init sample_config 101 with
    table := [encode (left_evt 17 92).event, encode (left_evt 18 93).event] }

/-- The second pass is queued before the statement of the first is executed. -/
def restart_run : List Label :=
  [.select_stale, .execute false, .timeout, .put .timeout, .timeout, .select_stale, .execute false,
    .execute false]

theorem restart_times_out_last_stale_block :
    ∃ t, run (step sample_config) (stopped_node.restart sample_config) restart_run = some t ∧
      t.table.map Evt.fk_status = [.ER, .AS] ∧
      List.Forall₂ (TimesOut 92) stopped_node.table t.table := by
  have hdone : (run (step sample_config) (stopped_node.restart sample_config) restart_run).map
      (fun t => (t.table.map Evt.fk_status, t.stale_queries, t.activity .timeout, t.queue.length)) =
        some ([.ER, .AS], [], .running [], 0) := by
    decide +kernel
  obtain ⟨t, hrun, ht⟩ := Option.map_eq_some_iff.mp hdone
  obtain ⟨hstatuses, hpassed, hreturned, happlied⟩ : _ ∧ _ ∧ _ ∧ _ := by
    simpa only [Prod.mk.injEq] using ht
  exact ⟨t, hrun, hstatuses,
    restart_times_out_stale_requests sample_config stopped_node (by decide) restart_run t
      (by decide +kernel) hrun hpassed hreturned (List.length_eq_zero_iff.mp happlied)⟩

end qsp.audit
