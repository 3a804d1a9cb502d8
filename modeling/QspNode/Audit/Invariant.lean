import QspNode.Audit.Polling
import QspNode.Audit.Stages
import QspNode.Lib.Transition

open lib.fifo qsp.evt qsp.monitor_submission_thread

namespace qsp.audit

/-- What holds in every reachable state: the stages and the polling thread keep
    to their own rows, and the timeout of stale requests is over, up to its last
    queued statement, before any other stage reads a row. -/
structure Consistent (config : Config) (table : List Row) (queue : List (Client × Request Write Query))
    (activity : Stage → Activity) (pc : poll_requests_thread.Pc) (stale_queries : List Status)
    (started : Bool) : Prop where
  keys : (table.map Evt.request_id).Nodup
  stored : ∀ row ∈ table, Stored MAX_SUBMISSION_ATTEMPTS row
  stages : ∀ p, StageInv p table queue (activity p)
  poll : PollInv config (table.map Evt.request_id) queue pc
  stale : ∀ status ∈ stale_queries, status ∈ stale_statuses
  unstarted : started = false → pc = .idle ∧ (∀ p ≠ .timeout, activity p = .running []) ∧
    ∀ job ∈ queue, job.1 = .stage .timeout
  started : started = true → stale_queries = [] ∧ activity .timeout = .running []
  ordered : queue.Pairwise (fun i j => j.1 = .stage .timeout → i.1 = .stage .timeout)
  exclusive : ∀ p ≠ .timeout, tasks p queue (activity p) ≠ [] → tasks .timeout queue (activity .timeout) = []

abbrev Inv (config : Config) (s : Node) : Prop :=
  Consistent config s.table s.queue s.activity s.poll s.stale_queries s.started

section
variable {config : Config} {s t : Node} {p q : Stage} {activity : Activity}
  {queue : List (Client × Request Write Query)} {client : Client} {request : Request Write Query}
  {w : Write} {pc : poll_requests_thread.Pc}

/-- The timeout of stale requests and the threads never run together. -/
theorem Inv.started_iff (hinv : Inv config s) (hbusy : s.activity p ≠ .running []) :
    s.started = true ↔ p ≠ .timeout := by
  constructor
  · rintro hstarted rfl
    exact hbusy (hinv.started hstarted).2
  · intro hne
    by_contra hunstarted
    exact hbusy ((hinv.unstarted (Bool.eq_false_iff.mpr hunstarted)).2.1 p hne)

theorem tasks_enqueue_other (hne : client ≠ .stage p) :
    tasks p (queue ++ [(client, request)]) activity = tasks p queue activity := by
  rw [tasks, pending, writes_enqueue_other hne, tasks, pending]

theorem tasks_dequeue_other (hne : client ≠ .stage p) :
    tasks p ((client, request) :: queue) activity = tasks p queue activity := by
  rw [tasks, pending, writes_cons_of_ne hne, tasks, pending]

theorem tasks_select {query : Query} {status : Status} :
    tasks p (queue ++ [(.stage p, .read query)]) (.waiting status) = tasks p queue (.running []) := by
  simp only [tasks, pending, writes_enqueue_read, Activity.held, Activity.rows]

theorem stage_ne (hne : p ≠ q) : Client.stage p ≠ Client.stage q := by
  intro heq
  exact hne (Client.stage.inj heq)

/-- A stage takes a step that may queue a request. -/
theorem Inv.advance_stage (hinv : Inv config s) (hstarted : s.started = true ↔ p ≠ .timeout)
    (hstage : StageInv p s.table queue activity)
    (hqueue : queue = s.queue ∨ ∃ request, queue = s.queue ++ [(.stage p, request)])
    (htasks : tasks p s.queue (s.activity p) = [] → tasks p queue activity = []) :
    Consistent config s.table queue (Function.update s.activity p activity) s.poll s.stale_queries
      s.started := by
  have hother (r : Stage) (hne : r ≠ p) : StageInv r s.table queue (s.activity r) := by
    rcases hqueue with rfl | ⟨request, rfl⟩
    · exact hinv.stages r
    · exact (hinv.stages r).enqueue_other (stage_ne hne.symm)
  have hsame (r : Stage) (hne : r ≠ p) :
      tasks r queue (s.activity r) = tasks r s.queue (s.activity r) := by
    rcases hqueue with rfl | ⟨request, rfl⟩
    · rfl
    · exact tasks_enqueue_other (stage_ne hne.symm)
  have hbusy (r : Stage) (htask : tasks r queue (Function.update s.activity p activity r) ≠ []) :
      tasks r s.queue (s.activity r) ≠ [] := by
    by_cases hr : r = p
    · subst hr
      rw [Function.update_self] at htask
      exact fun hnone => htask (htasks hnone)
    · rwa [Function.update_of_ne hr, hsame r hr] at htask
  refine
    { keys := hinv.keys
      stored := hinv.stored
      stages := ?_
      poll := ?_
      stale := hinv.stale
      unstarted := ?_
      started := ?_
      ordered := ?_
      exclusive := ?_ }
  · intro r
    by_cases hr : r = p
    · subst hr
      rwa [Function.update_self]
    · rw [Function.update_of_ne hr]
      exact hother r hr
  · rcases hqueue with rfl | ⟨request, rfl⟩
    · exact hinv.poll
    · exact hinv.poll.enqueue_other (by simp)
  · intro hunstarted
    obtain ⟨hpoll, hactivity, howner⟩ := hinv.unstarted hunstarted
    obtain rfl : p = .timeout := by
      by_contra hne
      simp [hstarted.mpr hne] at hunstarted
    refine ⟨hpoll, ?_, ?_⟩
    · intro r hr
      rw [Function.update_of_ne hr]
      exact hactivity r hr
    · rcases hqueue with rfl | ⟨request, rfl⟩
      · exact howner
      · intro job hjob
        rcases List.mem_append.mp hjob with hjob | hjob
        · exact howner job hjob
        · rw [List.mem_singleton.mp hjob]
  · intro hyes
    rw [Function.update_of_ne (hstarted.mp hyes).symm]
    exact hinv.started hyes
  · rcases hqueue with rfl | ⟨request, rfl⟩
    · exact hinv.ordered
    · refine List.pairwise_append.mpr ⟨hinv.ordered, List.pairwise_singleton _ _, ?_⟩
      intro i hi j hj howner
      rw [List.mem_singleton.mp hj] at howner
      have hunstarted : s.started = false := by
        by_contra hyes
        exact hstarted.mp (Bool.eq_true_of_not_eq_false hyes) (Client.stage.inj howner)
      exact (hinv.unstarted hunstarted).2.2 i hi
  · intro r hr htask
    have hnone := hinv.exclusive r hr (hbusy r htask)
    by_contra htimeout
    exact hbusy .timeout htimeout hnone

/-- The polling thread takes a step that may queue a request. -/
theorem Inv.advance_poll (hinv : Inv config s) (hstarted : s.started = true)
    (hpoll : PollInv config (s.table.map Evt.request_id) queue pc)
    (hqueue : queue = s.queue ∨ ∃ request, queue = s.queue ++ [(.poll, request)]) :
    Consistent config s.table queue s.activity pc s.stale_queries s.started := by
  have hsame (r : Stage) : tasks r queue (s.activity r) = tasks r s.queue (s.activity r) := by
    rcases hqueue with rfl | ⟨request, rfl⟩
    · rfl
    · exact tasks_enqueue_other (by simp)
  refine
    { keys := hinv.keys
      stored := hinv.stored
      stages := ?_
      poll := hpoll
      stale := hinv.stale
      unstarted := ?_
      started := hinv.started
      ordered := ?_
      exclusive := ?_ }
  · intro r
    rcases hqueue with rfl | ⟨request, rfl⟩
    · exact hinv.stages r
    · exact (hinv.stages r).enqueue_other (by simp)
  · intro hunstarted
    simp [hstarted] at hunstarted
  · rcases hqueue with rfl | ⟨request, rfl⟩
    · exact hinv.ordered
    · refine List.pairwise_append.mpr ⟨hinv.ordered, List.pairwise_singleton _ _, ?_⟩
      intro i hi j hj howner
      rw [List.mem_singleton.mp hj] at howner
      cases howner
  · intro r hr htask
    simp only [hsame] at htask ⊢
    exact hinv.exclusive r hr htask

theorem Inv.started_of_poll (hinv : Inv config s) (hpoll : s.poll ≠ .idle) : s.started = true := by
  by_contra hunstarted
  exact hpoll (hinv.unstarted (Bool.eq_false_iff.mpr hunstarted)).1

/-- Rows of two threads of the pipeline are in different statuses. -/
theorem eq_of_statuses (hp : p ≠ .timeout) (hq : q ≠ .timeout) {status : Status}
    (hp' : status ∈ p.statuses) (hq' : status ∈ q.statuses) : p = q := by
  revert hp' hq'
  cases p <;> cases q <;> simp_all [Stage.statuses]

/-- The statement of a stage that is executed next advances one row, and no
    other task is for that row. -/
theorem Inv.exec_stage (hinv : Inv config s) (hqueue : s.queue = (.stage p, .write w) :: queue) :
    ∃ row ∈ s.table, row.fk_status ∈ p.statuses ∧ Issues MAX_SUBMISSION_ATTEMPTS row w ∧
      w.exec s.table = lib.table.update Evt.request_id w.request_id w.on s.table ∧
      Evolves MAX_SUBMISSION_ATTEMPTS s.table (w.exec s.table) := by
  have hstage := hinv.stages p
  rw [hqueue] at hstage
  obtain ⟨row, hrow, hstatus, hissues⟩ := hstage.issued w (by simp [pending])
  have hexec := exec_update hissues.ne_add s.table
  refine ⟨row, hrow, hstatus, hissues, hexec, ?_⟩
  rw [hexec]
  refine .advance (request_id_on w) ?_
  intro other hother hkey
  obtain rfl := lib.table.eq_of_key_eq hinv.keys hother hrow (hkey.trans hissues.1)
  exact hissues.2

/-- The statement of the polling thread that is executed next inserts a row for
    a request that has none, or changes nothing. -/
theorem Inv.exec_poll (hinv : Inv config s) (hqueue : s.queue = (.poll, .write w) :: queue) :
    (∃ evt, w = .add_evt_to_be_assigned evt ∧ evt.request_id ∉ s.table.map Evt.request_id ∧
      w.exec s.table = s.table ++ [encode evt.event]) ∨ w.exec s.table = s.table := by
  have hpoll := hinv.poll
  rw [hqueue] at hpoll
  have hnew : w.request_id ∉ s.table.map Evt.request_id := hpoll.new w (by simp)
  cases w with
  | add_evt_to_be_assigned evt => exact Or.inl ⟨evt, rfl, hnew, exec_add_evt hnew⟩
  | _ => exact Or.inr (lib.table.update_eq_self hnew)

theorem Inv.exec_evolves (hinv : Inv config s) (hqueue : s.queue = (client, .write w) :: queue) :
    Relation.ReflGen (Evolves MAX_SUBMISSION_ATTEMPTS) s.table (w.exec s.table) := by
  cases client with
  | stage p =>
    obtain ⟨row, _, _, _, _, hevolves⟩ := hinv.exec_stage hqueue
    exact .single hevolves
  | poll =>
    rcases hinv.exec_poll hqueue with ⟨evt, _, hnew, hexec⟩ | hexec
    · rw [hexec]
      exact .single (.insert ⟨evt, rfl⟩ hnew)
    · rw [hexec]

theorem tasks_ne_nil_of_head : tasks p ((.stage p, .write w) :: queue) activity ≠ [] := by
  simp [tasks, pending]

/-- A served request leaves the queue; what remains is to be checked on the new
    table only. -/
theorem Inv.serve (hinv : Inv config s) (hqueue : s.queue = (client, .write w) :: queue)
    {table : List Row} (hkeys : (table.map Evt.request_id).Nodup)
    (hstored : ∀ row ∈ table, Stored MAX_SUBMISSION_ATTEMPTS row)
    (hstages : ∀ p, StageInv p table queue (s.activity p))
    (hpoll : PollInv config (table.map Evt.request_id) queue s.poll) :
    Consistent config table queue s.activity s.poll s.stale_queries s.started := by
  have hordered := hinv.ordered
  rw [hqueue] at hordered
  have hsub (r : Stage) (htask : tasks r queue (s.activity r) ≠ []) :
      tasks r s.queue (s.activity r) ≠ [] := by
    rw [hqueue]
    by_cases hr : client = .stage r
    · subst hr
      exact tasks_ne_nil_of_head
    · rwa [tasks_dequeue_other hr]
  refine
    { keys := hkeys
      stored := hstored
      stages := hstages
      poll := hpoll
      stale := hinv.stale
      unstarted := ?_
      started := hinv.started
      ordered := (List.pairwise_cons.mp hordered).2
      exclusive := ?_ }
  · intro hunstarted
    obtain ⟨hidle, hactivity, howner⟩ := hinv.unstarted hunstarted
    rw [hqueue] at howner
    exact ⟨hidle, hactivity, fun job hjob => howner job (List.mem_cons_of_mem _ hjob)⟩
  · intro r hr htask
    by_contra htimeout
    exact hsub .timeout htimeout (hinv.exclusive r hr (hsub r htask))

theorem Inv.served_stage (hinv : Inv config s) (hqueue : s.queue = (client, .write w) :: queue) (r : Stage) :
    StageInv r s.table queue (s.activity r) := by
  have hstage := hinv.stages r
  rw [hqueue] at hstage
  by_cases hr : client = .stage r
  · subst hr
    exact hstage.executed
  · exact hstage.dequeue_other hr

theorem Inv.served_poll {keys : List Int} (hinv : Inv config s)
    (hqueue : s.queue = (client, .write w) :: queue)
    (hkeys : client = .poll ∨ keys = s.table.map Evt.request_id) : PollInv config keys queue s.poll := by
  have hpoll := hinv.poll
  rw [hqueue] at hpoll
  rcases hkeys with rfl | rfl
  · exact hpoll.executed.2.2
  · cases client with
    | poll => exact hpoll.executed.2.2
    | stage p => exact hpoll.dequeue_other (by simp)

/-- A failed statement changes nothing. -/
theorem Inv.execute_failed (hinv : Inv config s) (hqueue : s.queue = (client, .write w) :: queue) :
    Consistent config s.table queue s.activity s.poll s.stale_queries s.started :=
  hinv.serve hqueue hinv.keys hinv.stored (hinv.served_stage hqueue)
    (hinv.served_poll hqueue (Or.inr rfl))

/-- The rows that the other tasks are for stay as they are. -/
theorem Inv.exec_frame (hinv : Inv config s) (hqueue : s.queue = (.stage p, .write w) :: queue) (r : Stage) :
    StageInv r (w.exec s.table) queue (s.activity r) := by
  obtain ⟨row, hrow, hstatus, hissues, hexec, _⟩ := hinv.exec_stage hqueue
  apply (hinv.served_stage hqueue r).frame
  intro other hother hstatus' htask
  rw [hexec]
  apply lib.table.mem_update_of_ne hother
  intro hkey
  by_cases hr : p = r
  · subst hr
    have hstage := hinv.stages p
    rw [hqueue] at hstage
    exact hstage.executed_notMem (hkey ▸ htask)
  · obtain rfl := lib.table.eq_of_key_eq hinv.keys hother hrow (hkey.trans hissues.1)
    have hp : tasks p s.queue (s.activity p) ≠ [] := by
      rw [hqueue]
      exact tasks_ne_nil_of_head
    have hr' : tasks r s.queue (s.activity r) ≠ [] := by
      rw [hqueue, tasks_dequeue_other (stage_ne hr)]
      exact List.ne_nil_of_mem htask
    by_cases hptimeout : p = .timeout
    · subst hptimeout
      exact hp (hinv.exclusive r (Ne.symm hr) hr')
    · by_cases hrtimeout : r = .timeout
      · subst hrtimeout
        exact hr' (hinv.exclusive p hptimeout hp)
      · exact hr (eq_of_statuses hptimeout hrtimeout hstatus hstatus')

theorem Inv.execute_write (hinv : Inv config s) (hqueue : s.queue = (client, .write w) :: queue) :
    Consistent config (w.exec s.table) queue s.activity s.poll s.stale_queries s.started := by
  cases client with
  | stage p =>
    obtain ⟨row, _, _, _, hexec, hevolves⟩ := hinv.exec_stage hqueue
    have hkeys : (w.exec s.table).map Evt.request_id = s.table.map Evt.request_id := by
      rw [hexec, lib.table.keys_update (request_id_on w)]
    exact hinv.serve hqueue (hevolves.nodup hinv.keys) (hevolves.stored hinv.stored)
      (hinv.exec_frame hqueue) (hinv.served_poll hqueue (Or.inr hkeys))
  | poll =>
    rcases hinv.exec_poll hqueue with ⟨evt, _, hnew, hexec⟩ | hexec
    · have hevolves : Evolves MAX_SUBMISSION_ATTEMPTS s.table (w.exec s.table) := by
        rw [hexec]
        exact .insert ⟨evt, rfl⟩ hnew
      refine hinv.serve hqueue (hevolves.nodup hinv.keys) (hevolves.stored hinv.stored) ?_
        (hinv.served_poll hqueue (Or.inl rfl))
      intro r
      apply (hinv.served_stage hqueue r).frame
      intro row hrow _ _
      rw [hexec]
      exact List.mem_append_left _ hrow
    · rw [hexec]
      exact hinv.execute_failed hqueue

/-- The rows of a status reach their stage. -/
theorem Inv.execute_select {query : Query} (hinv : Inv config s)
    (hqueue : s.queue = (.stage p, .read query) :: queue)
    (hactivity : activity = .dead ∨ activity = .running (query.rows s.table)) :
    Consistent config s.table queue (Function.update s.activity p activity) s.poll s.stale_queries
      s.started := by
  have hstage := hinv.stages p
  rw [hqueue] at hstage
  obtain ⟨status, hstatus, hwaiting, rfl, hnone, hanswered⟩ := hstage.answered hinv.keys
  have hstarted := hinv.started_iff (p := p) (by simp [hwaiting])
  have hordered := hinv.ordered
  rw [hqueue] at hordered
  obtain ⟨hfirst, hrest⟩ := List.pairwise_cons.mp hordered
  have hother (r : Stage) (hr : r ≠ p) :
      StageInv r s.table queue (s.activity r) ∧
        tasks r queue (s.activity r) = tasks r s.queue (s.activity r) := by
    have hstage' := hinv.stages r
    rw [hqueue] at hstage' ⊢
    exact ⟨hstage'.dequeue_other (stage_ne hr.symm), (tasks_dequeue_other (stage_ne hr.symm)).symm⟩
  refine
    { keys := hinv.keys
      stored := hinv.stored
      stages := ?_
      poll := ?_
      stale := hinv.stale
      unstarted := ?_
      started := ?_
      ordered := hrest
      exclusive := ?_ }
  · intro r
    by_cases hr : r = p
    · subst hr
      rw [Function.update_self]
      rcases hactivity with rfl | rfl
      · exact stageInv_dead_of_answered hnone
      · exact hanswered
    · rw [Function.update_of_ne hr]
      exact (hother r hr).1
  · have hpoll := hinv.poll
    rw [hqueue] at hpoll
    exact hpoll.dequeue_other (by simp)
  · intro hunstarted
    obtain ⟨hidle, hactivity', howner⟩ := hinv.unstarted hunstarted
    rw [hqueue] at howner
    have hp : p = .timeout := Client.stage.inj (howner _ List.mem_cons_self)
    refine ⟨hidle, ?_, fun job hjob => howner job (List.mem_cons_of_mem _ hjob)⟩
    intro r hr
    rw [Function.update_of_ne (hp ▸ hr)]
    exact hactivity' r hr
  · intro hyes
    rw [Function.update_of_ne (hstarted.mp hyes).symm]
    exact hinv.started hyes
  · intro r hr htask
    by_cases hp : p = .timeout
    · subst hp
      -- the threads of the pipeline have not started yet
      have hunstarted : s.started = false := by
        by_contra hyes
        exact hstarted.mp (Bool.eq_true_of_not_eq_false hyes) rfl
      obtain ⟨_, hidle, howner⟩ := hinv.unstarted hunstarted
      rw [Function.update_of_ne hr, (hother r hr).2, hidle r hr] at htask
      refine absurd ?_ htask
      rw [tasks, pending, writes_eq_nil]
      · rfl
      · intro job hjob heq
        exact hr (Client.stage.inj (heq.symm.trans (howner job hjob)))
    · have hnone' : writes (.stage .timeout) queue = [] := by
        apply writes_eq_nil
        intro job hjob howner
        exact hp (Client.stage.inj (hfirst job hjob howner))
      rw [Function.update_of_ne (Ne.symm hp), (hinv.started (hstarted.mpr hp)).2, tasks, pending, hnone']
      rfl

/-- The rows of a request reach the polling thread. -/
theorem Inv.execute_query {query : Query} {fails : Bool} (hinv : Inv config s)
    (hqueue : s.queue = (.poll, .read query) :: queue) :
    Consistent config s.table queue s.activity (s.poll.answered config fails (query.rows s.table))
      s.stale_queries s.started := by
  have hpoll := hinv.poll
  rw [hqueue] at hpoll
  obtain ⟨hanswered, assignment, current_block, hselecting, _⟩ := hpoll.answered fails
  have hstarted : s.started = true := hinv.started_of_poll (by simp [hselecting])
  have hordered := hinv.ordered
  rw [hqueue] at hordered
  have hsame (r : Stage) : tasks r queue (s.activity r) = tasks r s.queue (s.activity r) := by
    rw [hqueue, tasks_dequeue_other (by simp)]
  refine
    { keys := hinv.keys
      stored := hinv.stored
      stages := ?_
      poll := hanswered
      stale := hinv.stale
      unstarted := ?_
      started := hinv.started
      ordered := (List.pairwise_cons.mp hordered).2
      exclusive := ?_ }
  · intro r
    have hstage := hinv.stages r
    rw [hqueue] at hstage
    exact hstage.dequeue_other (by simp)
  · intro hunstarted
    simp [hstarted] at hunstarted
  · intro r hr htask
    simp only [hsame] at htask ⊢
    exact hinv.exclusive r hr htask

theorem Inv.execute {fails : Bool} (hinv : Inv config s) (hstep : execute config fails s = some t) :
    Inv config t := by
  unfold audit.execute at hstep
  split at hstep
  · cases hstep
  · next client w queue hqueue =>
    obtain rfl := Option.some.inj hstep
    cases fails with
    | true => exact hinv.execute_failed hqueue
    | false => exact hinv.execute_write hqueue
  · next p query queue hqueue =>
    obtain rfl := Option.some.inj hstep
    apply hinv.execute_select hqueue
    cases fails with
    | true => exact Or.inl rfl
    | false => exact Or.inr rfl
  · next query queue hqueue =>
    obtain rfl := Option.some.inj hstep
    exact hinv.execute_query hqueue

end

end qsp.audit
