import QspNode.Audit.Node

open lib.fifo qsp.evt qsp.monitor_submission_thread

namespace qsp.audit

/-- The statuses whose rows a stage works on. -/
def Stage.statuses : Stage → List Status
  | .timeout => stale_statuses
  | .perform => [.AS]
  | .submit => [.TS]
  | .monitor => [.SB]

def Activity.held : Activity → List Write
  | .writing w _ _ => [w]
  | .running _ | .waiting _ | .dead => []

def Activity.rows : Activity → List Row
  | .running rows | .writing _ _ rows => rows
  | .waiting _ | .dead => []

def Activity.awaited : Activity → Option Query
  | .waiting status => some (.events_with_status status)
  | .running _ | .writing _ _ _ | .dead => none

/-- The statements of a stage that are not executed yet. -/
def pending (p : Stage) (queue : List (Client × Request Write Query)) (activity : Activity) : List Write :=
  writes (.stage p) queue ++ activity.held

/-- The requests that a stage has statements or rows of. -/
def tasks (p : Stage) (queue : List (Client × Request Write Query)) (activity : Activity) : List Int :=
  (pending p queue activity).map Write.request_id ++ activity.rows.map Evt.request_id

/-- A stage has at most one task for a request, and the row of each task is
    still as the stage read it, in a status that is its own. -/
structure StageInv (p : Stage) (table : List Row) (queue : List (Client × Request Write Query))
    (activity : Activity) : Prop where
  lined : Lined (.stage p) activity.awaited queue
  awaits : ∀ status, activity = .waiting status → status ∈ p.statuses
  distinct : (tasks p queue activity).Nodup
  issued : ∀ w ∈ pending p queue activity,
    ∃ row ∈ table, row.fk_status ∈ p.statuses ∧ Issues MAX_SUBMISSION_ATTEMPTS row w
  fallback : ∀ w full rows, activity = .writing w full rows →
    ∃ row ∈ table, row.fk_status ∈ p.statuses ∧ Issues MAX_SUBMISSION_ATTEMPTS row w ∧
      full.Respects MAX_SUBMISSION_ATTEMPTS row
  owned : ∀ row ∈ activity.rows, row ∈ table ∧ row.fk_status ∈ p.statuses

section
variable {p : Stage} {table : List Row} {queue : List (Client × Request Write Query)}
  {activity : Activity} {client : Client} {request : Request Write Query} {status : Status} {w : Write}
  {full : Recovery} {row : Row} {rows : List Row}

/-- A stage that has nothing to do. -/
theorem stageInv_idle (hnone : requests (.stage p) queue = []) :
    StageInv p table queue (.running []) where
  lined := lined_of_requests_eq_nil hnone
  awaits := by simp
  distinct := by simp [tasks, pending, writes_eq_nil_of_requests hnone, Activity.held, Activity.rows]
  issued := by simp [pending, writes_eq_nil_of_requests hnone, Activity.held]
  fallback := by simp
  owned := by simp [Activity.rows]

theorem StageInv.enqueue_other (hinv : StageInv p table queue activity) (hne : client ≠ .stage p) :
    StageInv p table (queue ++ [(client, request)]) activity where
  lined := hinv.lined.enqueue_other hne
  awaits := hinv.awaits
  distinct := by simpa only [tasks, pending, writes_enqueue_other hne] using hinv.distinct
  issued := by simpa only [pending, writes_enqueue_other hne] using hinv.issued
  fallback := hinv.fallback
  owned := hinv.owned

theorem StageInv.dequeue_other (hinv : StageInv p table ((client, request) :: queue) activity)
    (hne : client ≠ .stage p) : StageInv p table queue activity where
  lined := hinv.lined.dequeue_other hne
  awaits := hinv.awaits
  distinct := by simpa only [tasks, pending, writes_cons_of_ne hne] using hinv.distinct
  issued := by simpa only [pending, writes_cons_of_ne hne] using hinv.issued
  fallback := hinv.fallback
  owned := hinv.owned

/-- The rows of the tasks are all that a stage needs of the table. -/
theorem StageInv.frame {table' : List Row} (hinv : StageInv p table queue activity)
    (hkept : ∀ row ∈ table, row.fk_status ∈ p.statuses → row.request_id ∈ tasks p queue activity →
      row ∈ table') : StageInv p table' queue activity where
  lined := hinv.lined
  awaits := hinv.awaits
  distinct := hinv.distinct
  issued := by
    intro w hw
    obtain ⟨row, hrow, hstatus, hissues⟩ := hinv.issued w hw
    have htask : row.request_id ∈ tasks p queue activity := by
      rw [← hissues.1]
      exact List.mem_append_left _ (List.mem_map_of_mem hw)
    exact ⟨row, hkept row hrow hstatus htask, hstatus, hissues⟩
  fallback := by
    intro w full rows hactivity
    obtain ⟨row, hrow, hstatus, hissues, hfull⟩ := hinv.fallback w full rows hactivity
    have htask : row.request_id ∈ tasks p queue activity := by
      rw [← hissues.1]
      refine List.mem_append_left _ (List.mem_map_of_mem ?_)
      simp [pending, hactivity, Activity.held]
    exact ⟨row, hkept row hrow hstatus htask, hstatus, hissues, hfull⟩
  owned := by
    intro row hrow
    obtain ⟨hmem, hstatus⟩ := hinv.owned row hrow
    exact ⟨hkept row hmem hstatus (List.mem_append_right _ (List.mem_map_of_mem hrow)), hstatus⟩

theorem StageInv.select (hinv : StageInv p table queue (.running [])) (hstatus : status ∈ p.statuses) :
    StageInv p table (queue ++ [(.stage p, .read (.events_with_status status))]) (.waiting status) where
  lined := Lined.enqueue_read hinv.lined
  awaits := by
    intro other heq
    obtain rfl := Activity.waiting.inj heq
    exact hstatus
  distinct := by
    simpa only [tasks, pending, writes_enqueue_read, Activity.held, Activity.rows] using hinv.distinct
  issued := by
    simpa only [pending, writes_enqueue_read, Activity.held] using hinv.issued
  fallback := by simp
  owned := by simp [Activity.rows]

/-- A stage that gives up keeps the statements it has queued. -/
theorem StageInv.die (hinv : StageInv p table queue activity) (hbusy : activity.awaited = none) :
    StageInv p table queue .dead where
  lined := by
    have hlined := hinv.lined
    rwa [hbusy] at hlined
  awaits := by simp
  distinct := by
    refine List.Nodup.sublist ?_ hinv.distinct
    simp only [tasks, pending, Activity.held, Activity.rows, List.map_append, List.map_nil,
      List.append_nil, List.append_assoc]
    exact List.sublist_append_left _ _
  issued := by
    intro w hw
    apply hinv.issued w
    simp only [pending, Activity.held, List.append_nil] at hw
    exact List.mem_append_left _ hw
  fallback := by simp
  owned := by simp [Activity.rows]

theorem StageInv.skip (hinv : StageInv p table queue (.running (row :: rows))) :
    StageInv p table queue (.running rows) where
  lined := hinv.lined
  awaits := by simp
  distinct := by
    refine List.Nodup.sublist ?_ hinv.distinct
    simp only [tasks, pending, Activity.held, Activity.rows, List.map_cons]
    exact List.Sublist.append_left (List.sublist_cons_self _ _) _
  issued := hinv.issued
  fallback := by simp
  owned := fun other hother => hinv.owned other (List.mem_cons_of_mem _ hother)

/-- A callback turns the row it is run on into a statement for it. -/
theorem StageInv.write (hinv : StageInv p table queue (.running (row :: rows)))
    (hissues : Issues MAX_SUBMISSION_ATTEMPTS row w) (hfull : full.Respects MAX_SUBMISSION_ATTEMPTS row) :
    StageInv p table queue (.writing w full rows) where
  lined := hinv.lined
  awaits := by simp
  distinct := by simpa [tasks, pending, Activity.held, Activity.rows, hissues.1] using hinv.distinct
  issued := by
    intro v hv
    rcases List.mem_append.mp hv with hv | hv
    · exact hinv.issued v (List.mem_append_left _ hv)
    · obtain rfl : v = w := List.mem_singleton.mp hv
      obtain ⟨hrow, hstatus⟩ := hinv.owned row List.mem_cons_self
      exact ⟨row, hrow, hstatus, hissues⟩
  fallback := by
    intro v full' rows' heq
    obtain ⟨rfl, rfl, rfl⟩ := Activity.writing.inj heq
    obtain ⟨hrow, hstatus⟩ := hinv.owned row List.mem_cons_self
    exact ⟨row, hrow, hstatus, hissues, hfull⟩
  owned := fun other hother => hinv.owned other (List.mem_cons_of_mem _ hother)

theorem StageInv.put (hinv : StageInv p table queue (.writing w full rows)) :
    StageInv p table (queue ++ [(.stage p, .write w)]) (.running rows) where
  lined := Lined.enqueue_write hinv.lined
  awaits := by simp
  distinct := by
    simpa [tasks, pending, Activity.held, Activity.rows, writes_enqueue_write] using hinv.distinct
  issued := by
    simpa [pending, Activity.held, writes_enqueue_write] using hinv.issued
  fallback := by simp
  owned := hinv.owned

/-- A statement for which the queue had no room is dropped. -/
theorem StageInv.drop (hinv : StageInv p table queue (.writing w full rows)) :
    StageInv p table queue (.running rows) where
  lined := hinv.lined
  awaits := by simp
  distinct := by
    refine List.Nodup.sublist ?_ hinv.distinct
    simp only [tasks, pending, Activity.held, Activity.rows, List.append_nil, List.map_append]
    exact List.Sublist.append_right (List.sublist_append_left _ _) _
  issued := by
    intro v hv
    apply hinv.issued v
    simp only [pending, Activity.held, List.append_nil] at hv
    exact List.mem_append_left _ hv
  fallback := by simp
  owned := hinv.owned

/-- The statement tried instead is for the same row. -/
theorem StageInv.retry {v : Write} (hinv : StageInv p table queue (.writing w (.put v) rows)) :
    StageInv p table queue (.writing v .raise rows) := by
  obtain ⟨row, hrow, hstatus, hissues, hfull⟩ := hinv.fallback w (.put v) rows rfl
  have hissues' := hfull v rfl
  have hid : v.request_id = w.request_id := hissues'.1.trans hissues.1.symm
  refine
    { lined := hinv.lined
      awaits := by simp
      distinct := by
        simpa [tasks, pending, Activity.held, Activity.rows, hid] using hinv.distinct
      issued := ?_
      fallback := ?_
      owned := hinv.owned }
  · intro u hu
    rcases List.mem_append.mp hu with hu | hu
    · exact hinv.issued u (List.mem_append_left _ hu)
    · obtain rfl : u = v := List.mem_singleton.mp hu
      exact ⟨row, hrow, hstatus, hissues'⟩
  · intro u full' rows' heq
    obtain ⟨rfl, rfl, rfl⟩ := Activity.writing.inj heq
    exact ⟨row, hrow, hstatus, hissues', respects_raise⟩

theorem StageInv.executed (hinv : StageInv p table ((.stage p, .write w) :: queue) activity) :
    StageInv p table queue activity where
  lined := hinv.lined.dequeue_write
  awaits := hinv.awaits
  distinct := by
    apply List.Nodup.of_cons (a := w.request_id)
    simpa [tasks, pending] using hinv.distinct
  issued := by
    intro v hv
    apply hinv.issued v
    simp only [pending, writes_cons_write, List.cons_append]
    exact List.mem_cons_of_mem _ hv
  fallback := hinv.fallback
  owned := hinv.owned

/-- An executed statement has no other task of its stage behind it. -/
theorem StageInv.executed_notMem (hinv : StageInv p table ((.stage p, .write w) :: queue) activity) :
    w.request_id ∉ tasks p queue activity := by
  have hdistinct : (w.request_id :: tasks p queue activity).Nodup := by
    simpa [tasks, pending] using hinv.distinct
  exact (List.nodup_cons.mp hdistinct).1

/-- When the rows of a status arrive, the stage has no statement left. -/
theorem StageInv.answered {query : Query}
    (hinv : StageInv p table ((.stage p, .read query) :: queue) activity)
    (hkeys : (table.map Evt.request_id).Nodup) :
    ∃ status ∈ p.statuses, activity = .waiting status ∧ query = .events_with_status status ∧
      requests (.stage p) queue = [] ∧ StageInv p table queue (.running (query.rows table)) := by
  obtain ⟨hawaited, hnone⟩ := hinv.lined.dequeue_read
  cases activity with
  | waiting status =>
    obtain rfl : .events_with_status status = query := Option.some.inj hawaited
    refine ⟨status, hinv.awaits status rfl, rfl, rfl, hnone, ?_⟩
    refine
      { lined := lined_of_requests_eq_nil hnone
        awaits := by simp
        distinct := ?_
        issued := by simp [pending, writes_eq_nil_of_requests hnone, Activity.held]
        fallback := by simp
        owned := ?_ }
    · simp only [tasks, pending, writes_eq_nil_of_requests hnone, Activity.held, Activity.rows,
        List.append_nil, List.map_nil, List.nil_append]
      exact List.Nodup.sublist (List.Sublist.map _ List.filter_sublist) hkeys
    · intro row hrow
      obtain ⟨hmem, hstatus⟩ := List.mem_filter.mp hrow
      obtain rfl : row.fk_status = status := of_decide_eq_true hstatus
      exact ⟨hmem, hinv.awaits row.fk_status rfl⟩
  | _ => cases hawaited

theorem stageInv_dead_of_answered (hnone : requests (.stage p) queue = []) :
    StageInv p table queue .dead :=
  (stageInv_idle hnone).die rfl

end

end qsp.audit
