import QspNode.Audit.Node
import QspNode.Lib.Transition
import QspNode.Utils.Db.Sql3liteworker

open lib.fifo lib.transition qsp.evt

namespace qsp.audit

/-- The query by which the database worker serves a request of the node: a write
    takes a script of its statement, a read a select of its rows. -/
def Serves (query : sql3liteworker.Query (List Row) (List Row)) : Request Write Query → Prop
  | .write w => ∃ sql, query = .script sql ∧ sql.apply = w.exec
  | .read q => ∃ fails, query = .select q.rows fails

theorem serves_write_script (w : Write) (answer : lib.transaction.Answer (List Row)) :
    Serves (.script (sql3liteworker.write_script w answer)) (.write w) :=
  ⟨sql3liteworker.write_script w answer, rfl, rfl⟩

section
variable {s : Node} {worker : sql3liteworker.Worker (List Row) (List Row)}

/-- What the worker makes of the oldest request is a step of the node, which
    answers a read as the worker does. -/
theorem execute_served (config : Config) {job : sql3liteworker.Job (List Row) (List Row)} {client : Client}
    {request : Request Write Query} {queue : List (Client × Request Write Query)}
    (hqueue : s.queue = (client, request) :: queue) (hserves : Serves job.query request)
    (hclosed : worker.connection.working = none) (hdatabase : worker.connection.database = s.table) :
    ∃ fails t, execute config fails s = some t ∧ t.queue = queue ∧
      (sql3liteworker.run_query worker job).connection.database = t.table ∧
        ∀ q, request = .read q →
          (job.token, if fails then sql3liteworker.Reply.error else .rows (q.rows s.table)) ∈
            (sql3liteworker.run_query worker job).results := by
  have hserved := sql3liteworker.run_query_served hclosed job
  have hatomic := hserved.atomic
  rw [hdatabase] at hatomic
  cases request with
  | write w =>
    obtain ⟨sql, hquery, happly⟩ := hserves
    have hexec : job.query.apply s.table = w.exec s.table := by
      rw [hquery, sql3liteworker.Query.apply, happly]
    rw [hexec] at hatomic
    rcases hatomic with hsame | hwritten
    · exact ⟨true, { s with queue }, by rw [execute, hqueue]; rfl, rfl, hsame, by simp⟩
    · exact ⟨false, { s with queue, table := w.exec s.table }, by rw [execute, hqueue]; rfl, rfl,
        hwritten, by simp⟩
  | read q =>
    obtain ⟨fails, hquery⟩ := hserves
    have hsame : (sql3liteworker.run_query worker job).connection.database = s.table := by
      simpa [hquery, sql3liteworker.Query.apply] using hatomic
    have hreply : ∀ q', Request.read (w := Write) q = .read q' →
        (job.token, if fails then sql3liteworker.Reply.error else .rows (q'.rows s.table)) ∈
          (sql3liteworker.run_query worker job).results := by
      rintro q' ⟨⟩
      rw [← hdatabase]
      exact hserved.replied q.rows fails hquery
    cases client with
    | poll =>
      exact ⟨fails, { s with queue, poll := s.poll.answered config fails (q.rows s.table) },
        by rw [execute, hqueue], rfl, hsame, hreply⟩
    | stage p =>
      exact ⟨fails, ({ s with queue } : Node).set p (if fails then .dead else .running (q.rows s.table)),
        by rw [execute, hqueue], rfl, hsame, hreply⟩

/-- What the worker makes of the queue, whatever the database raises, is a run of
    the node. -/
theorem queue_served (config : Config) {jobs : List (sql3liteworker.Job (List Row) (List Row))}
    (hserves : List.Forall₂ (fun entry job => Serves job.query entry.2) s.queue jobs)
    (hclosed : worker.connection.working = none) (hdatabase : worker.connection.database = s.table) :
    ∃ (outcomes : List Bool) (t : Node), run (step config) s (outcomes.map Label.execute) = some t ∧
      (sql3liteworker.run worker jobs).connection.database = t.table ∧
        ((sql3liteworker.run worker jobs).alive = true → t.queue = []) := by
  induction jobs generalizing s worker with
  | nil =>
    have hempty : s.queue = [] := List.forall₂_nil_right_iff.mp hserves
    exact ⟨[], s, rfl, hdatabase, fun _ => hempty⟩
  | cons job jobs ih =>
    obtain ⟨⟨client, request⟩, queue, hhead, htail, hqueue⟩ := List.forall₂_cons_right_iff.mp hserves
    rw [sql3liteworker.run]
    split
    · obtain ⟨fails, t, hexecute, rfl, htable, _⟩ := execute_served config hqueue hhead hclosed hdatabase
      have hserved := sql3liteworker.run_query_served hclosed job
      obtain ⟨outcomes, u, hrun, hdatabase', hdone⟩ := ih htail hserved.closed htable
      exact ⟨fails :: outcomes, u, run_cons_eq_some_iff.mpr ⟨t, hexecute, hrun⟩, hdatabase', hdone⟩
    · next hdead => exact ⟨[], s, rfl, hdatabase, fun halive => absurd halive hdead⟩

end

end qsp.audit
