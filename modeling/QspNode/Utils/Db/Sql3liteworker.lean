import QspNode.Evt.Store
import QspNode.Lib.Transaction

open lib.transaction

namespace qsp.sql3liteworker

/-- A query in the queue, with the points at which the database raises an error. -/
inductive Query (d r : Type) where
  | select (read : d → r) (fails : Bool)
  | script (script : Script d)

structure Job (d r : Type) where
  token : String
  query : Query d r

inductive Reply (r : Type) where
  | rows (result : r)
  | error

/-- `Sqlite3Worker`: its connection, the entries made in `results`, the tokens of
    the queries that `run_query` has returned from, and whether the thread is
    still there. -/
structure Worker (d r : Type) where
  connection : Connection d
  results : List (String × Reply r)
  served : List String
  alive : Bool

/-- `run_query`. The rollback in the handler of an error may raise one itself,
    which ends the thread. -/
def run_query {d r : Type} (worker : Worker d r) (job : Job d r) : Worker d r :=
  match job.query with
  | .select read fails =>
    let reply := if fails then .error else .rows (read worker.connection.view)
    { worker with
      results := worker.results ++ [(job.token, reply)]
      served := worker.served ++ [job.token] }
  | .script script =>
    match worker.connection.run script with
    | .ok connection => { worker with connection, served := worker.served ++ [job.token] }
    | .error connection =>
      let results := worker.results ++ [(job.token, .error)]
      match connection.rollback with
      | .ok connection => { worker with connection, results, served := worker.served ++ [job.token] }
      | .error connection => { worker with connection, results, alive := false }

/-- The thread loop over the queries of the queue. -/
def run {d r : Type} : Worker d r → List (Job d r) → Worker d r
  | worker, [] => worker
  | worker, job :: jobs => if worker.alive then run (run_query worker job) jobs else worker

/-- What all statements of a query make of the database. -/
def Query.apply {d r : Type} : Query d r → d → d
  | .select _ _, content => content
  | .script sql, content => sql.apply content

/-- The database raises an error that leaves no open transaction: at the
    beginning, or with a rollback of its own. -/
def Query.Lost {d r : Type} : Query d r → Prop
  | .select _ _ => False
  | .script sql => sql.begin_fails = true ∨ sql.left = some none

section
variable {d r : Type} {worker : Worker d r} {job : Job d r} {jobs : List (Job d r)}

/-- What one query does to a worker without an open transaction. -/
structure Served (worker : Worker d r) (job : Job d r) (worker' : Worker d r) : Prop where
  atomic : worker'.connection.database = worker.connection.database ∨
    worker'.connection.database = job.query.apply worker.connection.database
  closed : worker'.connection.working = none
  alive : worker'.alive = true ↔ worker.alive = true ∧ ¬ job.query.Lost
  served : ¬ job.query.Lost → worker'.served = worker.served ++ [job.token]
  results : worker.results <+: worker'.results
  replied : ∀ read fails, job.query = .select read fails →
    (job.token, if fails then Reply.error else .rows (read worker.connection.database)) ∈ worker'.results

theorem run_query_served (hclosed : worker.connection.working = none) (job : Job d r) :
    Served worker job (run_query worker job) := by
  unfold run_query
  cases hquery : job.query with
  | select read fails =>
    refine ⟨Or.inl rfl, hclosed, by simp [hquery, Query.Lost], fun _ => rfl, List.prefix_append _ _, ?_⟩
    rintro read' fails' heq
    obtain ⟨rfl, rfl⟩ := Query.select.inj (hquery.symm.trans heq)
    simp [Connection.view, hclosed]
  | script sql =>
    have hselect : ∀ read fails, job.query ≠ .select read fails := by
      intro read fails heq
      rw [hquery] at heq
      cases heq
    cases hbegin : sql.begin_fails with
    | true =>
      have hlost : (Query.script sql : Query d r).Lost := Or.inl hbegin
      simp only [run_of_begin_fails hbegin, Connection.rollback, hclosed]
      exact ⟨Or.inl rfl, hclosed, by simp [hquery, hlost], fun hnot => absurd (hquery ▸ hlost) hnot,
        List.prefix_append _ _, fun read fails heq => absurd heq (hselect read fails)⟩
    | false =>
      simp only [run_of_begins hbegin hclosed]
      have hlost : (Query.script sql : Query d r).Lost ↔ sql.left = some none := by
        simp [Query.Lost, hbegin]
      cases hleft : sql.left with
      | none =>
        rw [hleft] at hlost
        exact ⟨Or.inr (by rw [hquery]; rfl), rfl, by simp [hquery, hlost], fun _ => rfl,
          List.prefix_refl _, fun read fails heq => absurd heq (hselect read fails)⟩
      | some left =>
        rw [hleft] at hlost
        cases left with
        | none =>
          exact ⟨Or.inl rfl, rfl, by simp [hquery, hlost, Connection.rollback],
            fun hnot => absurd (hquery ▸ hlost.mpr rfl) hnot, List.prefix_append _ _,
            fun read fails heq => absurd heq (hselect read fails)⟩
        | some content =>
          exact ⟨Or.inl rfl, rfl, by simp [hquery, hlost, Connection.rollback], fun _ => rfl,
            List.prefix_append _ _, fun read fails heq => absurd heq (hselect read fails)⟩

theorem run_of_not_alive (hdead : worker.alive = false) (jobs : List (Job d r)) :
    run worker jobs = worker := by
  cases jobs with
  | nil => rfl
  | cons job jobs => simp [run, hdead]

theorem run_append (worker : Worker d r) (before after : List (Job d r)) :
    run worker (before ++ after) = run (run worker before) after := by
  induction before generalizing worker with
  | nil => rfl
  | cons job before ih =>
    rw [List.cons_append, run, run]
    split
    · exact ih (run_query worker job)
    · next hdead => rw [run_of_not_alive (Bool.eq_false_iff.mpr hdead)]

theorem run_singleton (worker : Worker d r) (job : Job d r) :
    run worker [job] = if worker.alive then run_query worker job else worker := rfl

/-- No transaction stays open, whatever the database raises. -/
theorem run_closed (hclosed : worker.connection.working = none) (jobs : List (Job d r)) :
    (run worker jobs).connection.working = none := by
  induction jobs generalizing worker with
  | nil => exact hclosed
  | cons job jobs ih =>
    rw [run]
    split
    · exact ih (run_query_served hclosed job).closed
    · exact hclosed

/-- A query takes effect as a whole or not at all, whatever the database raises. -/
theorem run_atomic (hclosed : worker.connection.working = none) (before : List (Job d r))
    (job : Job d r) :
    (run worker (before ++ [job])).connection.database = (run worker before).connection.database ∨
      (run worker (before ++ [job])).connection.database =
        job.query.apply (run worker before).connection.database := by
  rw [run_append, run_singleton]
  split
  · exact (run_query_served (run_closed hclosed before) job).atomic
  · exact Or.inl rfl

/-- The thread survives exactly when no error leaves it without a transaction to
    roll back. -/
theorem run_alive_iff (hclosed : worker.connection.working = none) (halive : worker.alive = true) :
    (run worker jobs).alive = true ↔ ∀ job ∈ jobs, ¬ job.query.Lost := by
  induction jobs generalizing worker with
  | nil => simpa [run] using halive
  | cons job jobs ih =>
    have hserved := run_query_served hclosed job
    rw [run, if_pos halive, List.forall_mem_cons]
    by_cases hlost : job.query.Lost
    · have hdead : (run_query worker job).alive = false := by
        rw [Bool.eq_false_iff, Ne, hserved.alive]
        exact fun hlive => hlive.2 hlost
      rw [run_of_not_alive hdead]
      simp [hdead, hlost]
    · rw [ih hserved.closed (hserved.alive.mpr ⟨halive, hlost⟩)]
      simp [hlost]

theorem results_prefix_run (hclosed : worker.connection.working = none) (jobs : List (Job d r)) :
    worker.results <+: (run worker jobs).results := by
  induction jobs generalizing worker with
  | nil => exact List.prefix_refl _
  | cons job jobs ih =>
    have hserved := run_query_served hclosed job
    rw [run]
    split
    · exact hserved.results.trans (ih hserved.closed)
    · exact List.prefix_refl _

theorem run_served (hclosed : worker.connection.working = none) (halive : worker.alive = true)
    (hkept : ∀ job ∈ jobs, ¬ job.query.Lost) :
    (run worker jobs).served = worker.served ++ jobs.map Job.token := by
  induction jobs generalizing worker with
  | nil => simp [run]
  | cons job jobs ih =>
    rw [List.forall_mem_cons] at hkept
    have hserved := run_query_served hclosed job
    rw [run, if_pos halive, ih hserved.closed (hserved.alive.mpr ⟨halive, hkept.1⟩) hkept.2,
      hserved.served hkept.1, List.map_cons, List.append_assoc, List.singleton_append]

theorem run_replied (hclosed : worker.connection.working = none) (halive : worker.alive = true)
    {before after : List (Job d r)} (hkept : ∀ job ∈ before, ¬ job.query.Lost) {read : d → r}
    {fails : Bool} (hselect : job.query = .select read fails) :
    (job.token, if fails then Reply.error else .rows (read (run worker before).connection.database)) ∈
      (run worker (before ++ job :: after)).results := by
  have hserved := run_query_served (run_closed hclosed before) job
  have hreply := hserved.replied read fails hselect
  rw [run_append, run, if_pos ((run_alive_iff hclosed halive).mpr hkept)]
  exact (results_prefix_run hserved.closed after).subset hreply

/-- The worker survives the queries, each of which takes effect as a whole or not
    at all and leaves no transaction open, and serves them in their order. -/
structure Undisturbed (worker : Worker d r) (jobs : List (Job d r)) : Prop where
  atomic : ∀ before job after, jobs = before ++ job :: after →
    (run worker (before ++ [job])).connection.database = (run worker before).connection.database ∨
      (run worker (before ++ [job])).connection.database =
        job.query.apply (run worker before).connection.database
  closed : ∀ before, before <+: jobs → (run worker before).connection.working = none
  alive : (run worker jobs).alive = true
  served : (run worker jobs).served = worker.served ++ jobs.map Job.token
  replied : ∀ before job after read fails, jobs = before ++ job :: after →
    job.query = .select read fails →
      (job.token, if fails then Reply.error else .rows (read (run worker before).connection.database)) ∈
        (run worker jobs).results

/-- A database error ends the worker exactly when it leaves no transaction that
    could be rolled back. -/
theorem undisturbed_iff (hclosed : worker.connection.working = none) (halive : worker.alive = true) :
    Undisturbed worker jobs ↔ ∀ job ∈ jobs, ¬ job.query.Lost := by
  constructor
  · intro hundisturbed
    exact (run_alive_iff hclosed halive).mp hundisturbed.alive
  · intro hkept
    refine
      { atomic := fun before job _ _ => run_atomic hclosed before job
        closed := fun before _ => run_closed hclosed before
        alive := (run_alive_iff hclosed halive).mpr hkept
        served := run_served hclosed halive hkept
        replied := ?_ }
    rintro before job after read fails rfl hselect
    have hbefore : ∀ earlier ∈ before, ¬ earlier.query.Lost :=
      fun earlier hmem => hkept earlier (List.mem_append_left _ hmem)
    exact run_replied hclosed halive hbefore hselect

end

/-- A write to `audit_evt` in a transaction of its own. -/
def write_script (w : evt.Write) (answer : Answer (List evt.Row)) : Script (List evt.Row) :=
  { begin_fails := false, statements := [{ apply := w.exec, answer }], commit := .ok }

def idle_worker : Worker (List evt.Row) Nat :=
  { connection := { database := [], working := none }
    results := []
    served := []
    alive := true }

def inserted_evt : evt.NewEvt :=
  { request_id := 7
    requestor := "0x1"
    contract_uri := "https://contract"
    evt_name := "LogAuditAssigned"
    assigned_block_nbr := 100
    status_info := "Audit Assigned"
    fk_type := .AU
    price := 10 }

/-- An insertion that ends as given, and a query for the number of rows. -/
def insert_and_count (answer : Answer (List evt.Row)) : List (Job (List evt.Row) Nat) :=
  [{ token := "insert", query := .script (write_script (.add_evt_to_be_assigned inserted_evt) answer) },
    { token := "count", query := .select List.length false }]

/-- A violated constraint leaves the transaction to be rolled back. -/
theorem undisturbed_constraint : Undisturbed idle_worker (insert_and_count (.error (some []))) := by
  apply (undisturbed_iff rfl rfl).mpr
  intro job hjob
  simp only [insert_and_count, List.mem_cons, List.not_mem_nil, or_false] at hjob
  rcases hjob with rfl | rfl
  · rintro (hbegin | hleft)
    · cases hbegin
    · cases hleft
  · exact not_false

/-- When the disk is full, the database rolls the transaction back by itself, and
    the worker does not reach the next query. -/
theorem disturbed_disk_full :
    (run idle_worker (insert_and_count (.error none))).results.map Prod.fst = ["insert"] ∧
      ¬ Undisturbed idle_worker (insert_and_count (.error none)) := by
  refine ⟨rfl, ?_⟩
  intro hundisturbed
  exact absurd hundisturbed.alive (by decide)

end qsp.sql3liteworker
