import Mathlib.Data.List.Nodup
import Mathlib.Logic.Function.Basic
import QspNode.Lib.Transition
import QspNode.Utils.Db.Sql3liteworker

open lib.transaction

namespace qsp.sql3liteworker

/-- An entry of `sql_queue`: a query, or the exit token. -/
inductive Entry (d r : Type) where
  | query (job : Job d r)
  | exit

def Entry.job {d r : Type} : Entry d r → Option (Job d r)
  | .query job => some job
  | .exit => none

/-- How far the thread loop has come with an entry. -/
inductive Loop (d r : Type) where
  | getting
  | running (entry : Entry d r)
  | testing
  | exiting
  | returned

def Loop.job {d r : Type} : Loop d r → Option (Job d r)
  | .running entry => entry.job
  | .getting | .testing | .exiting | .returned => none

/-- What a thread does with the worker: nothing, `execute` before its `put`,
    `query_results`, or `close` before and after its `put`. -/
inductive Call (d r : Type) where
  | idle
  | queueing (job : Job d r)
  | waiting (token : String)
  | closing
  | joining

def Call.token {d r : Type} : Call d r → Option String
  | .queueing job => some job.token
  | .waiting token => some token
  | .idle | .closing | .joining => none

def Query.is_select {d r : Type} : Query d r → Bool
  | .select _ _ => true
  | .script _ => false

/-- A `Sqlite3Worker` with the threads that use it, the tokens drawn so far, the
    queries queued so far and the results that `execute` has returned. -/
structure Service (d r : Type) where
  worker : Worker d r
  loop : Loop d r
  sql_queue : List (Entry d r)
  exit_set : Bool
  tokens : List String
  calls : Nat → Call d r
  queued : List (Job d r)
  answered : List (Nat × String × Reply r)

inductive Label (d r : Type) where
  | execute (i : Nat) (job : Job d r)
  | put (i : Nat)
  | full (i : Nat)
  | sleep (i : Nat)
  | poll (i : Nat)
  | close (i : Nat)
  | joined (i : Nat)
  | work
  | exit

/-- `Queue.full`. -/
def Service.is_full {d r : Type} (max_queue_size : Nat) (s : Service d r) : Bool :=
  0 < max_queue_size && max_queue_size ≤ s.sql_queue.length

/-- The queries that the worker has not run yet, in their order. -/
def Service.pending {d r : Type} (s : Service d r) : List (Job d r) :=
  s.loop.job.toList ++ s.sql_queue.filterMap Entry.job

/-- The next step of the thread loop, other than its return. -/
def Service.work {d r : Type} (s : Service d r) : Option (Service d r) :=
  if s.worker.alive then
    match s.loop, s.sql_queue with
    | .getting, [] => none
    | .getting, entry :: queue => some { s with loop := .running entry, sql_queue := queue }
    | .running (.query job), _ => some { s with worker := run_query s.worker job, loop := .testing }
    | .running .exit, _ => some { s with loop := .testing }
    | .testing, _ => some { s with loop := if s.exit_set then .exiting else .getting }
    | .exiting, [] => none
    | .exiting, _ :: _ => some { s with loop := .getting }
    | .returned, _ => none
  else none

/-- `del self.results[token]`. -/
def Worker.forget {d r : Type} (worker : Worker d r) (token : String) : Worker d r :=
  { worker with results := worker.results.filter (fun entry => entry.1 ≠ token) }

/-- `self.results[token]`. -/
def Worker.reply {d r : Type} (worker : Worker d r) (token : String) : Option (Reply r) :=
  (worker.results.find? (fun entry => entry.1 = token)).map Prod.snd

/-- One step of a thread or of the worker, `none` when it is not enabled. A token
    is one that `uuid4` has not drawn before, and a `put` into a full queue
    raises `queue.Full` in the end. -/
def step {d r : Type} (max_queue_size : Nat) (s : Service d r) : Label d r → Option (Service d r)
  | .execute i job =>
    match s.calls i with
    | .idle =>
      if s.exit_set then some s
      else if job.token ∈ s.tokens then none
      else some
        { s with
          tokens := job.token :: s.tokens
          calls := Function.update s.calls i (.queueing job) }
    | _ => none
  | .put i =>
    if s.is_full max_queue_size then none
    else
      match s.calls i with
      | .queueing job => some
        { s with
          sql_queue := s.sql_queue ++ [.query job]
          queued := s.queued ++ [job]
          calls := Function.update s.calls i
            (if job.query.is_select then .waiting job.token else .idle) }
      | .closing => some
        { s with
          sql_queue := s.sql_queue ++ [.exit]
          calls := Function.update s.calls i .joining }
      | _ => none
  | .full i =>
    if s.is_full max_queue_size then
      match s.calls i with
      | .queueing _ | .closing => some { s with calls := Function.update s.calls i .idle }
      | _ => none
    else none
  | .sleep i =>
    match s.calls i with
    | .waiting token => if (s.worker.reply token).isNone then some s else none
    | _ => none
  | .poll i =>
    match s.calls i with
    | .waiting token =>
      (s.worker.reply token).map (fun reply =>
        { s with
          worker := s.worker.forget token
          calls := Function.update s.calls i .idle
          answered := s.answered ++ [(i, token, reply)] })
    | _ => none
  | .close i =>
    match s.calls i with
    | .idle => some
      { s with
        exit_set := true
        calls := Function.update s.calls i .closing }
    | _ => none
  | .joined i =>
    match s.calls i, s.loop with
    | .joining, .returned => some { s with calls := Function.update s.calls i .idle }
    | _, _ => none
  | .work => s.work
  | .exit =>
    match s.loop, s.sql_queue with
    | .exiting, [] => some { s with loop := .returned }
    | _, _ => none

/-- A worker that has just been started. -/
def started {d r : Type} (worker : Worker d r) : Service d r :=
  { worker
    loop := .getting
    sql_queue := []
    exit_set := false
    tokens := []
    calls := fun _ => .idle
    queued := []
    answered := [] }

/-- What the steps do, case by case. -/
inductive Steps {d r : Type} (max_queue_size : Nat) (s : Service d r) :
    Label d r → Service d r → Prop where
  | refused {i : Nat} {job : Job d r} (hcall : s.calls i = .idle) (hexit : s.exit_set = true) :
    Steps max_queue_size s (.execute i job) s
  | called {i : Nat} {job : Job d r} (hcall : s.calls i = .idle) (hopen : s.exit_set = false)
      (hfresh : job.token ∉ s.tokens) :
    Steps max_queue_size s (.execute i job)
      { s with
        tokens := job.token :: s.tokens
        calls := Function.update s.calls i (.queueing job) }
  | queued {i : Nat} {job : Job d r} (hcall : s.calls i = .queueing job)
      (hroom : s.is_full max_queue_size = false) :
    Steps max_queue_size s (.put i)
      { s with
        sql_queue := s.sql_queue ++ [.query job]
        queued := s.queued ++ [job]
        calls := Function.update s.calls i
          (if job.query.is_select then .waiting job.token else .idle) }
  | exit_queued {i : Nat} (hcall : s.calls i = .closing) (hroom : s.is_full max_queue_size = false) :
    Steps max_queue_size s (.put i)
      { s with
        sql_queue := s.sql_queue ++ [.exit]
        calls := Function.update s.calls i .joining }
  | raised {i : Nat} (hcall : (∃ job, s.calls i = .queueing job) ∨ s.calls i = .closing)
      (hfull : s.is_full max_queue_size = true) :
    Steps max_queue_size s (.full i) { s with calls := Function.update s.calls i .idle }
  | slept {i : Nat} {token : String} (hcall : s.calls i = .waiting token)
      (hnone : s.worker.reply token = none) :
    Steps max_queue_size s (.sleep i) s
  | polled {i : Nat} {token : String} {reply : Reply r} (hcall : s.calls i = .waiting token)
      (hreply : s.worker.reply token = some reply) :
    Steps max_queue_size s (.poll i)
      { s with
        worker := s.worker.forget token
        calls := Function.update s.calls i .idle
        answered := s.answered ++ [(i, token, reply)] }
  | closed {i : Nat} (hcall : s.calls i = .idle) :
    Steps max_queue_size s (.close i)
      { s with
        exit_set := true
        calls := Function.update s.calls i .closing }
  | joined {i : Nat} (hcall : s.calls i = .joining) (hloop : s.loop = .returned) :
    Steps max_queue_size s (.joined i) { s with calls := Function.update s.calls i .idle }
  | got {entry : Entry d r} {queue : List (Entry d r)} (halive : s.worker.alive = true)
      (hloop : s.loop = .getting) (hqueue : s.sql_queue = entry :: queue) :
    Steps max_queue_size s .work { s with loop := .running entry, sql_queue := queue }
  | ran {job : Job d r} (halive : s.worker.alive = true) (hloop : s.loop = .running (.query job)) :
    Steps max_queue_size s .work { s with worker := run_query s.worker job, loop := .testing }
  | skipped (halive : s.worker.alive = true) (hloop : s.loop = .running .exit) :
    Steps max_queue_size s .work { s with loop := .testing }
  | tested (halive : s.worker.alive = true) (hloop : s.loop = .testing) :
    Steps max_queue_size s .work { s with loop := if s.exit_set then .exiting else .getting }
  | resumed (halive : s.worker.alive = true) (hloop : s.loop = .exiting) (hqueue : s.sql_queue ≠ []) :
    Steps max_queue_size s .work { s with loop := .getting }
  | returned (hloop : s.loop = .exiting) (hqueue : s.sql_queue = []) :
    Steps max_queue_size s .exit { s with loop := .returned }

section
variable {d r : Type} {max_queue_size : Nat} {s t : Service d r} {label : Label d r}

theorem work_cases (hwork : s.work = some t) : Steps max_queue_size s .work t := by
  unfold Service.work at hwork
  split at hwork
  · next halive =>
    split at hwork
    · cases hwork
    · next entry queue hloop hqueue =>
      obtain rfl := Option.some.inj hwork
      exact .got halive hloop hqueue
    · next job _ hloop =>
      obtain rfl := Option.some.inj hwork
      exact .ran halive hloop
    · next hloop =>
      obtain rfl := Option.some.inj hwork
      exact .skipped halive hloop
    · next hloop =>
      obtain rfl := Option.some.inj hwork
      exact .tested halive hloop
    · cases hwork
    · next hloop hqueue =>
      obtain rfl := Option.some.inj hwork
      exact .resumed halive hloop (by simp [hqueue])
    · cases hwork
  · cases hwork

theorem step_cases (hstep : step max_queue_size s label = some t) : Steps max_queue_size s label t := by
  cases label with
  | execute i job =>
    simp only [step] at hstep
    split at hstep
    · next hcall =>
      split_ifs at hstep with hexit hfresh
      · obtain rfl := Option.some.inj hstep
        exact .refused hcall hexit
      · obtain rfl := Option.some.inj hstep
        exact .called hcall (Bool.eq_false_iff.mpr hexit) hfresh
    · cases hstep
  | put i =>
    simp only [step] at hstep
    split_ifs at hstep with hfull
    have hroom : s.is_full max_queue_size = false := Bool.eq_false_iff.mpr hfull
    split at hstep
    · next job hcall =>
      obtain rfl := Option.some.inj hstep
      exact .queued hcall hroom
    · next hcall =>
      obtain rfl := Option.some.inj hstep
      exact .exit_queued hcall hroom
    · cases hstep
  | full i =>
    simp only [step] at hstep
    split_ifs at hstep with hfull
    split at hstep
    · next job hcall =>
      obtain rfl := Option.some.inj hstep
      exact .raised (Or.inl ⟨job, hcall⟩) hfull
    · next hcall =>
      obtain rfl := Option.some.inj hstep
      exact .raised (Or.inr hcall) hfull
    · cases hstep
  | sleep i =>
    simp only [step] at hstep
    split at hstep
    · next token hcall =>
      split_ifs at hstep with hnone
      obtain rfl := Option.some.inj hstep
      exact .slept hcall (Option.isNone_iff_eq_none.mp hnone)
    · cases hstep
  | poll i =>
    simp only [step] at hstep
    split at hstep
    · next token hcall =>
      obtain ⟨reply, hreply, rfl⟩ := Option.map_eq_some_iff.mp hstep
      exact .polled hcall hreply
    · cases hstep
  | close i =>
    simp only [step] at hstep
    split at hstep
    · next hcall =>
      obtain rfl := Option.some.inj hstep
      exact .closed hcall
    · cases hstep
  | joined i =>
    simp only [step] at hstep
    split at hstep
    · next hcall hloop =>
      obtain rfl := Option.some.inj hstep
      exact .joined hcall hloop
    · cases hstep
  | work => exact work_cases hstep
  | exit =>
    simp only [step] at hstep
    split at hstep
    · next hloop hqueue =>
      obtain rfl := Option.some.inj hstep
      exact .returned hloop hqueue
    · cases hstep

end

end qsp.sql3liteworker
