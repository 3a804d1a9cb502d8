import QspNode.Utils.Db.Clients

open lib.transaction lib.transition

namespace qsp.sql3liteworker

/-- Tokens are drawn for one call of `execute` each, and stand for at most one
    query and one result. -/
structure Tokens {d r : Type} (s : Service d r) : Prop where
  drawn : ∀ i token, (s.calls i).token = some token → token ∈ s.tokens
  distinct : ∀ i j token, (s.calls i).token = some token → (s.calls j).token = some token → i = j
  known : ∀ job ∈ s.queued, job.token ∈ s.tokens
  nodup : (s.queued.map Job.token).Nodup
  queueing : ∀ i job, s.calls i = .queueing job → job.token ∉ s.queued.map Job.token
  waiting : ∀ i token, s.calls i = .waiting token →
    ∃ job ∈ s.queued, job.token = token ∧ job.query.is_select = true
  unanswered : ∀ i token, s.calls i = .waiting token → token ∉ s.answered.map (fun a => a.2.1)
  answered : ∀ a ∈ s.answered, ∃ job ∈ s.queued, job.token = a.2.1 ∧ job.query.is_select = true
  once : (s.answered.map (fun a => a.2.1)).Nodup

def Worker.holding {d r : Type} (worker : Worker d r) (results : List (String × Reply r)) : Worker d r :=
  { worker with results }

/-- `results` without the entries of some tokens. -/
def Worker.without {d r : Type} (worker : Worker d r) (tokens : List String) : Worker d r :=
  worker.holding (worker.results.filter (fun entry => entry.1 ∉ tokens))

/-- The worker has run a first part of the queries in the order in which they
    were queued, and `results` has all their results but the returned ones. -/
structure Serves {d r : Type} (initial : Worker d r) (s : Service d r) (done : List (Job d r)) : Prop where
  queued : s.queued = done ++ s.pending
  worker : s.worker = (run initial done).without (s.answered.map (fun a => a.2.1))
  replied : ∀ a ∈ s.answered, a.2 ∈ (run initial done).results

/-- A database that runs every query at the moment at which it is queued. -/
structure Atomic (d r : Type) where
  worker : Worker d r
  returned : Bool
  exit_set : Bool
  tokens : List String
  calls : Nat → Call d r
  answered : List (Nat × String × Reply r)

def Atomic.step {d r : Type} (a : Atomic d r) : Label d r → Option (Atomic d r)
  | .execute i job =>
    match a.calls i with
    | .idle =>
      if a.exit_set then some a
      else if job.token ∈ a.tokens then none
      else some
        { a with
          tokens := job.token :: a.tokens
          calls := Function.update a.calls i (.queueing job) }
    | _ => none
  | .put i =>
    match a.calls i with
    | .queueing job => some
      { a with
        worker := if a.returned then a.worker else run a.worker [job]
        calls := Function.update a.calls i
          (if job.query.is_select then .waiting job.token else .idle) }
    | .closing => some { a with calls := Function.update a.calls i .joining }
    | _ => none
  | .full i =>
    match a.calls i with
    | .queueing _ | .closing => some { a with calls := Function.update a.calls i .idle }
    | _ => none
  | .poll i =>
    match a.calls i with
    | .waiting token =>
      (a.worker.reply token).map (fun reply =>
        { a with
          worker := a.worker.forget token
          calls := Function.update a.calls i .idle
          answered := a.answered ++ [(i, token, reply)] })
    | _ => none
  | .close i =>
    match a.calls i with
    | .idle => some
      { a with
        exit_set := true
        calls := Function.update a.calls i .closing }
    | _ => none
  | .joined i =>
    match a.calls i, a.returned with
    | .joining, true => some { a with calls := Function.update a.calls i .idle }
    | _, _ => none
  | .exit => if a.exit_set && !a.returned then some { a with returned := true } else none
  | .work | .sleep _ => none

/-- The steps of the worker inside its loop, and of a thread that sleeps, do not
    show in the atomic database. -/
def Label.visible {d r : Type} : Label d r → Bool
  | .work | .sleep _ => false
  | .execute _ _ | .put _ | .full _ | .poll _ | .close _ | .joined _ | .exit => true

def Loop.is_returned {d r : Type} : Loop d r → Bool
  | .returned => true
  | .getting | .running _ | .testing | .exiting => false

/-- The worker as it will be when it has run all that is queued. A worker that has
    returned runs nothing any more. -/
def Service.atomic {d r : Type} (s : Service d r) : Atomic d r :=
  { worker := if s.loop.is_returned then s.worker else run s.worker s.pending
    returned := s.loop.is_returned
    exit_set := s.exit_set
    tokens := s.tokens
    calls := s.calls
    answered := s.answered }

section
variable {d r : Type} {worker : Worker d r} {job : Job d r} {jobs : List (Job d r)} {token : String}
  {tokens : List String} {reply : Reply r}

@[simp]
theorem holding_alive (results : List (String × Reply r)) :
    (worker.holding results).alive = worker.alive := rfl

theorem run_query_holding (worker : Worker d r) (job : Job d r) :
    ∃ replies, (∀ entry ∈ replies, entry.1 = job.token) ∧
      ∀ results, run_query (worker.holding results) job =
        (run_query worker job).holding (results ++ replies) := by
  unfold run_query Worker.holding
  cases job.query with
  | select read fails =>
    exact ⟨[(job.token, if fails then .error else .rows (read worker.connection.view))], by simp,
      fun results => rfl⟩
  | script sql =>
    dsimp only
    cases worker.connection.run sql with
    | ok connection => exact ⟨[], by simp, fun results => by simp⟩
    | error connection =>
      refine ⟨[(job.token, .error)], by simp, fun results => ?_⟩
      dsimp only
      cases connection.rollback <;> rfl

/-- Whatever `results` holds, queries extend it by entries of their own tokens, and
    do not read it. -/
theorem run_holding (worker : Worker d r) (jobs : List (Job d r)) :
    ∃ replies, (∀ entry ∈ replies, entry.1 ∈ jobs.map Job.token) ∧
      ∀ results, run (worker.holding results) jobs = (run worker jobs).holding (results ++ replies) := by
  induction jobs generalizing worker with
  | nil => exact ⟨[], by simp, fun results => by simp [run]⟩
  | cons job jobs ih =>
    cases halive : worker.alive with
    | false => exact ⟨[], by simp, fun results => by simp [run, halive]⟩
    | true =>
      obtain ⟨replies, htokens, hreplies⟩ := run_query_holding worker job
      obtain ⟨later, hlater, hrest⟩ := ih (run_query worker job)
      refine ⟨replies ++ later, ?_, ?_⟩
      · intro entry hentry
        rcases List.mem_append.mp hentry with hentry | hentry
        · simp [htokens entry hentry]
        · exact List.mem_cons_of_mem _ (hlater entry hentry)
      · intro results
        simp only [run, holding_alive, halive, if_true]
        rw [hreplies, hrest, List.append_assoc]

theorem run_results (worker : Worker d r) (jobs : List (Job d r)) :
    ∃ replies, (∀ entry ∈ replies, entry.1 ∈ jobs.map Job.token) ∧
      (run worker jobs).results = worker.results ++ replies := by
  obtain ⟨replies, htokens, hrun⟩ := run_holding worker jobs
  exact ⟨replies, htokens, congrArg Worker.results (hrun worker.results)⟩

theorem run_without (hnot : ∀ token ∈ tokens, token ∉ jobs.map Job.token) :
    run (worker.without tokens) jobs = (run worker jobs).without tokens := by
  obtain ⟨replies, htokens, hrun⟩ := run_holding worker jobs
  have hresults : (run worker jobs).results = worker.results ++ replies :=
    congrArg Worker.results (hrun worker.results)
  have hkept : replies.filter (fun entry => entry.1 ∉ tokens) = replies := by
    apply List.filter_eq_self.mpr
    intro entry hentry
    simpa using fun hmem => hnot entry.1 hmem (htokens entry hentry)
  rw [Worker.without, hrun, Worker.without, hresults, List.filter_append, hkept]

theorem forget_eq_without : worker.forget token = worker.without [token] := by
  simp [Worker.forget, Worker.without, Worker.holding]

theorem without_without (tokens' : List String) :
    (worker.without tokens).without tokens' = worker.without (tokens ++ tokens') := by
  simp only [Worker.without, Worker.holding, List.filter_filter, List.mem_append, not_or]
  congr 1
  apply List.filter_congr
  intro entry _
  simp [Bool.and_comm]

@[simp]
theorem without_alive : (worker.without tokens).alive = worker.alive := rfl

/-- A result stays as it is until it is taken. -/
theorem run_reply (hreply : worker.reply token = some reply) :
    (run worker jobs).reply token = some reply := by
  obtain ⟨replies, _, hresults⟩ := run_results worker jobs
  obtain ⟨entry, hfind, rfl⟩ := Option.map_eq_some_iff.mp hreply
  rw [Worker.reply, hresults, List.find?_append, hfind]
  rfl

theorem mem_of_reply (hreply : worker.reply token = some reply) : (token, reply) ∈ worker.results := by
  obtain ⟨entry, hfind, rfl⟩ := Option.map_eq_some_iff.mp hreply
  have htoken := List.find?_some hfind
  obtain rfl : entry.1 = token := by simpa using htoken
  exact List.mem_of_find?_eq_some hfind

/-- The results are those of queries that have been run. -/
theorem token_mem_of_mem_results (hempty : worker.results = [])
    (hmem : (token, reply) ∈ (run worker jobs).results) : token ∈ jobs.map Job.token := by
  obtain ⟨replies, htokens, hresults⟩ := run_results worker jobs
  rw [hresults, hempty, List.nil_append] at hmem
  exact htokens _ hmem

theorem mem_of_without_reply (hreply : (worker.without tokens).reply token = some reply) :
    (token, reply) ∈ worker.results :=
  (List.mem_filter.mp (mem_of_reply hreply)).1

end

section
variable {d r : Type} {max_queue_size : Nat} {s t : Service d r} {label : Label d r}

theorem tokens_started (worker : Worker d r) : Tokens (started worker) := by
  constructor <;> simp [started, Call.token]

theorem Tokens.step (htokens : Tokens s) (hstep : Steps max_queue_size s label t) : Tokens t := by
  obtain ⟨hdrawn, hdistinct, hknown, hnodup, hqueueing, hwaiting, hunanswered, hanswered, honce⟩ := htokens
  cases hstep with
  | refused | slept | got | ran | skipped | tested | resumed | returned =>
    exact ⟨hdrawn, hdistinct, hknown, hnodup, hqueueing, hwaiting, hunanswered, hanswered, honce⟩
  | called hcall hopen hfresh =>
    constructor <;> grind [Function.update_apply, Call.token]
  | queued hcall hroom =>
    constructor <;> grind [Function.update_apply, Call.token]
  | exit_queued | raised | closed | joined =>
    constructor <;> grind [Function.update_apply, Call.token]
  | polled hcall hreply =>
    constructor <;> grind [Function.update_apply, Call.token]

theorem serves_started {worker : Worker d r} (hempty : worker.results = []) :
    Serves worker (started worker) [] where
  queued := rfl
  worker := by
    simp only [started, run, Worker.without, hempty, List.filter_nil]
    rw [← hempty]
    rfl
  replied := by simp [started]

theorem Serves.not_pending {initial : Worker d r} {done : List (Job d r)}
    (hempty : initial.results = []) (htokens : Tokens s) (hserves : Serves initial s done) :
    ∀ token ∈ s.answered.map (fun a => a.2.1), token ∉ s.pending.map Job.token := by
  intro token hmem
  obtain ⟨a, ha, rfl⟩ := List.mem_map.mp hmem
  have hnodup := htokens.nodup
  rw [hserves.queued, List.map_append] at hnodup
  exact (List.nodup_append'.mp hnodup).2.2 (token_mem_of_mem_results hempty (hserves.replied a ha))

theorem pending_got {entry : Entry d r} {queue : List (Entry d r)} (hloop : s.loop = .getting)
    (hqueue : s.sql_queue = entry :: queue) :
    s.pending = { s with loop := .running entry, sql_queue := queue }.pending := by
  cases entry <;> simp [Service.pending, hloop, hqueue, Loop.job, Entry.job, List.filterMap_cons]

theorem pending_ran {job : Job d r} (hloop : s.loop = .running (.query job)) :
    s.pending = job :: s.sql_queue.filterMap Entry.job := by
  simp [Service.pending, hloop, Loop.job, Entry.job]

theorem pending_of_job_eq_none (hloop : s.loop.job = none) :
    s.pending = s.sql_queue.filterMap Entry.job := by
  simp [Service.pending, hloop]

theorem Serves.step {initial : Worker d r} {done : List (Job d r)} (hempty : initial.results = [])
    (htokens : Tokens s) (hserves : Serves initial s done) (hstep : Steps max_queue_size s label t) :
    ∃ done', Serves initial t done' := by
  have hnot := hserves.not_pending hempty htokens
  obtain ⟨hqueued, hworker, hreplied⟩ := hserves
  cases hstep with
  | refused | slept | called | raised | closed | joined => exact ⟨done, hqueued, hworker, hreplied⟩
  | queued hcall hroom =>
    refine ⟨done, ?_, hworker, hreplied⟩
    simp [hqueued, Service.pending, Entry.job]
  | exit_queued hcall hroom =>
    refine ⟨done, ?_, hworker, hreplied⟩
    simp [hqueued, Service.pending, Entry.job]
  | polled hcall hreply =>
    refine ⟨done, hqueued, ?_, ?_⟩
    · rw [forget_eq_without, hworker, without_without, List.map_append]
      rfl
    · intro a ha
      rcases List.mem_append.mp ha with ha | ha
      · exact hreplied a ha
      · obtain rfl := List.mem_singleton.mp ha
        rw [hworker] at hreply
        exact mem_of_without_reply hreply
  | got halive hloop hqueue =>
    refine ⟨done, ?_, hworker, hreplied⟩
    rw [hqueued, pending_got hloop hqueue]
    rfl
  | ran halive hloop =>
    rename_i job
    have hpending := pending_ran hloop
    refine ⟨done ++ [job], ?_, ?_, ?_⟩
    · rw [hqueued, hpending, List.append_assoc]
      rfl
    · have hjob : ∀ token ∈ s.answered.map (fun a => a.2.1), token ∉ [job].map Job.token := by
        intro token hmem htoken
        rw [hpending] at hnot
        exact hnot token hmem (by simpa using Or.inl (List.mem_singleton.mp htoken))
      have hrun : run ((run initial done).without _) [job] = (run (run initial done) [job]).without _ :=
        run_without hjob
      rwa [← hworker, ← run_append, run_singleton, if_pos halive] at hrun
    · intro a ha
      obtain ⟨replies, _, hresults⟩ := run_results (run initial done) [job]
      rw [run_append, hresults]
      exact List.mem_append_left _ (hreplied a ha)
  | skipped _ hloop | resumed _ hloop _ | returned hloop _ =>
    refine ⟨done, ?_, hworker, hreplied⟩
    rw [hqueued, pending_of_job_eq_none (by rw [hloop]; rfl), pending_of_job_eq_none (by rfl)]
  | tested _ hloop =>
    refine ⟨done, ?_, hworker, hreplied⟩
    rw [hqueued, pending_of_job_eq_none (by rw [hloop]; rfl),
      pending_of_job_eq_none (by dsimp only; split <;> rfl)]

/-- The loop reaches its last test only when it is to end, and with no error. -/
structure Ends (s : Service d r) : Prop where
  alive : s.loop ≠ .testing → s.worker.alive = true
  exit_set : s.loop = .exiting ∨ s.loop = .returned → s.exit_set = true

theorem Ends.step (hends : Ends s) (hstep : Steps max_queue_size s label t) : Ends t := by
  obtain ⟨halive, hexit⟩ := hends
  cases hstep with
  | refused | slept | called | queued | exit_queued | raised | joined => exact ⟨halive, hexit⟩
  | closed => exact ⟨halive, fun _ => rfl⟩
  | polled => exact ⟨halive, hexit⟩
  | got hlive hloop | skipped hlive hloop | resumed hlive hloop => exact ⟨fun _ => hlive, by simp⟩
  | ran hlive hloop => exact ⟨by simp, by simp⟩
  | tested hlive hloop => exact ⟨fun _ => hlive, by cases s.exit_set <;> simp⟩
  | returned hloop hqueue => exact ⟨fun _ => halive (by simp [hloop]), fun _ => hexit (Or.inl hloop)⟩

/-- What holds in every state that a service with an idle worker reaches. -/
structure Consistent (initial : Worker d r) (s : Service d r) : Prop where
  tokens : Tokens s
  serves : ∃ done, Serves initial s done
  ends : Ends s

theorem consistent_step {initial : Worker d r} (hempty : initial.results = []) (s : Service d r)
    (label : Label d r) (t : Service d r) (hconsistent : Consistent initial s)
    (hstep : step max_queue_size s label = some t) : Consistent initial t := by
  have hcases := step_cases hstep
  obtain ⟨done, hserves⟩ := hconsistent.serves
  exact ⟨hconsistent.tokens.step hcases, hserves.step hempty hconsistent.tokens hcases,
    hconsistent.ends.step hcases⟩

theorem consistent_started {worker : Worker d r} (hempty : worker.results = [])
    (halive : worker.alive = true) : Consistent worker (started worker) :=
  ⟨tokens_started worker, ⟨[], serves_started hempty⟩, ⟨fun _ => halive, by simp [started]⟩⟩

/-- What a thread polls for is a result of a query that has been run. -/
theorem Consistent.forget_pending {initial : Worker d r} (hempty : initial.results = [])
    (hconsistent : Consistent initial s) {token : String} {reply : Reply r}
    (hreply : s.worker.reply token = some reply) :
    run (s.worker.forget token) s.pending = (run s.worker s.pending).forget token := by
  obtain ⟨done, hserves⟩ := hconsistent.serves
  rw [hserves.worker] at hreply
  have hdone := token_mem_of_mem_results hempty (mem_of_without_reply hreply)
  have hnodup := hconsistent.tokens.nodup
  rw [hserves.queued, List.map_append] at hnodup
  rw [forget_eq_without, forget_eq_without]
  apply run_without
  intro token' hmem
  rw [List.mem_singleton.mp hmem]
  exact (List.nodup_append'.mp hnodup).2.2 hdone

theorem atomic_step {initial : Worker d r} (hempty : initial.results = []) (s : Service d r)
    (label : Label d r) (t : Service d r) (hconsistent : Consistent initial s)
    (hstep : step max_queue_size s label = some t) (hvisible : label.visible = true) :
    s.atomic.step label = some t.atomic := by
  cases step_cases hstep with
  | refused hcall hexit => simp [Atomic.step, Service.atomic, hcall, hexit]
  | called hcall hopen hfresh =>
    simp [Atomic.step, Service.atomic, Service.pending, hcall, hopen, hfresh]
  | queued hcall hroom =>
    cases hreturned : s.loop.is_returned with
    | true => simp [Atomic.step, Service.atomic, hcall, hreturned]
    | false =>
      simp [Atomic.step, Service.atomic, Service.pending, hcall, hreturned, Entry.job, run_append]
  | exit_queued hcall hroom =>
    simp [Atomic.step, Service.atomic, Service.pending, hcall, Entry.job, List.filterMap_cons]
  | raised hcall hfull =>
    rcases hcall with ⟨job, hcall⟩ | hcall
    · simp [Atomic.step, Service.atomic, Service.pending, hcall]
    · simp [Atomic.step, Service.atomic, Service.pending, hcall]
  | polled hcall hreply =>
    cases hreturned : s.loop.is_returned with
    | true => simp [Atomic.step, Service.atomic, hcall, hreply, hreturned]
    | false =>
      have hforget := hconsistent.forget_pending hempty hreply
      simp only [Service.pending] at hforget
      simp [Atomic.step, Service.atomic, Service.pending, hcall, hreturned, run_reply hreply, hforget]
  | closed hcall => simp [Atomic.step, Service.atomic, Service.pending, hcall]
  | joined hcall hloop => simp [Atomic.step, Service.atomic, hcall, hloop, Loop.is_returned]
  | returned hloop hqueue =>
    have hexit := hconsistent.ends.exit_set (Or.inl hloop)
    simp [Atomic.step, Service.atomic, Service.pending, hloop, hqueue, hexit, Loop.is_returned, Loop.job,
      run]
  | slept | got | ran | skipped | tested | resumed => cases hvisible

theorem atomic_stutter (s : Service d r) (label : Label d r) (t : Service d r)
    (hstep : step max_queue_size s label = some t) (hvisible : label.visible = false) :
    t.atomic = s.atomic := by
  cases step_cases hstep with
  | refused | called | queued | exit_queued | raised | polled | closed | joined | returned =>
    cases hvisible
  | slept => rfl
  | got halive hloop hqueue =>
    simp only [Service.atomic, ← pending_got hloop hqueue, hloop, Loop.is_returned]
  | ran halive hloop =>
    simp only [Service.atomic, pending_ran hloop, hloop, Loop.is_returned, run, halive, if_true]
    rfl
  | skipped halive hloop =>
    simp [Service.atomic, Service.pending, hloop, Loop.is_returned, Loop.job, Entry.job]
  | tested halive hloop =>
    cases hset : s.exit_set <;>
      simp [Service.atomic, Service.pending, hloop, hset, Loop.is_returned, Loop.job]
  | resumed halive hloop hqueue =>
    simp [Service.atomic, Service.pending, hloop, Loop.is_returned, Loop.job]

theorem run_consistent {worker : Worker d r} (hempty : worker.results = [])
    (halive : worker.alive = true) {labels : List (Label d r)}
    (hrun : lib.transition.run (step max_queue_size) (started worker) labels = some s) :
    Consistent worker s :=
  lib.transition.run_invariant (consistent_step hempty) (consistent_started hempty halive) hrun

/-- Whatever the interleaving of its threads, `Sqlite3Worker` does what a database
    could do that runs each query at the moment at which it is queued. -/
theorem service_linearizable {worker : Worker d r} (hempty : worker.results = [])
    (halive : worker.alive = true) {labels : List (Label d r)}
    (hrun : lib.transition.run (step max_queue_size) (started worker) labels = some s) :
    lib.transition.run Atomic.step (started worker).atomic (labels.filter Label.visible) =
      some s.atomic :=
  lib.transition.run_simulates (consistent_step hempty) (atomic_step hempty)
    (fun s label t _ => atomic_stutter s label t) (consistent_started hempty halive) hrun

theorem of_mem_run_query_results {worker : Worker d r} (hclosed : worker.connection.working = none)
    {job : Job d r} {token : String} {reply : Reply r}
    (hmem : (token, reply) ∈ (run_query worker job).results) :
    (token, reply) ∈ worker.results ∨ job.token = token ∧
      ∀ read fails, job.query = .select read fails →
        reply = if fails then .error else .rows (read worker.connection.database) := by
  have hserved := run_query_served hclosed job
  unfold run_query at hmem
  cases hquery : job.query with
  | select read fails =>
    simp only [hquery, List.mem_append, List.mem_singleton, Prod.mk.injEq, Connection.view, hclosed,
      Option.getD_none] at hmem
    rcases hmem with hmem | hmem
    · exact Or.inl hmem
    · refine Or.inr ⟨hmem.1.symm, ?_⟩
      rintro read' fails' heq
      obtain ⟨rfl, rfl⟩ := Query.select.inj heq
      exact hmem.2
  | script sql =>
    simp only [hquery] at hmem
    cases hrun : worker.connection.run sql with
    | ok connection =>
      simp only [hrun] at hmem
      exact Or.inl hmem
    | error connection =>
      have htoken : (token, reply) ∈ worker.results ∨ job.token = token := by
        cases hrollback : connection.rollback <;>
          (simp only [hrun, hrollback, List.mem_append, List.mem_singleton, Prod.mk.injEq] at hmem
           exact hmem.imp id (fun hlast => hlast.1.symm))
      exact htoken.imp id (fun htoken => ⟨htoken, fun _ _ hselect => by cases hselect⟩)

/-- A result was made by one of the queries, on what those before it made of the
    database. -/
theorem of_mem_results {worker : Worker d r} (hempty : worker.results = [])
    (hclosed : worker.connection.working = none) {jobs : List (Job d r)} {token : String}
    {reply : Reply r} (hmem : (token, reply) ∈ (run worker jobs).results) :
    ∃ before job after, jobs = before ++ job :: after ∧ job.token = token ∧
      (run worker before).alive = true ∧
      ∀ read fails, job.query = .select read fails →
        reply = if fails then .error else .rows (read (run worker before).connection.database) := by
  induction jobs using List.reverseRecOn with
  | nil => simp [run, hempty] at hmem
  | append_singleton jobs job ih =>
    have hearlier : (token, reply) ∈ (run worker jobs).results →
        ∃ before job' after, jobs ++ [job] = before ++ job' :: after ∧ job'.token = token ∧
          (run worker before).alive = true ∧
          ∀ read fails, job'.query = .select read fails →
            reply = if fails then .error else .rows (read (run worker before).connection.database) := by
      intro hmem
      obtain ⟨before, job', after, heq, hjob⟩ := ih hmem
      exact ⟨before, job', after ++ [job], by simp [heq], hjob⟩
    rw [run_append, run_singleton] at hmem
    split at hmem
    · next halive =>
      rcases of_mem_run_query_results (run_closed hclosed jobs) hmem with hmem | ⟨htoken, hreply⟩
      · exact hearlier hmem
      · exact ⟨jobs, job, [], rfl, htoken, halive, hreply⟩
    · exact hearlier hmem

theorem queued_extends (s : Service d r) (label : Label d r) (t : Service d r)
    (hstep : step max_queue_size s label = some t) : s.queued <+: t.queued := by
  cases step_cases hstep with
  | queued => exact List.prefix_append _ _
  | _ => exact List.prefix_refl _

theorem run_queued_extends {labels : List (Label d r)}
    (hrun : lib.transition.run (step max_queue_size) s labels = some t) : s.queued <+: t.queued :=
  lib.transition.run_invariant (motive := fun u => s.queued <+: u.queued)
    (fun u label v hprefix hstep => hprefix.trans (queued_extends u label v hstep))
    (List.prefix_refl _) hrun

/-- `execute` returns the result of its query on what the queries queued before it
    made of the database, among them all that were queued before it was called,
    and it takes each result once. -/
theorem execute_serial {worker : Worker d r} (hempty : worker.results = [])
    (hclosed : worker.connection.working = none) (halive : worker.alive = true)
    {before after : List (Label d r)}
    (hbefore : lib.transition.run (step max_queue_size) (started worker) before = some s)
    (hafter : lib.transition.run (step max_queue_size) s after = some t) :
    (t.answered.map (fun a => a.2.1)).Nodup ∧
      ∀ a ∈ t.answered, a.2.1 ∉ s.queued.map Job.token →
        ∃ between job later read fails, t.queued = s.queued ++ between ++ job :: later ∧
          job.token = a.2.1 ∧ job.query = .select read fails ∧
          a.2.2 = if fails then .error
            else .rows (read (run worker (s.queued ++ between)).connection.database) := by
  have hconsistent : Consistent worker t :=
    lib.transition.run_invariant (consistent_step hempty) (run_consistent hempty halive hbefore) hafter
  obtain ⟨done, hserves⟩ := hconsistent.serves
  refine ⟨hconsistent.tokens.once, ?_⟩
  rintro ⟨i, token, reply⟩ ha hlater
  obtain ⟨earlier, job, later, hdone, rfl, _, hreply⟩ :=
    of_mem_results hempty hclosed (hserves.replied _ ha)
  have hqueued : t.queued = earlier ++ job :: (later ++ t.pending) := by
    rw [hserves.queued, hdone, List.append_assoc, List.cons_append]
  have hselect : job.query.is_select = true := by
    obtain ⟨job', hmem, htoken, hselect⟩ := hconsistent.tokens.answered _ ha
    have hjob : job ∈ t.queued := by simp [hqueued]
    rwa [← List.inj_on_of_nodup_map hconsistent.tokens.nodup hmem hjob htoken]
  obtain ⟨read, fails, hquery⟩ : ∃ read fails, job.query = .select read fails := by
    cases hquery : job.query with
    | select read fails => exact ⟨read, fails, rfl⟩
    | script sql => simp [hquery, Query.is_select] at hselect
  have hprefix : s.queued <+: earlier := by
    obtain ⟨more, hmore⟩ := run_queued_extends hafter
    rcases List.append_eq_append_iff.mp (hmore.trans hqueued) with
      ⟨between, hbetween, _⟩ | ⟨rest, hrest, hjob⟩
    · exact ⟨between, hbetween.symm⟩
    · cases rest with
      | nil => simp [hrest]
      | cons job' rest =>
        obtain rfl : job = job' := (List.cons.inj hjob).1
        exact absurd (List.mem_map_of_mem (by simp [hrest])) hlater
  obtain ⟨between, rfl⟩ := hprefix
  exact ⟨between, job, later ++ t.pending, read, fails, hqueued, rfl, hquery, hreply read fails hquery⟩

end

def insert_job : Job (List evt.Row) Nat :=
  { token := "insert", query := .script (write_script (.add_evt_to_be_assigned inserted_evt) .ok) }

def count_job : Job (List evt.Row) Nat := { token := "count", query := .select List.length false }

/-- One thread inserts a row and another one counts the rows before the worker has
    run the insertion. -/
def insert_then_count : List (Label (List evt.Row) Nat) :=
  [.execute 0 insert_job, .put 0, .execute 1 count_job, .put 1, .sleep 1]

def count_returned : List (Label (List evt.Row) Nat) :=
  [.work, .work, .work, .work, .work, .poll 1]

def counting : Service (List evt.Row) Nat :=
  (lib.transition.run (step 10000) (started idle_worker) insert_then_count).get (by rfl)

def counted : Service (List evt.Row) Nat :=
  (lib.transition.run (step 10000) (started idle_worker) (insert_then_count ++ count_returned)).get (by rfl)

theorem service_linearizable_counting :
    lib.transition.run Atomic.step (started idle_worker).atomic
      (insert_then_count.filter Label.visible) = some counting.atomic :=
  service_linearizable rfl rfl (Option.some_get _).symm

theorem execute_serial_counted :
    counted.answered = [(1, "count", .rows 1)] ∧
      ∃ between job later read fails, counted.queued = between ++ job :: later ∧ job.token = "count" ∧
        job.query = .select read fails ∧ Reply.rows 1 =
          if fails then .error else .rows (read (run idle_worker between).connection.database) := by
  have hstart : lib.transition.run (step 10000) (started idle_worker) [] = some (started idle_worker) := rfl
  have hrun : lib.transition.run (step 10000) (started idle_worker) (insert_then_count ++ count_returned) =
      some counted := (Option.some_get _).symm
  have hserial := (execute_serial rfl rfl rfl hstart hrun).2
  exact ⟨rfl, hserial (1, "count", .rows 1) List.mem_cons_self List.not_mem_nil⟩

end qsp.sql3liteworker
