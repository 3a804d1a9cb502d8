import QspNode.Lib.Table
import QspNode.Utils.Db.Linearization

open lib.transaction

namespace qsp.sql3liteworker

def Label.is_work {d r : Type} : Label d r → Bool
  | .work => true
  | .execute _ _ | .put _ | .full _ | .sleep _ | .poll _ | .close _ | .joined _ | .exit => false

/-- The steps of the worker before its next `get`. -/
def Loop.rest {d r : Type} : Loop d r → Nat
  | .running _ => 3
  | .testing => 2
  | .exiting => 1
  | .getting | .returned => 0

def Entry.token {d r : Type} (entry : Entry d r) : Option String := entry.job.map Job.token

/-- The steps that the worker takes at most before it has run the query of a token. -/
def Service.rank {d r : Type} (token : String) (s : Service d r) : Nat :=
  if s.loop.job.map Job.token = some token then 1
  else if some token ∈ s.sql_queue.map Entry.token then
    s.loop.rest + 4 * s.sql_queue.findIdx (fun entry => entry.token = some token) + 2
  else 0

section
variable {d r : Type} {max_queue_size : Nat} {s t : Service d r} {label : Label d r} {token : String}

theorem token_mem_pending_iff :
    token ∈ s.pending.map Job.token ↔
      s.loop.job.map Job.token = some token ∨ some token ∈ s.sql_queue.map Entry.token := by
  simp only [Service.pending, List.map_append, List.mem_append, List.map_filterMap, List.mem_filterMap,
    List.mem_map, Option.mem_toList, Entry.token, Option.map_eq_some_iff]

theorem rank_eq_zero_iff : s.rank token = 0 ↔ token ∉ s.pending.map Job.token := by
  rw [token_mem_pending_iff]
  unfold Service.rank
  split_ifs with hloop hqueue
  · simp [hloop]
  · simp [hqueue]
  · simp [hloop, hqueue]

theorem rank_le : s.rank token ≤ 4 * s.sql_queue.length + 1 := by
  unfold Service.rank
  split_ifs with hloop hqueue
  · omega
  · obtain ⟨entry, hmem, htoken⟩ := List.mem_map.mp hqueue
    have hindex : s.sql_queue.findIdx (fun entry => entry.token = some token) < s.sql_queue.length :=
      List.findIdx_lt_length_of_exists ⟨entry, hmem, by simp [htoken]⟩
    have hrest : s.loop.rest ≤ 3 := by cases s.loop <;> simp [Loop.rest]
    omega
  · omega

theorem rank_enqueue {entry : Entry d r} (hloop : t.loop = s.loop)
    (hqueue : t.sql_queue = s.sql_queue ++ [entry]) (hother : entry.token ≠ some token) :
    t.rank token = s.rank token := by
  unfold Service.rank
  rw [hloop, hqueue]
  by_cases hmem : some token ∈ s.sql_queue.map Entry.token
  · have hindex : s.sql_queue.findIdx (fun entry => entry.token = some token) < s.sql_queue.length := by
      obtain ⟨entry, hentry, htoken⟩ := List.mem_map.mp hmem
      exact List.findIdx_lt_length_of_exists ⟨entry, hentry, by simp [htoken]⟩
    simp [List.findIdx_append, hindex, hmem]
  · simp [hmem, Ne.symm hother]

theorem rank_step {initial : Worker d r} (hconsistent : Consistent initial s)
    (hqueued : token ∈ s.queued.map Job.token) (hstep : Steps max_queue_size s label t) :
    t.rank token ≤ s.rank token - if label.is_work then 1 else 0 := by
  cases hstep with
  | refused | slept | called | raised | polled | closed | joined => exact Nat.le_refl _
  | queued hcall hroom =>
    rename_i i job
    have hother : (Entry.query job).token ≠ some token := by
      rintro heq
      obtain rfl : job.token = token := by simpa [Entry.token, Entry.job] using heq
      exact hconsistent.tokens.queueing i job hcall hqueued
    apply Nat.le_of_eq
    exact @rank_enqueue _ _ s _ _ _ rfl rfl hother
  | exit_queued hcall hroom =>
    apply Nat.le_of_eq
    exact @rank_enqueue _ _ s _ _ _ rfl rfl (by simp [Entry.token, Entry.job])
  | got halive hloop hqueue =>
    simp only [Service.rank, hloop, hqueue, Label.is_work, Loop.job, Loop.rest, List.findIdx_cons,
      List.map_cons, List.mem_cons]
    grind [Entry.token]
  | ran halive hloop =>
    rename_i job
    by_cases htoken : job.token = token
    · have hgone : token ∉ (s.sql_queue.filterMap Entry.job).map Job.token := by
        obtain ⟨done, hserves⟩ := hconsistent.serves
        have hnodup := hconsistent.tokens.nodup
        rw [hserves.queued, List.map_append, pending_ran hloop, List.map_cons, htoken] at hnodup
        exact (List.nodup_cons.mp (List.nodup_append'.mp hnodup).2.1).1
      rw [rank_eq_zero_iff.mpr]
      · exact Nat.zero_le _
      · rwa [pending_of_job_eq_none (by rfl)]
    · simp only [Service.rank, hloop, Label.is_work, Loop.job, Loop.rest, Entry.job]
      grind
  | skipped halive hloop =>
    simp only [Service.rank, hloop, Label.is_work, Loop.job, Loop.rest, Entry.job]
    grind
  | tested halive hloop =>
    simp only [Service.rank, hloop, Label.is_work, Loop.job]
    cases s.exit_set with
    | true => grind [Loop.job, Loop.rest]
    | false => grind [Loop.job, Loop.rest]
  | resumed halive hloop hqueue =>
    simp only [Service.rank, hloop, Label.is_work, Loop.job, Loop.rest]
    grind
  | returned hloop hqueue =>
    simp [Service.rank, hloop, hqueue, Label.is_work, Loop.job]

theorem Serves.alive_iff {initial : Worker d r} {done : List (Job d r)}
    (hclosed : initial.connection.working = none) (halive : initial.alive = true)
    (hserves : Serves initial s done) :
    s.worker.alive = true ↔ ∀ job ∈ done, ¬ job.query.Lost := by
  rw [hserves.worker, without_alive, run_alive_iff hclosed halive]

/-- A result that has been made is there until it is returned. -/
theorem Serves.reply_isSome {initial : Worker d r} {done : List (Job d r)}
    (hserves : Serves initial s done) {reply : Reply r}
    (hmem : (token, reply) ∈ (run initial done).results)
    (hunanswered : token ∉ s.answered.map (fun a => a.2.1)) : (s.worker.reply token).isSome = true := by
  rw [Worker.reply, Option.isSome_map, List.find?_isSome, hserves.worker]
  refine ⟨(token, reply), ?_, by simp⟩
  exact List.mem_filter.mpr ⟨hmem, by simpa using hunanswered⟩

/-- The query of a thread that waits, with those queued before it. -/
theorem Consistent.waiting_split {initial : Worker d r} (hconsistent : Consistent initial s) {i : Nat}
    (hcall : s.calls i = .waiting token) :
    ∃ before job after read fails, s.queued = before ++ job :: after ∧ job.token = token ∧
      job.query = .select read fails := by
  obtain ⟨job, hmem, htoken, hselect⟩ := hconsistent.tokens.waiting i token hcall
  obtain ⟨before, after, hsplit⟩ := List.append_of_mem hmem
  cases hquery : job.query with
  | select read fails => exact ⟨before, job, after, read, fails, hsplit, htoken, hquery⟩
  | script sql => simp [hquery, Query.is_select] at hselect

/-- The thread of a query that the worker has run finds the result. -/
theorem Consistent.reply_of_not_pending {initial : Worker d r}
    (hclosed : initial.connection.working = none) (halive : initial.alive = true)
    (hconsistent : Consistent initial s) {i : Nat} (hcall : s.calls i = .waiting token)
    (hkept : ∀ before job after, s.queued = before ++ job :: after → job.token = token →
      ∀ job ∈ before, ¬ job.query.Lost)
    (hdone : token ∉ s.pending.map Job.token) : (s.worker.reply token).isSome = true := by
  obtain ⟨done, hserves⟩ := hconsistent.serves
  obtain ⟨before, job, after, read, fails, hsplit, htoken, hquery⟩ := hconsistent.waiting_split hcall
  have hmem : job ∈ done := by
    have hqueued : job ∈ s.queued := by simp [hsplit]
    rw [hserves.queued] at hqueued
    rcases List.mem_append.mp hqueued with hmem | hmem
    · exact hmem
    · exact absurd (htoken ▸ List.mem_map_of_mem hmem) hdone
  obtain ⟨before', after', rfl⟩ := List.append_of_mem hmem
  have hsplit' : s.queued = before' ++ job :: (after' ++ s.pending) := by
    rw [hserves.queued, List.append_assoc, List.cons_append]
  have hreplied : (job.token, _) ∈ (run initial (before' ++ job :: after')).results :=
    run_replied hclosed halive (hkept _ _ _ hsplit' htoken) hquery
  rw [htoken] at hreplied
  exact hserves.reply_isSome hreplied (hconsistent.tokens.unanswered i token hcall)

/-- Nothing before a query that a living worker has run has ended the worker. -/
theorem Consistent.kept_of_not_pending {initial : Worker d r}
    (hclosed : initial.connection.working = none) (halive : initial.alive = true)
    (hconsistent : Consistent initial s) (hlive : s.worker.alive = true)
    (hdone : token ∉ s.pending.map Job.token) :
    ∀ before job after, s.queued = before ++ job :: after → job.token = token →
      ∀ job ∈ before, ¬ job.query.Lost := by
  obtain ⟨done, hserves⟩ := hconsistent.serves
  intro before job after hsplit htoken lost hlost
  apply (hserves.alive_iff hclosed halive).mp hlive
  have hmem : job ∈ done ++ s.pending := by simp [← hserves.queued, hsplit]
  rcases List.mem_append.mp hmem with hmem | hmem
  · obtain ⟨before', after', rfl⟩ := List.append_of_mem hmem
    have hsplit' := hserves.queued
    have hnodup := hconsistent.tokens.nodup
    rw [hsplit] at hsplit' hnodup
    rw [List.append_assoc, List.cons_append] at hsplit'
    obtain rfl := lib.table.split_unique hnodup hsplit' rfl
    exact List.mem_append_left _ hlost
  · exact absurd (htoken ▸ List.mem_map_of_mem hmem) hdone

theorem Consistent.waiting_queued {initial : Worker d r} (hconsistent : Consistent initial s) {i : Nat}
    (hcall : s.calls i = .waiting token) : token ∈ s.queued.map Job.token := by
  obtain ⟨job, hmem, rfl, _⟩ := hconsistent.tokens.waiting i token hcall
  exact List.mem_map_of_mem hmem

/-- A thread whose query is in the queue finds its result after a number of steps
    of the worker that only depends on the length of the queue, whatever the other
    threads do in between. -/
theorem execute_bounded {worker : Worker d r} (hempty : worker.results = [])
    (hclosed : worker.connection.working = none) (halive : worker.alive = true)
    {before after : List (Label d r)} {i : Nat}
    (hbefore : lib.transition.run (step max_queue_size) (started worker) before = some s)
    (hafter : lib.transition.run (step max_queue_size) s after = some t)
    (hcall : s.calls i = .waiting token) (hwaits : t.calls i = .waiting token)
    (hsteps : 4 * s.sql_queue.length + 1 ≤ after.countP Label.is_work) :
    (t.worker.reply token).isSome = true ∨ t.worker.alive = false := by
  have hs := run_consistent hempty halive hbefore
  have ht : Consistent worker t := lib.transition.run_invariant (consistent_step hempty) hs hafter
  have hrank : t.rank token ≤ s.rank token - after.countP Label.is_work := by
    apply lib.transition.run_measure (fun u => Consistent worker u ∧ token ∈ u.queued.map Job.token)
      (fun u label v hinv hstep => ⟨consistent_step hempty u label v hinv.1 hstep, ?_⟩)
      (fun u label v hinv hstep => rank_step hinv.1 hinv.2 (step_cases hstep))
      ⟨hs, hs.waiting_queued hcall⟩ hafter
    exact ((queued_extends u label v hstep).map Job.token).subset hinv.2
  have hzero : t.rank token = 0 := by
    have hle : s.rank token ≤ 4 * s.sql_queue.length + 1 := rank_le
    omega
  cases hlive : t.worker.alive with
  | false => exact Or.inr rfl
  | true =>
    left
    have hdone := rank_eq_zero_iff.mp hzero
    exact ht.reply_of_not_pending hclosed halive hwaits
      (ht.kept_of_not_pending hclosed halive hlive hdone) hdone

theorem work_of_busy (halive : s.worker.alive = true) (hloop : s.loop ≠ .returned)
    (hbusy : s.loop = .getting ∨ s.loop = .exiting → s.sql_queue ≠ []) :
    ∃ t, s.work = some t ∧ t.loop ≠ .returned := by
  unfold Service.work
  rw [if_pos halive]
  cases hs : s.loop with
  | getting =>
    cases hqueue : s.sql_queue with
    | nil => exact absurd hqueue (hbusy (Or.inl hs))
    | cons entry queue => exact ⟨_, rfl, by simp⟩
  | running entry => cases entry <;> exact ⟨_, rfl, by simp⟩
  | testing => exact ⟨_, rfl, by cases s.exit_set <;> simp⟩
  | exiting =>
    cases hqueue : s.sql_queue with
    | nil => exact absurd hqueue (hbusy (Or.inr hs))
    | cons entry queue => exact ⟨_, rfl, by simp⟩
  | returned => exact absurd hs hloop

/-- The query of a thread that waits will never be run: it was queued behind the
    end of the worker, or behind a query that ends it. -/
def Service.Abandons {d r : Type} (s : Service d r) (token : String) : Prop :=
  s.loop = .returned ∧ token ∈ s.pending.map Job.token ∨
    ∃ before job after, s.queued = before ++ job :: after ∧ job.token = token ∧
      ∃ lost ∈ before, lost.query.Lost

theorem abandons_step (habandons : s.Abandons token) (hstep : step max_queue_size s label = some t) :
    t.Abandons token := by
  rcases habandons with ⟨hloop, hpending⟩ | ⟨before, job, after, hsplit, htoken, hlost⟩
  · left
    cases step_cases hstep with
    | refused | slept | called | raised | polled | closed | joined => exact ⟨hloop, hpending⟩
    | queued | exit_queued =>
      refine ⟨hloop, ?_⟩
      simp only [Service.pending, List.filterMap_append, List.map_append, List.mem_append] at hpending ⊢
      exact hpending.imp id Or.inl
    | got _ hother | ran _ hother | skipped _ hother | tested _ hother | resumed _ hother _
    | returned hother _ =>
      rw [hloop] at hother
      cases hother
  · right
    obtain ⟨more, hmore⟩ := queued_extends s label t hstep
    exact ⟨before, job, after ++ more, by simp [← hmore, hsplit], htoken, hlost⟩

theorem reply_of_abandons {initial : Worker d r} (hempty : initial.results = [])
    (hclosed : initial.connection.working = none) (halive : initial.alive = true)
    (hconsistent : Consistent initial s) (habandons : s.Abandons token) :
    s.worker.reply token = none := by
  obtain ⟨done, hserves⟩ := hconsistent.serves
  by_contra hreply
  obtain ⟨reply, hreply⟩ := Option.ne_none_iff_exists'.mp hreply
  rw [hserves.worker] at hreply
  have hmem := mem_of_without_reply hreply
  have hnodup := hconsistent.tokens.nodup
  rcases habandons with ⟨_, hpending⟩ | ⟨before, job, after, hsplit, htoken, lost, hlost, hends⟩
  · rw [hserves.queued, List.map_append] at hnodup
    exact (List.nodup_append'.mp hnodup).2.2 (token_mem_of_mem_results hempty hmem) hpending
  · obtain ⟨before', job', after', rfl, htoken', hlive, _⟩ := of_mem_results hempty hclosed hmem
    have hsplit' := hserves.queued
    rw [hsplit, List.append_assoc, List.cons_append] at hsplit'
    rw [hsplit] at hnodup
    obtain rfl := lib.table.split_unique hnodup hsplit' (htoken.trans htoken'.symm)
    exact (run_alive_iff hclosed halive).mp hlive lost hlost hends

theorem waiting_step {i : Nat} (hstep : Steps max_queue_size s label t)
    (hcall : s.calls i = .waiting token) (hnone : s.worker.reply token = none) :
    t.calls i = .waiting token := by
  cases hstep <;> grind [Function.update_apply]

theorem work_progress {initial : Worker d r} (hempty : initial.results = []) {i : Nat}
    {queued : List (Job d r)} (u : Service d r)
    (hinv : Consistent initial u ∧ u.calls i = .waiting token ∧ u.queued = queued ∧ u.loop ≠ .returned)
    (hgoal : ¬ (u.rank token = 0 ∨ u.worker.alive = false)) :
    ∃ label v, step max_queue_size u label = some v ∧
      (Consistent initial v ∧ v.calls i = .waiting token ∧ v.queued = queued ∧ v.loop ≠ .returned) ∧
        v.rank token < u.rank token := by
  obtain ⟨hu, hcall, hqueued, hloop⟩ := hinv
  rw [not_or] at hgoal
  have hbusy : u.loop = .getting ∨ u.loop = .exiting → u.sql_queue ≠ [] := by
    intro hidle hnil
    have hjob : u.loop.job = none := by rcases hidle with hidle | hidle <;> rw [hidle] <;> rfl
    exact hgoal.1 (rank_eq_zero_iff.mpr (by simp [pending_of_job_eq_none hjob, hnil]))
  obtain ⟨v, hwork, hv⟩ := work_of_busy (Bool.eq_true_of_not_eq_false hgoal.2) hloop hbusy
  have hstep : step max_queue_size u .work = some v := hwork
  have hrank := rank_step hu (hu.waiting_queued hcall) (step_cases hstep)
  have hsame : v.calls = u.calls ∧ v.queued = u.queued := by
    cases step_cases hstep <;> exact ⟨rfl, rfl⟩
  refine ⟨.work, v, hstep,
    ⟨consistent_step hempty u .work v hu hstep, hsame.1 ▸ hcall, hsame.2.trans hqueued, hv⟩, ?_⟩
  simp only [Label.is_work, if_true] at hrank
  omega

/-- The worker comes to a query that is not abandoned. -/
theorem exists_reply {initial : Worker d r} (hempty : initial.results = [])
    (hclosed : initial.connection.working = none) (halive : initial.alive = true)
    (hconsistent : Consistent initial s) {i : Nat} (hcall : s.calls i = .waiting token)
    (hkept : ¬ s.Abandons token) :
    ∃ labels t, lib.transition.run (step max_queue_size) s labels = some t ∧
      t.calls i = .waiting token ∧ (t.worker.reply token).isSome = true := by
  have hbefore : ∀ before job after, s.queued = before ++ job :: after → job.token = token →
      ∀ job ∈ before, ¬ job.query.Lost :=
    fun before job after hsplit htoken lost hmem hlost =>
      hkept (Or.inr ⟨before, job, after, hsplit, htoken, lost, hmem, hlost⟩)
  by_cases hreturned : s.loop = .returned
  · have hdone : token ∉ s.pending.map Job.token := fun hmem => hkept (Or.inl ⟨hreturned, hmem⟩)
    exact ⟨[], s, rfl, hcall, hconsistent.reply_of_not_pending hclosed halive hcall hbefore hdone⟩
  · obtain ⟨labels, t, hrun, ⟨ht, hcall, hqueued, _⟩, hgoal⟩ :=
      lib.transition.exists_run_of_measure
        (fun u => Consistent initial u ∧ u.calls i = .waiting token ∧ u.queued = s.queued ∧
          u.loop ≠ .returned)
        (fun u => u.rank token = 0 ∨ u.worker.alive = false) (Service.rank token)
        (work_progress hempty) ⟨hconsistent, hcall, rfl, hreturned⟩
    refine ⟨labels, t, hrun, hcall, ?_⟩
    rw [← hqueued] at hbefore
    apply ht.reply_of_not_pending hclosed halive hcall hbefore
    intro hpending
    rcases hgoal with hzero | hdead
    · exact rank_eq_zero_iff.mp hzero hpending
    · obtain ⟨done, hserves⟩ := ht.serves
      obtain ⟨job, hjob, htoken⟩ := List.mem_map.mp hpending
      obtain ⟨earlier, later, hsplit⟩ := List.append_of_mem hjob
      have hlive := (hserves.alive_iff hclosed halive).mpr (fun lost hlost => hbefore (done ++ earlier)
        job later (by rw [hserves.queued, hsplit, List.append_assoc]) htoken lost
        (List.mem_append_left _ hlost))
      exact absurd hlive (by simp [hdead])

/-- `execute` never returns exactly when its query is abandoned. -/
theorem execute_hangs_iff {worker : Worker d r} (hempty : worker.results = [])
    (hclosed : worker.connection.working = none) (halive : worker.alive = true)
    {labels : List (Label d r)} {i : Nat}
    (hrun : lib.transition.run (step max_queue_size) (started worker) labels = some s)
    (hcall : s.calls i = .waiting token) :
    (∀ labels t, lib.transition.run (step max_queue_size) s labels = some t →
      t.calls i = .waiting token) ↔ s.Abandons token := by
  have hconsistent := run_consistent hempty halive hrun
  constructor
  · intro hhangs
    by_contra hkept
    obtain ⟨labels, t, hrun, hcall, hreply⟩ :=
      @exists_reply _ _ max_queue_size _ _ _ hempty hclosed halive hconsistent i hcall hkept
    obtain ⟨reply, hreply⟩ := Option.isSome_iff_exists.mp hreply
    obtain ⟨u, hpoll, hidle⟩ : ∃ u, step max_queue_size t (.poll i) = some u ∧ u.calls i = .idle := by
      simp only [step, hcall, hreply]
      exact ⟨_, rfl, Function.update_self _ _ _⟩
    have hstays := hhangs _ _ (lib.transition.run_concat hrun hpoll)
    rw [hidle] at hstays
    cases hstays
  · intro habandons labels t hrun
    apply (lib.transition.run_invariant (motive := fun u => Consistent worker u ∧ u.Abandons token ∧
      u.calls i = .waiting token) ?_ ⟨hconsistent, habandons, hcall⟩ hrun).2.2
    rintro u label v ⟨hu, habandons, hcall⟩ hstep
    exact ⟨consistent_step hempty u label v hu hstep, abandons_step habandons hstep,
      waiting_step (step_cases hstep) hcall (reply_of_abandons hempty hclosed halive hu habandons)⟩

/-- A thread in `close` has told the worker to end, and one that waits for the end
    has woken it up. -/
structure Closes {d r : Type} (s : Service d r) : Prop where
  told : ∀ i, s.calls i = .closing ∨ s.calls i = .joining → s.exit_set = true
  woken : ∀ i, s.calls i = .joining → s.loop = .getting → s.sql_queue ≠ []

theorem closes_started (worker : Worker d r) : Closes (started worker) := by
  constructor <;> simp [started]

theorem Closes.step (hcloses : Closes s) (hstep : Steps max_queue_size s label t) : Closes t := by
  obtain ⟨htold, hwoken⟩ := hcloses
  cases hstep with
  | refused | slept => exact ⟨htold, hwoken⟩
  | called | raised | polled | joined => constructor <;> grind [Function.update_apply]
  | closed =>
    refine ⟨fun _ _ => rfl, ?_⟩
    grind [Function.update_apply]
  | queued | exit_queued =>
    constructor
    · grind [Function.update_apply]
    · exact fun _ _ _ => by simp
  | got | ran | skipped | returned => exact ⟨htold, by simp⟩
  | tested =>
    refine ⟨htold, ?_⟩
    intro i hcall
    simp [htold i (Or.inr hcall)]
  | resumed _ _ hqueue => exact ⟨htold, fun _ _ _ => hqueue⟩

/-- Before it returns, the worker has run all that was queued. -/
theorem served_of_exiting {initial : Worker d r} (hclosed : initial.connection.working = none)
    (halive : initial.alive = true) (hconsistent : Consistent initial s) (hloop : s.loop = .exiting)
    (hqueue : s.sql_queue = []) :
    (∀ job ∈ s.queued, ¬ job.query.Lost) ∧
      s.worker.served = initial.served ++ s.queued.map Job.token := by
  obtain ⟨done, hserves⟩ := hconsistent.serves
  have hlive := hconsistent.ends.alive (by simp [hloop])
  have hkept := (hserves.alive_iff hclosed halive).mp hlive
  have hdone : s.queued = done := by
    rw [hserves.queued, pending_of_job_eq_none (by rw [hloop]; rfl), hqueue]
    exact List.append_nil done
  rw [hdone, hserves.worker]
  exact ⟨hkept, run_served hclosed halive hkept⟩

/-- When the worker has returned, all that was queued before it was told to end,
    or later while it was still running, has been run, in its order. -/
theorem close_drains {worker : Worker d r} (hempty : worker.results = []) (hserved : worker.served = [])
    (hclosed : worker.connection.working = none) (halive : worker.alive = true)
    {before after : List (Label d r)}
    (hbefore : lib.transition.run (step max_queue_size) (started worker) before = some s)
    (hafter : lib.transition.run (step max_queue_size) s after = some t)
    (hloop : s.loop ≠ .returned) (hreturned : t.loop = .returned) :
    s.queued.map Job.token <+: t.worker.served := by
  have hs := run_consistent hempty halive hbefore
  apply (lib.transition.run_invariant (motive := fun u => Consistent worker u ∧ s.queued <+: u.queued ∧
    (u.loop = .returned → s.queued.map Job.token <+: u.worker.served)) ?_
    ⟨hs, List.prefix_refl _, fun h => absurd h hloop⟩ hafter).2.2 hreturned
  rintro u label v ⟨hu, hprefix, hdrained⟩ hstep
  refine ⟨consistent_step hempty u label v hu hstep, hprefix.trans (queued_extends u label v hstep), ?_⟩
  cases step_cases hstep with
  | refused | slept | called | queued | exit_queued | raised | polled | closed | joined => exact hdrained
  | got | ran | skipped | resumed => simp
  | tested => cases u.exit_set <;> simp
  | returned hexiting hqueue =>
    intro _
    rw [(served_of_exiting hclosed halive hu hexiting hqueue).2, hserved, List.nil_append]
    exact hprefix.map Job.token

theorem joining_step {i : Nat} (hstep : Steps max_queue_size s label t) (hcall : s.calls i = .joining)
    (hloop : s.loop ≠ .returned) : t.calls i = .joining := by
  cases hstep <;> grind [Function.update_apply]

/-- The steps of the worker before the last test of its loop. -/
def Service.remaining {d r : Type} (s : Service d r) : Nat := s.loop.rest + 4 * s.sql_queue.length

theorem remaining_work {u : Service d r} (hwork : s.work = some u) : u.remaining < s.remaining := by
  have hcases : Steps 0 s .work u := work_cases hwork
  cases hcases with
  | got _ hloop hqueue => simp [Service.remaining, Loop.rest, hloop, hqueue]; omega
  | ran _ hloop | skipped _ hloop | resumed _ hloop => simp [Service.remaining, Loop.rest, hloop]
  | tested _ hloop => cases hset : s.exit_set <;> simp [Service.remaining, Loop.rest, hloop]

theorem closing_progress {initial : Worker d r} (hempty : initial.results = [])
    (hclosed : initial.connection.working = none) (halive : initial.alive = true) {i : Nat}
    {queued : List (Job d r)} (hkept : ∀ job ∈ queued, ¬ job.query.Lost) (u : Service d r)
    (hinv : Consistent initial u ∧ Closes u ∧ u.calls i = .joining ∧ u.queued = queued ∧
      u.loop ≠ .returned)
    (hgoal : ¬ (u.loop = .exiting ∧ u.sql_queue = [])) :
    ∃ label v, step max_queue_size u label = some v ∧
      (Consistent initial v ∧ Closes v ∧ v.calls i = .joining ∧ v.queued = queued ∧
        v.loop ≠ .returned) ∧ v.remaining < u.remaining := by
  obtain ⟨hu, hcloses, hcall, rfl, hloop⟩ := hinv
  obtain ⟨done, hserves⟩ := hu.serves
  have hlive : u.worker.alive = true := by
    apply (hserves.alive_iff hclosed halive).mpr
    exact fun job hjob => hkept job (by simp [hserves.queued, hjob])
  have hbusy : u.loop = .getting ∨ u.loop = .exiting → u.sql_queue ≠ [] := by
    rintro (hidle | hidle)
    · exact hcloses.woken i hcall hidle
    · exact fun hqueue => hgoal ⟨hidle, hqueue⟩
  obtain ⟨v, hwork, hv⟩ := work_of_busy hlive hloop hbusy
  have hstep : step max_queue_size u .work = some v := hwork
  have hcases := step_cases hstep
  have hsame : v.calls = u.calls ∧ v.queued = u.queued := by
    cases hcases <;> exact ⟨rfl, rfl⟩
  exact ⟨.work, v, hstep, ⟨consistent_step hempty u .work v hu hstep, hcloses.step hcases,
    hsame.1 ▸ hcall, hsame.2, hv⟩, remaining_work hwork⟩

/-- `close` never returns exactly when an error ends the worker. -/
theorem close_hangs_iff {worker : Worker d r} (hempty : worker.results = [])
    (hclosed : worker.connection.working = none) (halive : worker.alive = true)
    {labels : List (Label d r)} {i : Nat}
    (hrun : lib.transition.run (step max_queue_size) (started worker) labels = some s)
    (hcall : s.calls i = .joining) :
    (∀ labels t, lib.transition.run (step max_queue_size) s labels = some t → t.calls i = .joining) ↔
      s.loop ≠ .returned ∧ ∃ job ∈ s.queued, job.query.Lost := by
  have hconsistent := run_consistent hempty halive hrun
  have hcloses : Closes s := lib.transition.run_invariant
    (fun u label v hu hstep => hu.step (step_cases hstep)) (closes_started worker) hrun
  have hjoins : ∀ u : Service d r, u.calls i = .joining → u.loop = .returned →
      ∃ v, step max_queue_size u (.joined i) = some v ∧ v.calls i = .idle := by
    intro u hcall hloop
    simp only [step, hcall, hloop]
    exact ⟨_, rfl, Function.update_self _ _ _⟩
  constructor
  · intro hhangs
    by_contra hkept
    obtain ⟨labels, t, hrun, hcall, hloop⟩ : ∃ labels t,
        lib.transition.run (step max_queue_size) s labels = some t ∧ t.calls i = .joining ∧
          t.loop = .returned := by
      by_cases hloop : s.loop = .returned
      · exact ⟨[], s, rfl, hcall, hloop⟩
      · have hkept : ∀ job ∈ s.queued, ¬ job.query.Lost :=
          fun job hjob hlost => hkept ⟨hloop, job, hjob, hlost⟩
        obtain ⟨labels, t, hrun, ⟨_, _, hcall, _⟩, hexiting, hqueue⟩ :=
          lib.transition.exists_run_of_measure _ _ Service.remaining
            (closing_progress hempty hclosed halive hkept) ⟨hconsistent, hcloses, hcall, rfl, hloop⟩
        have hexit : step max_queue_size t .exit = some { t with loop := .returned } := by
          simp only [step, hexiting, hqueue]
        exact ⟨_, _, lib.transition.run_concat hrun hexit, hcall, rfl⟩
    obtain ⟨u, hjoined, hidle⟩ := hjoins t hcall hloop
    have hstays := hhangs _ _ (lib.transition.run_concat hrun hjoined)
    rw [hidle] at hstays
    cases hstays
  · rintro ⟨hloop, lost, hmem, hlost⟩ labels t hrun
    apply (lib.transition.run_invariant (motive := fun u => Consistent worker u ∧ lost ∈ u.queued ∧
      u.loop ≠ .returned ∧ u.calls i = .joining) ?_ ⟨hconsistent, hmem, hloop, hcall⟩ hrun).2.2.2
    rintro u label v ⟨hu, hmem, hloop, hcall⟩ hstep
    refine ⟨consistent_step hempty u label v hu hstep, (queued_extends u label v hstep).subset hmem, ?_,
      joining_step (step_cases hstep) hcall hloop⟩
    cases step_cases hstep with
    | returned hexiting hqueue =>
      exact absurd hlost ((served_of_exiting hclosed halive hu hexiting hqueue).1 lost hmem)
    | tested => cases u.exit_set <;> simp
    | got | ran | skipped | resumed => simp
    | _ => exact hloop

end

/-- A thread queues its query behind one that the worker is about to run. -/
def waiting : Service (List evt.Row) Nat :=
  (lib.transition.run (step 10000) (started idle_worker) [.execute 1 count_job, .put 1]).get (by rfl)

def busy_worker : List (Label (List evt.Row) Nat) :=
  [.execute 0 insert_job, .put 0, .work, .work, .work, .work, .work]

def served : Service (List evt.Row) Nat :=
  (lib.transition.run (step 10000) waiting busy_worker).get (by rfl)

theorem execute_bounded_served :
    (served.worker.reply "count").isSome = true ∨ served.worker.alive = false :=
  execute_bounded (s := waiting) (i := 1) rfl rfl rfl (Option.some_get _).symm (Option.some_get _).symm
    rfl rfl (by decide)

/-- A thread has read `exit_set` before `close` set it, and puts its query in the
    queue after the worker has returned. -/
def late : Service (List evt.Row) Nat :=
  (lib.transition.run (step 10000) (started idle_worker)
    [.execute 1 count_job, .close 0, .put 0, .work, .work, .work, .exit, .put 1]).get (by rfl)

theorem execute_hangs_iff_late : late.Abandons "count" ∧
    ∀ labels t, lib.transition.run (step 10000) late labels = some t → t.calls 1 = .waiting "count" := by
  have habandons : late.Abandons "count" := Or.inl ⟨rfl, by decide⟩
  exact ⟨habandons,
    (execute_hangs_iff (s := late) (i := 1) rfl rfl rfl (Option.some_get _).symm rfl).mpr habandons⟩

/-- `close` while a query waits in the queue. -/
def closing : Service (List evt.Row) Nat :=
  (lib.transition.run (step 10000) (started idle_worker)
    [.execute 0 insert_job, .put 0, .close 1, .put 1]).get (by rfl)

def closed : Service (List evt.Row) Nat :=
  (lib.transition.run (step 10000) closing
    [.work, .work, .work, .work, .work, .work, .work, .exit, .joined 1]).get (by rfl)

theorem close_drains_closed : closing.queued.map Job.token <+: closed.worker.served :=
  close_drains rfl rfl rfl rfl (Option.some_get _).symm (Option.some_get _).symm
    (by change (Loop.getting : Loop (List evt.Row) Nat) ≠ .returned; simp) rfl

/-- `close` behind an insertion for which the disk has no room. -/
def closing_full : Service (List evt.Row) Nat :=
  (lib.transition.run (step 10000) (started idle_worker)
    [.execute 0 { insert_job with query := .script (write_script (.add_evt_to_be_assigned inserted_evt)
      (.error none)) }, .put 0, .close 1, .put 1]).get (by rfl)

theorem close_hangs_iff_full : closing_full.queued.map Job.token = ["insert"] ∧
    ∀ labels t, lib.transition.run (step 10000) closing_full labels = some t → t.calls 1 = .joining :=
  ⟨rfl, (close_hangs_iff (s := closing_full) (i := 1) rfl rfl rfl (Option.some_get _).symm rfl).mpr
    ⟨by change (Loop.getting : Loop (List evt.Row) Nat) ≠ .returned; simp, _, List.mem_singleton.mpr rfl,
      Or.inr rfl⟩⟩

end qsp.sql3liteworker
