import QspNode.QspAuditNode.Stop

open lib.transition qsp.qsp_thread

namespace qsp.qsp_audit_node

/-- What a step passes to the target function of a thread: the number of the block
    it reacts to, or else the time. -/
def call_of (i : Nat) (s t : QspAuditNode) : List Int :=
  if t.calls = i :: s.calls then (t.internal_threads[i]?.map QspThread.last).toList else []

/-- The distance that two calls of a target function keep. -/
def Spaced : RunMethod → Int → Int → Prop
  | .time_interval_polling polling_interval _, a, b | .block_mined_polling polling_interval, a, b =>
    a + polling_interval < b
  | .block_mined_subscriber, a, b => a < b

/-- The steps of `stop`. -/
inductive Stops (s t : QspAuditNode) : Prop where
  | called (hstopping : s.stopping = .running) (ht : t = { s with stopping := .signalling 0 [] })
  | signalled (i : Nat) (skip : List Nat) (thread : QspThread) (hstopping : s.stopping = .signalling i skip)
      (hthread : s.internal_threads[i]? = some thread) (hexec : thread.exec = true)
      (ht : t = { s with
        internal_threads := s.internal_threads.set i { thread with exec := false }
        stopping := .signalling (i + 1) skip })
  | skipped (i : Nat) (skip : List Nat) (thread : QspThread) (hstopping : s.stopping = .signalling i skip)
      (hthread : s.internal_threads[i]? = some thread) (hexec : thread.exec = false)
      (ht : t = { s with stopping := .signalling (i + 1) (skip ++ [i]) })
  | all_signalled (i : Nat) (skip : List Nat) (hstopping : s.stopping = .signalling i skip)
      (hnone : s.internal_threads[i]? = none) (ht : t = { s with stopping := .joining 0 skip })
  | joined (i : Nat) (skip : List Nat) (thread : QspThread) (hstopping : s.stopping = .joining i skip)
      (hthread : s.internal_threads[i]? = some thread) (hjoin : i ∈ skip ∨ thread.pc = .dead)
      (ht : t = { s with stopping := .joining (i + 1) skip })
  | all_joined (i : Nat) (skip : List Nat) (hstopping : s.stopping = .joining i skip)
      (hnone : s.internal_threads[i]? = none) (ht : t = { s with stopping := .closing })

/-- What a step of the node does to one thread. -/
inductive Touch (s t : QspAuditNode) (i : Nat) (thread next : QspThread) : Prop where
  | kept (hnext : next = thread) (hcalls : t.calls ≠ i :: s.calls)
  | started (hstarted : s.started = i ∧ t.started = i + 1) (hnext : next = { thread with pc := .started })
      (hcalls : t.calls = s.calls)
  | stepped (raises : Bool) (hstep : thread.step s.now s.current_block raises = some next)
      (hcalls : t.calls = if next.pc = .call ∧ next.has_target then i :: s.calls else s.calls)
  | signalled (hnext : next = { thread with exec := false }) (hcalls : t.calls = s.calls)

/-- What every step keeps of the clock, the block number and the loop of `start`. -/
structure Advances (s t : QspAuditNode) : Prop where
  now : s.now ≤ t.now
  current_block : s.current_block ≤ t.current_block
  started : s.started ≤ t.started

section
variable {s t : QspAuditNode} {label : Label} {i : Nat} {thread : QspThread}

theorem stop_cases (hstep : stop s = some t) : Stops s t := by
  unfold stop at hstep
  split at hstep
  · next hstopping =>
    split at hstep
    · exact .called hstopping (Option.some.inj hstep).symm
    · cases hstep
  · next i skip hstopping =>
    split at hstep
    · next hnone => exact .all_signalled i skip hstopping hnone (Option.some.inj hstep).symm
    · next thread hthread =>
      split at hstep
      · next hexec => exact .signalled i skip thread hstopping hthread hexec (Option.some.inj hstep).symm
      · next hexec =>
        exact .skipped i skip thread hstopping hthread (by simpa using hexec) (Option.some.inj hstep).symm
  · next i skip hstopping =>
    split at hstep
    · next hnone => exact .all_joined i skip hstopping hnone (Option.some.inj hstep).symm
    · next thread hthread =>
      split at hstep
      · next hjoin => exact .joined i skip thread hstopping hthread hjoin (Option.some.inj hstep).symm
      · cases hstep
  · cases hstep
  · cases hstep

theorem start_next_cases (hstep : start_next s = some t) :
    ∃ thread, s.internal_threads[s.started]? = some thread ∧
      t = { s with
        internal_threads := s.internal_threads.set s.started { thread with pc := .started }
        started := s.started + 1 } := by
  unfold start_next at hstep
  split at hstep
  · cases hstep
  · next thread hthread => exact ⟨thread, hthread, (Option.some.inj hstep).symm⟩

theorem thread_step_cases {remote_block_number : Int} {raises : Bool}
    (hstep : thread_step i remote_block_number raises s = some t) :
    ∃ thread next, s.internal_threads[i]? = some thread ∧
      thread.step s.now s.current_block raises = some next ∧
      t = { s with
        internal_threads := s.internal_threads.set i next
        current_block :=
          if thread.pc = .call ∧ !thread.has_target ∧ !raises then max s.current_block remote_block_number
          else s.current_block
        calls := if next.pc = .call ∧ next.has_target then i :: s.calls else s.calls } := by
  unfold thread_step at hstep
  split at hstep
  · cases hstep
  · next thread hthread =>
    obtain ⟨next, hnext, ht⟩ := Option.map_eq_some_iff.mp hstep
    exact ⟨thread, next, hthread, hnext, ht.symm⟩

theorem step_advances (hstep : step s label = some t) : Advances s t := by
  cases label with
  | tick seconds =>
    obtain rfl := Option.some.inj hstep
    exact ⟨Int.le_add_of_nonneg_right (Int.natCast_nonneg seconds), Int.le_refl _, Nat.le_refl _⟩
  | start_next =>
    obtain ⟨thread, _, rfl⟩ := start_next_cases hstep
    exact ⟨Int.le_refl _, Int.le_refl _, Nat.le_succ _⟩
  | thread j remote_block_number raises =>
    obtain ⟨thread, next, _, _, rfl⟩ := thread_step_cases hstep
    refine ⟨Int.le_refl _, ?_, Nat.le_refl _⟩
    dsimp only
    split
    · exact Int.le_max_left _ _
    · exact Int.le_refl _
  | stop =>
    cases stop_cases hstep with
    | called _ ht | all_signalled _ _ _ _ ht | all_joined _ _ _ _ ht
    | signalled _ _ _ _ _ _ ht | skipped _ _ _ _ _ _ ht | joined _ _ _ _ _ _ ht =>
      subst ht
      exact ⟨Int.le_refl _, Int.le_refl _, Nat.le_refl _⟩
  | close =>
    obtain ⟨_, rfl⟩ := close_cases hstep
    exact ⟨Int.le_refl _, Int.le_refl _, Nat.le_refl _⟩

theorem getElem?_set_of (hthread : s.internal_threads[i]? = some thread) (j : Nat) (next : QspThread) :
    (s.internal_threads.set j next)[i]? = some (if j = i then next else thread) := by
  have hlt : i < s.internal_threads.length := (List.getElem?_eq_some_iff.mp hthread).1
  by_cases hindex : j = i
  · subst hindex
    rw [List.getElem?_set_self hlt, if_pos rfl]
  · rw [List.getElem?_set_ne hindex, if_neg hindex, hthread]

theorem step_touch (hthread : s.internal_threads[i]? = some thread) (hstep : step s label = some t) :
    ∃ next, t.internal_threads[i]? = some next ∧ Touch s t i thread next := by
  have hsame : s.calls ≠ i :: s.calls := fun heq => by simpa using congrArg List.length heq
  cases label with
  | tick seconds =>
    obtain rfl := Option.some.inj hstep
    exact ⟨thread, hthread, .kept rfl hsame⟩
  | start_next =>
    obtain ⟨other, hother, rfl⟩ := start_next_cases hstep
    refine ⟨_, getElem?_set_of hthread _ _, ?_⟩
    split
    · next hindex =>
      subst hindex
      obtain rfl := Option.some.inj (hthread.symm.trans hother)
      exact .started ⟨rfl, rfl⟩ rfl rfl
    · exact .kept rfl hsame
  | thread j remote_block_number raises =>
    obtain ⟨other, next, hother, hnext, rfl⟩ := thread_step_cases hstep
    refine ⟨_, getElem?_set_of hthread _ _, ?_⟩
    by_cases hindex : j = i
    · subst hindex
      rw [if_pos rfl]
      obtain rfl := Option.some.inj (hthread.symm.trans hother)
      exact .stepped raises hnext rfl
    · rw [if_neg hindex]
      refine .kept rfl ?_
      dsimp only
      split
      · simpa using hindex
      · exact hsame
  | stop =>
    cases stop_cases hstep with
    | called _ ht | all_signalled _ _ _ _ ht | all_joined _ _ _ _ ht | skipped _ _ _ _ _ _ ht
    | joined _ _ _ _ _ _ ht =>
      subst ht
      exact ⟨thread, hthread, .kept rfl hsame⟩
    | signalled j skip other hstopping hother hexec ht =>
      subst ht
      refine ⟨_, getElem?_set_of hthread _ _, ?_⟩
      split
      · next hindex =>
        subst hindex
        obtain rfl := Option.some.inj (hthread.symm.trans hother)
        exact .signalled rfl rfl
      · exact .kept rfl hsame
  | close =>
    obtain ⟨_, rfl⟩ := close_cases hstep
    exact ⟨thread, hthread, .kept rfl hsame⟩

/-- What holds of a thread and of the calls that it has made. -/
structure Called (as : List Int) (s : QspAuditNode) (i : Nat) (run : RunMethod) (thread : QspThread) :
    Prop where
  method : thread.run = run
  spaced : as.Pairwise (Spaced run)
  unbegun : thread.begun = false → as = []
  created : s.started ≤ i → thread.pc = .created
  last : ∀ a ∈ as, a ≤ thread.last
  now : run ≠ .block_mined_subscriber → ∀ a ∈ as, a ≤ s.now
  block : run = .block_mined_subscriber →
    0 ≤ s.current_block ∧ (thread.begun = true → thread.last ≤ s.current_block)

theorem call_of_eq_nil (hcalls : t.calls ≠ i :: s.calls) : call_of i s t = [] := if_neg hcalls

theorem call_of_eq_singleton {next : QspThread} (hthread : t.internal_threads[i]? = some next)
    (hcalls : t.calls = i :: s.calls) : call_of i s t = [next.last] := by
  rw [call_of, if_pos hcalls, hthread]
  rfl

/-- A step that makes no call of the thread and keeps the time of its last one. -/
theorem Called.silent {as : List Int} {run : RunMethod} {next : QspThread}
    (hcalled : Called as s i run thread) (hadvances : Advances s t) (hcalls : t.calls ≠ i :: s.calls)
    (hrun : next.run = thread.run) (hlast : next.last = thread.last) (hbegun : next.begun = thread.begun)
    (hcreated : t.started ≤ i → next.pc = .created) : Called (as ++ call_of i s t) t i run next := by
  obtain ⟨hclock, hnumber, _⟩ := hadvances
  rw [call_of_eq_nil hcalls, List.append_nil]
  refine ⟨hrun.trans hcalled.method, hcalled.spaced, ?_, hcreated, ?_, ?_, ?_⟩
  · rw [hbegun]
    exact hcalled.unbegun
  · rw [hlast]
    exact hcalled.last
  · exact fun hother a ha => Int.le_trans (hcalled.now hother a ha) hclock
  · intro hsubscriber
    obtain ⟨hpositive, hreached⟩ := hcalled.block hsubscriber
    rw [hbegun, hlast]
    exact ⟨Int.le_trans hpositive hnumber, fun hbegun => Int.le_trans (hreached hbegun) hnumber⟩

/-- The body of the loop makes a call only after the distance to the last one. -/
theorem Called.due {as : List Int} {run : RunMethod} (hcalled : Called as s i run thread)
    (hbegun : thread.begun = true) (hcall : (thread.loop_body s.now s.current_block).pc = .call) :
    ∀ a ∈ as, Spaced run a (thread.loop_body s.now s.current_block).last ∧
      a ≤ (thread.loop_body s.now s.current_block).last := by
  intro a ha
  have hlast := hcalled.last a ha
  cases hrun : thread.run with
  | time_interval_polling polling_interval start_with_call =>
    have hmethod := hcalled.method
    rw [hrun] at hmethod
    subst hmethod
    simp only [QspThread.loop_body, hrun] at hcall ⊢
    have hnow := hcalled.now (by simp) a ha
    split at hcall
    · next hdue =>
      rw [if_pos hdue]
      exact ⟨by simp only [Spaced]; omega, hnow⟩
    · cases hcall
  | block_mined_polling polling_interval =>
    have hmethod := hcalled.method
    rw [hrun] at hmethod
    subst hmethod
    simp only [QspThread.loop_body, hrun] at hcall ⊢
    have hnow := hcalled.now (by simp) a ha
    split at hcall
    · next hdue =>
      rw [if_pos hdue]
      exact ⟨by simp only [Spaced]; omega, hnow⟩
    · cases hcall
  | block_mined_subscriber =>
    have hmethod := hcalled.method
    rw [hrun] at hmethod
    subst hmethod
    simp only [QspThread.loop_body, hrun] at hcall ⊢
    have hreached := (hcalled.block rfl).2 hbegun
    split at hcall
    · next hdue =>
      rw [if_pos hdue]
      exact ⟨by simp only [Spaced]; omega, by simp only; omega⟩
    · cases hcall

/-- The body of the loop, whether its call is that of a target function or not. -/
theorem Called.made {as : List Int} {run : RunMethod} (hcalled : Called as s i run thread)
    (hbegun : thread.begun = true) (hadvances : Advances s t) (hstarted : ¬ t.started ≤ i)
    (hcall : (thread.loop_body s.now s.current_block).pc = .call) {bs : List Int}
    (hbs : bs = [] ∨ bs = [(thread.loop_body s.now s.current_block).last]) :
    Called (as ++ bs) t i run (thread.loop_body s.now s.current_block) := by
  have hdue := hcalled.due hbegun hcall
  obtain ⟨hclock, hnumber, _⟩ := hadvances
  have hrun := (loop_body_frame s.now s.current_block thread).1.trans hcalled.method
  have hlast : (run = .block_mined_subscriber →
        (thread.loop_body s.now s.current_block).last = s.current_block) ∧
      (run ≠ .block_mined_subscriber → (thread.loop_body s.now s.current_block).last = s.now) := by
    rw [← hcalled.method]
    unfold QspThread.loop_body at hcall ⊢
    split at hcall <;> grind
  have hmem : ∀ a ∈ as ++ bs, a ≤ (thread.loop_body s.now s.current_block).last := by
    intro a ha
    rcases List.mem_append.mp ha with ha | ha
    · exact (hdue a ha).2
    · rcases hbs with rfl | rfl
      · cases ha
      · exact Int.le_of_eq (List.mem_singleton.mp ha)
  refine ⟨hrun, ?_, ?_, fun hle => absurd hle hstarted, hmem, ?_, ?_⟩
  · rw [List.pairwise_append]
    refine ⟨hcalled.spaced, ?_, ?_⟩
    · rcases hbs with rfl | rfl
      · exact .nil
      · exact List.pairwise_singleton _ _
    · intro a ha b hb
      rcases hbs with rfl | rfl
      · cases hb
      · exact List.mem_singleton.mp hb ▸ (hdue a ha).1
  · intro hnot
    simp [QspThread.begun, hcall] at hnot
  · intro hother a ha
    have hle := hmem a ha
    rw [hlast.2 hother] at hle
    exact Int.le_trans hle hclock
  · intro hsubscriber
    rw [hlast.1 hsubscriber]
    exact ⟨Int.le_trans (hcalled.block hsubscriber).1 hnumber, fun _ => hnumber⟩

theorem called_step {as : List Int} {run : RunMethod} {next : QspThread}
    (hcalled : Called as s i run thread) (hthread : t.internal_threads[i]? = some next)
    (hadvances : Advances s t) (htouch : Touch s t i thread next) :
    Called (as ++ call_of i s t) t i run next := by
  have hsame : s.calls ≠ i :: s.calls := fun heq => by simpa using congrArg List.length heq
  have hcreated : t.started ≤ i → thread.pc = .created :=
    fun hle => hcalled.created (Nat.le_trans hadvances.started hle)
  cases htouch with
  | kept hnext hcalls =>
    subst hnext
    exact hcalled.silent hadvances hcalls rfl rfl rfl hcreated
  | signalled hnext hcalls =>
    subst hnext
    exact hcalled.silent hadvances (hcalls ▸ hsame) rfl rfl rfl hcreated
  | started hstarted hnext hcalls =>
    subst hnext
    have hpc := hcalled.created (Nat.le_of_eq hstarted.1)
    refine hcalled.silent hadvances (hcalls ▸ hsame) rfl rfl ?_ (fun hle => ?_)
    · simp [QspThread.begun, hpc]
    · omega
  | stepped raises hstep hcalls =>
    have hrunning : ¬ t.started ≤ i := by
      intro hle
      rw [QspThread.step, hcreated hle] at hstep
      cases hstep
    have hbegun : thread.pc ≠ .started → thread.begun = true := by
      intro hpc
      have hcreated : thread.pc ≠ .created := fun hpc => by
        rw [QspThread.step, hpc] at hstep
        cases hstep
      simp [QspThread.begun, hpc, hcreated]
    unfold QspThread.step at hstep
    split at hstep
    · cases hstep
    · cases hstep
    · next hpc =>
      obtain rfl := Option.some.inj hstep
      obtain rfl := hcalled.unbegun (by simp [QspThread.begun, hpc])
      rw [call_of_eq_nil (by rw [hcalls]; exact hsame)]
      refine ⟨hcalled.method, .nil, fun _ => rfl, fun hle => absurd hle hrunning, by simp, by simp, ?_⟩
      intro hsubscriber
      have hpositive := Int.le_trans (hcalled.block hsubscriber).1 hadvances.current_block
      refine ⟨hpositive, fun _ => ?_⟩
      rw [QspThread.begin, hcalled.method, hsubscriber]
      exact hpositive
    · next hpc =>
      obtain rfl := Option.some.inj hstep
      have hpc' : (if thread.exec then Pc.body else .dead) ≠ .call := by cases thread.exec <;> simp
      refine hcalled.silent hadvances ?_ rfl rfl ?_ (fun hle => absurd hle hrunning)
      · rw [hcalls, if_neg (fun h => hpc' h.1)]
        exact hsame
      · rw [hbegun (by simp [hpc])]
        cases hexec : thread.exec <;> simp [QspThread.begun]
    · next hpc =>
      obtain rfl := Option.some.inj hstep
      rcases (loop_body_frame s.now s.current_block thread).2.2 with hcall | htest
      · apply hcalled.made (hbegun (by simp [hpc])) hadvances hrunning hcall
        by_cases htarget : (thread.loop_body s.now s.current_block).has_target = true
        · rw [if_pos ⟨hcall, htarget⟩] at hcalls
          exact Or.inr (call_of_eq_singleton hthread hcalls)
        · rw [if_neg (fun h => htarget h.2)] at hcalls
          exact Or.inl (call_of_eq_nil (hcalls ▸ hsame))
      · have hkept : thread.loop_body s.now s.current_block = { thread with pc := .test } := by
          unfold QspThread.loop_body at htest ⊢
          grind
        rw [hkept] at hcalls hthread ⊢
        refine hcalled.silent hadvances ?_ rfl rfl ?_ (fun hle => absurd hle hrunning)
        · rw [hcalls]
          exact hsame
        · rw [hbegun (by simp [hpc])]
          rfl
    · next hpc =>
      obtain rfl := Option.some.inj hstep
      have hpc' : (if raises then Pc.dead else .test) ≠ .call := by cases raises <;> simp
      refine hcalled.silent hadvances ?_ rfl rfl ?_ (fun hle => absurd hle hrunning)
      · rw [hcalls, if_neg (fun h => hpc' h.1)]
        exact hsame
      · rw [hbegun (by simp [hpc])]
        cases raises <;> rfl

end

/-- The calls of a target function keep their distance: one that polls is called
    after more than its interval, and one that waits for blocks with higher and
    higher numbers, however the threads interleave. -/
theorem calls_spaced {runs : List RunMethod} {now : Int} {labels : List Label} {s : QspAuditNode}
    {i : Nat} {run : RunMethod} (hmethod : runs[i]? = some run)
    (hrun : lib.transition.run step (init runs now) labels = some s) :
    (trace step (call_of i) (init runs now) labels).Pairwise (Spaced run) := by
  have hinit : ∃ thread, (init runs now).internal_threads[i]? = some thread ∧
      Called [] (init runs now) i run thread := by
    refine ⟨qsp_thread.init run, by simp [init, hmethod], ?_⟩
    exact ⟨rfl, .nil, fun _ => rfl, fun _ => rfl, by simp, by simp,
      fun _ => ⟨Int.le_refl 0, fun hbegun => nomatch hbegun⟩⟩
  obtain ⟨thread, _, hcalled⟩ := run_trace
    (motive := fun as s => ∃ thread, s.internal_threads[i]? = some thread ∧ Called as s i run thread)
    (fun as s label t ⟨thread, hthread, hcalled⟩ hstep => by
      obtain ⟨next, hnext, htouch⟩ := step_touch hthread hstep
      exact ⟨next, hnext, called_step hcalled hnext (step_advances hstep) htouch⟩) hinit hrun
  simpa using hcalled.spaced

/-- The thread that performs audits looks for requests twice. -/
def polling_labels : List Label :=
  started_labels ++ .replicate 4 (.thread 4 0 false) ++ [.tick 5] ++ .replicate 2 (.thread 4 0 false) ++
    [.tick 1] ++ .replicate 2 (.thread 4 0 false)

theorem calls_spaced_polling :
    (trace step (call_of 4) (init (internal_threads 1 5 none) 100000) polling_labels).Pairwise
      (Spaced (.time_interval_polling 5 true)) :=
  calls_spaced (s := (run step (init (internal_threads 1 5 none) 100000) polling_labels).get rfl) rfl
    (Option.some_get _).symm

example : trace step (call_of 4) (init (internal_threads 1 5 none) 100000) polling_labels =
    [100000, 100006] := by
  decide

end qsp.qsp_audit_node
