import QspNode.QspThread.Run

open lib.transition qsp.qsp_thread

namespace qsp.qsp_audit_node

/-- Where `stop` is: not called, at the signal to a thread, at the join of a
    thread, in its last call, which closes the event pool, or past it. -/
inductive Stopping where
  | running
  | signalling (i : Nat) (skip : List Nat)
  | joining (i : Nat) (skip : List Nat)
  | closing
  | closed
  deriving DecidableEq, Repr

/-- The node while `start`, the internal threads and `stop` run. The list `calls`
    records, newest first, which threads called their target functions. -/
structure QspAuditNode where
  internal_threads : List QspThread
  started : Nat
  stopping : Stopping
  now : Int
  current_block : Int
  calls : List Nat
  deriving DecidableEq, Repr

def init (runs : List RunMethod) (now : Int) : QspAuditNode :=
  { internal_threads := runs.map qsp_thread.init
    started := 0
    stopping := .running
    now
    current_block := 0
    calls := [] }

/-- The loop of `start` starts the next thread, whatever `stop` does. -/
def start_next (s : QspAuditNode) : Option QspAuditNode :=
  match s.internal_threads[s.started]? with
  | none => none
  | some thread =>
    some { s with
      internal_threads := s.internal_threads.set s.started { thread with pc := .started }
      started := s.started + 1 }

/-- A step of a thread. The one that polls for mined blocks may find a new
    block. -/
def thread_step (i : Nat) (remote_block_number : Int) (raises : Bool) (s : QspAuditNode) :
    Option QspAuditNode :=
  match s.internal_threads[i]? with
  | none => none
  | some thread =>
    (thread.step s.now s.current_block raises).map (fun next =>
      { s with
        internal_threads := s.internal_threads.set i next
        current_block :=
          if thread.pc = .call ∧ !thread.has_target ∧ !raises then max s.current_block remote_block_number
          else s.current_block
        calls := if next.pc = .call ∧ next.has_target then i :: s.calls else s.calls })

/-- The next step of `stop`, up to the call of `close`. -/
def stop (s : QspAuditNode) : Option QspAuditNode :=
  match s.stopping with
  | .running => if 0 < s.started then some { s with stopping := .signalling 0 [] } else none
  | .signalling i skip =>
    match s.internal_threads[i]? with
    | none => some { s with stopping := .joining 0 skip }
    | some thread =>
      if thread.exec then
        some { s with
          internal_threads := s.internal_threads.set i { thread with exec := false }
          stopping := .signalling (i + 1) skip }
      else some { s with stopping := .signalling (i + 1) (skip ++ [i]) }
  | .joining i skip =>
    match s.internal_threads[i]? with
    | none => some { s with stopping := .closing }
    | some thread =>
      if i ∈ skip ∨ thread.pc = .dead then some { s with stopping := .joining (i + 1) skip } else none
  | .closing | .closed => none

/-- `event_pool_manager.close()` comes to its end, and with it `stop`. Whether it does
    is up to the worker of the database; it may also raise that the queue is full. -/
def close (s : QspAuditNode) : Option QspAuditNode :=
  match s.stopping with
  | .closing => some { s with stopping := .closed }
  | _ => none

inductive Label where
  | tick (seconds : Nat)
  | start_next
  | thread (i : Nat) (remote_block_number : Int) (raises : Bool)
  | stop
  | close
  deriving DecidableEq, Repr

def step (s : QspAuditNode) : Label → Option QspAuditNode
  | .tick seconds => some { s with now := s.now + seconds }
  | .start_next => start_next s
  | .thread i remote_block_number raises => thread_step i remote_block_number raises s
  | .stop => stop s
  | .close => close s

/-- When `stop` looks at the flag of a thread that has a target function, the
    thread has executed the first statement of its run method. -/
def begun_before_signal (s : QspAuditNode) : Label → Bool
  | .stop =>
    match s.stopping with
    | .signalling i _ => s.internal_threads[i]?.all (fun thread => !thread.has_target || thread.begun)
    | _ => true
  | _ => true

def Stopping.skip : Stopping → List Nat
  | .signalling _ skip | .joining _ skip => skip
  | .running | .closing | .closed => []

/-- `stop` is past the signal to a thread. -/
def Stopping.Signalled (i : Nat) : Stopping → Prop
  | .running => False
  | .signalling j _ => i < j
  | .joining _ _ | .closing | .closed => True

/-- `stop` is past the join of a thread. -/
def Stopping.Joined (i : Nat) : Stopping → Prop
  | .running | .signalling _ _ => False
  | .joining j _ => i < j
  | .closing | .closed => True

/-- The flag of a thread in its run method is set until the thread is
    signalled. -/
structure ThreadInv (started : Nat) (stopping : Stopping) (i : Nat) (thread : QspThread) : Prop where
  created : started ≤ i → thread.pc = .created
  unskipped : i ∉ stopping.skip
  signalled : stopping.Signalled i → thread.begun = true ∧ thread.exec = false
  unsignalled : ¬ stopping.Signalled i → thread.begun = true → thread.exec = true
  joined : stopping.Joined i → thread.pc = .dead

/-- The thread does not notice a move of `stop` that does not signal to it. -/
theorem ThreadInv.passed {started i : Nat} {stopping next : Stopping} {thread : QspThread}
    (hold : ThreadInv started stopping i thread) (hskip : i ∉ next.skip)
    (hsignalled : next.Signalled i ↔ stopping.Signalled i)
    (hjoined : next.Joined i → thread.pc = .dead) : ThreadInv started next i thread where
  created := hold.created
  unskipped := hskip
  signalled := fun hnext => hold.signalled (hsignalled.mp hnext)
  unsignalled := fun hnext => hold.unsignalled (fun hwas => hnext (hsignalled.mpr hwas))
  joined := hjoined

def Inv (s : QspAuditNode) : Prop :=
  ∀ i thread, s.internal_threads[i]? = some thread → thread.has_target = true →
    ThreadInv s.started s.stopping i thread

theorem init_inv (runs : List RunMethod) (now : Int) : Inv (init runs now) := by
  intro i thread hthread htarget
  obtain ⟨run, hrun, rfl⟩ := Option.map_eq_some_iff.mp (List.getElem?_map .. ▸ hthread)
  exact {
    created := fun _ => rfl
    unskipped := List.not_mem_nil
    signalled := False.elim
    unsignalled := fun _ hbegun => nomatch hbegun
    joined := False.elim }

theorem get_set_cases {threads : List QspThread} {i j : Nat} {next thread : QspThread}
    (hget : (threads.set i next)[j]? = some thread) :
    (j = i ∧ thread = next) ∨ (j ≠ i ∧ threads[j]? = some thread) := by
  by_cases hindex : j = i
  · subst hindex
    by_cases hlt : j < threads.length
    · rw [List.getElem?_set_self hlt] at hget
      exact Or.inl ⟨rfl, (Option.some.inj hget).symm⟩
    · rw [List.getElem?_eq_none (by simpa using hlt)] at hget
      cases hget
  · rw [List.getElem?_set_ne (Ne.symm hindex)] at hget
    exact Or.inr ⟨hindex, hget⟩

/-- A step that rewrites one thread keeps the invariant if it does so for this
    thread and for what it leaves of the others. -/
theorem inv_set {s t : QspAuditNode} {i : Nat} {next : QspThread} (hinv : Inv s)
    (hthreads : t.internal_threads = s.internal_threads.set i next)
    (hnext : next.has_target = true → ThreadInv t.started t.stopping i next)
    (hothers : ∀ j thread, j ≠ i → ThreadInv s.started s.stopping j thread →
      ThreadInv t.started t.stopping j thread) : Inv t := by
  intro j thread hget htarget
  rw [hthreads] at hget
  obtain ⟨rfl, rfl⟩ | ⟨hindex, hget⟩ := get_set_cases hget
  · exact hnext htarget
  · exact hothers j thread hindex (hinv j thread hget htarget)

/-- A move of `stop` alone keeps the invariant if no thread notices it. -/
theorem inv_stopping {s : QspAuditNode} {stopping next : Stopping} (hinv : Inv s)
    (hstopping : s.stopping = stopping)
    (hpassed : ∀ j thread, s.internal_threads[j]? = some thread → thread.has_target = true →
      ThreadInv s.started stopping j thread →
        j ∉ next.skip ∧ (next.Signalled j ↔ stopping.Signalled j) ∧
          (next.Joined j → thread.pc = .dead)) :
    Inv { s with stopping := next } := by
  intro j thread hget htarget
  have hold := hinv j thread hget htarget
  rw [hstopping] at hold
  obtain ⟨hskip, hsignalled, hjoined⟩ := hpassed j thread hget htarget hold
  exact hold.passed hskip hsignalled hjoined

theorem index_lt {threads : List QspThread} {i j : Nat} {thread : QspThread}
    (hnone : threads[i]? = none) (hget : threads[j]? = some thread) : j < i := by
  have hle := List.getElem?_eq_none_iff.mp hnone
  obtain ⟨hlt, _⟩ := List.getElem?_eq_some_iff.mp hget
  omega

section
variable {s t : QspAuditNode}

theorem start_next_inv (hinv : Inv s) (hstep : start_next s = some t) : Inv t := by
  unfold start_next at hstep
  split at hstep
  · cases hstep
  · next thread hthread =>
    obtain rfl := Option.some.inj hstep
    apply inv_set hinv rfl
    · intro htarget
      have hold := hinv s.started thread hthread htarget
      have hcreated := hold.created (Nat.le_refl _)
      exact {
        created := fun hle => absurd hle (Nat.not_succ_le_self _)
        unskipped := hold.unskipped
        signalled := fun hsignalled => by
          have hbegun := (hold.signalled hsignalled).1
          simp [QspThread.begun, hcreated] at hbegun
        unsignalled := fun _ hbegun => nomatch hbegun
        joined := fun hjoined => by
          have hdead := hold.joined hjoined
          rw [hcreated] at hdead
          cases hdead }
    · intro j other _ hold
      exact { hold with created := fun hle => hold.created (Nat.le_of_succ_le hle) }

theorem thread_step_inv {i : Nat} {remote_block_number : Int} {raises : Bool} (hinv : Inv s)
    (hstep : thread_step i remote_block_number raises s = some t) : Inv t := by
  unfold thread_step at hstep
  split at hstep
  · cases hstep
  · next thread hthread =>
    obtain ⟨next, hnext, rfl⟩ := Option.map_eq_some_iff.mp hstep
    obtain ⟨hrun, hbegun, hcases⟩ := step_cases hnext
    apply inv_set hinv rfl
    · intro htarget
      have hold := hinv i thread hthread (has_target_of_run hrun ▸ htarget)
      have hstarted : ¬ s.started ≤ i := by
        intro hle
        rw [QspThread.step, hold.created hle] at hnext
        cases hnext
      have hundead : ¬ s.stopping.Joined i := by
        intro hjoined
        rw [QspThread.step, hold.joined hjoined] at hnext
        cases hnext
      cases hcases with
      | inl hfirst =>
        obtain ⟨hpc, hexec⟩ := hfirst
        have hunsignalled : ¬ s.stopping.Signalled i := by
          intro hsignalled
          have hbegun := (hold.signalled hsignalled).1
          simp [QspThread.begun, hpc] at hbegun
        exact {
          created := fun hle => absurd hle hstarted
          unskipped := hold.unskipped
          signalled := fun hsignalled => absurd hsignalled hunsignalled
          unsignalled := fun _ _ => hexec
          joined := fun hjoined => absurd hjoined hundead }
      | inr hrunning =>
        obtain ⟨hwas, _, hexec⟩ := hrunning
        exact {
          created := fun hle => absurd hle hstarted
          unskipped := hold.unskipped
          signalled := fun hsignalled => ⟨hbegun, hexec.trans (hold.signalled hsignalled).2⟩
          unsignalled := fun hunsignalled _ => hexec.trans (hold.unsignalled hunsignalled hwas)
          joined := fun hjoined => absurd hjoined hundead }
    · intro j other _ hold
      exact hold

/-- `stop` signals to a thread, or skips one that has no target function. -/
theorem signal_inv {i : Nat} {skip : List Nat} {thread : QspThread} (hinv : Inv s)
    (hstopping : s.stopping = .signalling i skip) (hthread : s.internal_threads[i]? = some thread)
    (hbegun : begun_before_signal s .stop = true)
    (hstep : (if thread.exec then
        some { s with
          internal_threads := s.internal_threads.set i { thread with exec := false }
          stopping := .signalling (i + 1) skip }
      else some { s with stopping := .signalling (i + 1) (skip ++ [i]) }) = some t) : Inv t := by
  have hbegan : thread.has_target = true → thread.begun = true := by
    intro htarget
    simpa [begun_before_signal, hstopping, hthread, htarget] using hbegun
  have hsignalled : ∀ j, j ≠ i → (j < i + 1 ↔ j < i) := by
    intro j hindex
    omega
  split at hstep
  · obtain rfl := Option.some.inj hstep
    apply inv_set hinv rfl
    · intro htarget
      have hold := hinv i thread hthread htarget
      rw [hstopping] at hold
      exact {
        created := hold.created
        unskipped := hold.unskipped
        signalled := fun _ => ⟨hbegan htarget, rfl⟩
        unsignalled := fun hunsignalled => absurd (Nat.lt_succ_self i) hunsignalled
        joined := False.elim }
    · intro j other hindex hold
      rw [hstopping] at hold
      exact hold.passed hold.unskipped (hsignalled j hindex) False.elim
  · next hexec =>
    obtain rfl := Option.some.inj hstep
    apply inv_stopping hinv hstopping
    intro j other hget htarget hold
    have hindex : j ≠ i := by
      intro heq
      subst heq
      obtain rfl := Option.some.inj (hget.symm.trans hthread)
      exact hexec (hold.unsignalled (Nat.lt_irrefl _) (hbegan htarget))
    have hskip : j ∉ skip := hold.unskipped
    exact ⟨by simp [Stopping.skip, hskip, hindex], hsignalled j hindex, False.elim⟩

/-- `stop` waits for a thread that it has signalled. -/
theorem join_inv {i : Nat} {skip : List Nat} {thread : QspThread} (hinv : Inv s)
    (hstopping : s.stopping = .joining i skip) (hthread : s.internal_threads[i]? = some thread)
    (hstep : (if i ∈ skip ∨ thread.pc = .dead then
        some { s with stopping := .joining (i + 1) skip }
      else none) = some t) : Inv t := by
  split at hstep
  · next hjoin =>
    obtain rfl := Option.some.inj hstep
    apply inv_stopping hinv hstopping
    intro j other hget _ hold
    refine ⟨hold.unskipped, Iff.rfl, ?_⟩
    intro hlt
    by_cases hindex : j = i
    · subst hindex
      obtain rfl := Option.some.inj (hget.symm.trans hthread)
      exact hjoin.resolve_left hold.unskipped
    · exact hold.joined (Nat.lt_of_le_of_ne (Nat.le_of_lt_succ hlt) hindex)
  · cases hstep

theorem stop_inv (hinv : Inv s) (hbegun : begun_before_signal s .stop = true)
    (hstep : stop s = some t) : Inv t := by
  unfold stop at hstep
  split at hstep
  · next hstopping =>
    split at hstep
    · obtain rfl := Option.some.inj hstep
      apply inv_stopping hinv hstopping
      intro j thread _ _ _
      exact ⟨List.not_mem_nil, by simp [Stopping.Signalled], False.elim⟩
    · cases hstep
  · next i skip hstopping =>
    split at hstep
    · next hnone =>
      obtain rfl := Option.some.inj hstep
      apply inv_stopping hinv hstopping
      intro j thread hget _ hold
      exact ⟨hold.unskipped, by simp [Stopping.Signalled, index_lt hnone hget], by simp [Stopping.Joined]⟩
    · next thread hthread => exact signal_inv hinv hstopping hthread hbegun hstep
  · next i skip hstopping =>
    split at hstep
    · next hnone =>
      obtain rfl := Option.some.inj hstep
      apply inv_stopping hinv hstopping
      intro j thread hget _ hold
      exact ⟨List.not_mem_nil, Iff.rfl, fun _ => hold.joined (index_lt hnone hget)⟩
    · next thread hthread => exact join_inv hinv hstopping hthread hstep
  · cases hstep
  · cases hstep

theorem close_cases (hstep : close s = some t) :
    s.stopping = .closing ∧ t = { s with stopping := .closed } := by
  unfold close at hstep
  split at hstep
  · next hstopping => exact ⟨hstopping, (Option.some.inj hstep).symm⟩
  · cases hstep

theorem close_inv (hinv : Inv s) (hstep : close s = some t) : Inv t := by
  obtain ⟨hstopping, rfl⟩ := close_cases hstep
  apply inv_stopping hinv hstopping
  intro j thread _ _ hold
  exact ⟨List.not_mem_nil, Iff.rfl, fun _ => hold.joined trivial⟩

theorem step_inv {label : Label} (hinv : Inv s) (hbegun : begun_before_signal s label = true)
    (hstep : step s label = some t) : Inv t := by
  cases label with
  | tick seconds =>
    obtain rfl := Option.some.inj hstep
    exact hinv
  | start_next => exact start_next_inv hinv hstep
  | thread i remote_block_number raises => exact thread_step_inv hinv hstep
  | stop => exact stop_inv hinv hbegun hstep
  | close => exact close_inv hinv hstep

/-- After `stop` has returned, a thread that has a target function takes no
    step. -/
theorem closed_step {label : Label} (hinv : Inv s) (hclosed : s.stopping = .closed)
    (hstep : step s label = some t) : t.stopping = .closed ∧ t.calls = s.calls := by
  cases label with
  | tick seconds =>
    obtain rfl := Option.some.inj hstep
    exact ⟨hclosed, rfl⟩
  | start_next =>
    change start_next s = some t at hstep
    unfold start_next at hstep
    split at hstep
    · cases hstep
    · obtain rfl := Option.some.inj hstep
      exact ⟨hclosed, rfl⟩
  | thread i remote_block_number raises =>
    change thread_step i remote_block_number raises s = some t at hstep
    unfold thread_step at hstep
    split at hstep
    · cases hstep
    · next thread hthread =>
      obtain ⟨next, hnext, rfl⟩ := Option.map_eq_some_iff.mp hstep
      have huntargeted : thread.has_target ≠ true := by
        intro htarget
        have hold := hinv i thread hthread htarget
        rw [hclosed] at hold
        rw [QspThread.step, hold.joined trivial] at hnext
        cases hnext
      have hrun := (step_cases hnext).1
      refine ⟨hclosed, if_neg ?_⟩
      rw [has_target_of_run hrun]
      exact fun hcall => huntargeted hcall.2
  | stop =>
    change stop s = some t at hstep
    rw [stop, hclosed] at hstep
    cases hstep
  | close =>
    obtain ⟨hclosing, _⟩ := close_cases hstep
    rw [hclosed] at hclosing
    cases hclosing

end

/-- Once `stop` has returned, no internal thread calls its target function
    again, if `stop` looked at the flag of each after its thread has set it. -/
theorem stop_final (runs : List RunMethod) (now : Int) (labels further : List Label)
    (s t : QspAuditNode)
    (hbegun : Along step (fun s label => begun_before_signal s label = true) (init runs now) labels)
    (hrun : run step (init runs now) labels = some s) (hclosed : s.stopping = .closed)
    (hfurther : run step s further = some t) : t.calls = s.calls := by
  have hinv : Inv s :=
    run_invariant_along (fun _ _ _ hinv hbegun hstep => step_inv hinv hbegun hstep)
      (init_inv runs now) hbegun hrun
  have hlast : Inv t ∧ t.stopping = .closed ∧ t.calls = s.calls := by
    apply run_invariant (motive := fun u => Inv u ∧ u.stopping = .closed ∧ u.calls = s.calls)
      ?_ ⟨hinv, hclosed, rfl⟩ hfurther
    rintro u label v ⟨hinv, hclosed, hcalls⟩ hstep
    have hbegun : begun_before_signal u label = true := by
      cases label <;> simp [begun_before_signal, hclosed]
    obtain ⟨hnext, hsame⟩ := closed_step hinv hclosed hstep
    exact ⟨step_inv hinv hbegun hstep, hnext, hsame.trans hcalls⟩
  exact hlast.2.2

/-- The threads of the node, with the metrics collection if it is enabled. -/
def internal_threads (block_mined_polling evt_polling : Int)
    (metric_collection_interval_seconds : Option Int) : List RunMethod :=
  [.block_mined_polling block_mined_polling,
    .block_mined_subscriber,
    .time_interval_polling (24 * 60 * 60) true,
    .block_mined_subscriber,
    .time_interval_polling evt_polling true,
    .time_interval_polling evt_polling true,
    .time_interval_polling evt_polling true] ++
  (metric_collection_interval_seconds.map (.time_interval_polling · false)).toList

def started_labels : List Label := .replicate 7 .start_next

def thread_labels : List Label := (List.range 7).map (.thread · 0 false)

def stop_labels : List Label :=
  started_labels ++ thread_labels ++ .replicate 9 .stop ++ thread_labels ++ .replicate 8 .stop ++ [.close]

theorem stop_final_all_begun : ∃ s,
    run step (init (internal_threads 1 5 none) 100000) stop_labels = some s ∧
      ∀ further t, run step s further = some t → t.calls = s.calls := by
  refine ⟨_, rfl, fun further t hfurther => ?_⟩
  exact stop_final (internal_threads 1 5 none) 100000 stop_labels further _ t (by decide) rfl rfl hfurther

def early_stop_labels : List Label :=
  [.start_next, .thread 0 0 false] ++ .replicate 9 .stop ++ [.thread 0 0 false] ++ .replicate 8 .stop ++
    [.close]

def late_start_labels : List Label :=
  [.start_next, .start_next, .thread 2 0 false, .thread 2 0 false, .thread 2 0 false]

/-- `stop` skips the threads that are not in their run methods yet. The one that
    claims rewards is started after it has returned. -/
theorem stop_final_late_start :
    ¬ ∀ (runs : List RunMethod) (now : Int) (labels further : List Label) (s t : QspAuditNode),
      run step (init runs now) labels = some s → s.stopping = .closed →
      run step s further = some t → t.calls = s.calls := by
  intro hfinal
  have hcalls := hfinal (internal_threads 1 5 none) 100000 early_stop_labels late_start_labels _ _ rfl
    rfl rfl
  exact absurd hcalls (by decide)

end qsp.qsp_audit_node
