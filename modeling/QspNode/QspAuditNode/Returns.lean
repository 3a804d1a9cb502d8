import QspNode.QspAuditNode.Calls

open lib.transition qsp.qsp_thread

namespace qsp.qsp_audit_node

/-- `stop` is in its last call or past it. -/
def Stopping.AtClose : Stopping → Prop
  | .closing | .closed => True
  | .running | .signalling _ _ | .joining _ _ => False

/-- What holds of a thread while `stop` runs, whenever it was called: `stop` waits
    only for threads that it has signalled in their run methods. -/
structure Stoppable (s : QspAuditNode) (i : Nat) (thread : QspThread) : Prop where
  created : s.started ≤ i → thread.pc = .created
  begun : thread.exec = true → thread.begun = true
  signalled : ¬ s.stopping.AtClose → s.stopping.Signalled i →
    i ∈ s.stopping.skip ∨ (thread.begun = true ∧ thread.exec = false)

def StopInv (s : QspAuditNode) : Prop :=
  ∀ (i : Nat) (thread : QspThread), s.internal_threads[i]? = some thread → Stoppable s i thread

/-- The steps that a signalled thread takes at most before it dies. -/
def rank (thread : QspThread) : Nat :=
  match thread.pc with
  | .created | .started | .dead => 0
  | .test => 1
  | .call => 2
  | .body => 3

/-- The steps of `stop` before its last call. -/
def Stopping.phase (threads : Nat) : Stopping → Nat
  | .running => 2 * threads + 3
  | .signalling i _ => (threads - i) + threads + 2
  | .joining i _ => (threads - i) + 1
  | .closing | .closed => 0

def remaining (s : QspAuditNode) : Nat :=
  s.stopping.phase s.internal_threads.length + total rank s.internal_threads

section
variable {s t : QspAuditNode} {label : Label} {i : Nat} {thread next : QspThread}

theorem init_stopInv (runs : List RunMethod) (now : Int) : StopInv (init runs now) := by
  intro i thread hthread
  obtain ⟨run, _, rfl⟩ := Option.map_eq_some_iff.mp (List.getElem?_map .. ▸ hthread)
  exact ⟨fun _ => rfl, fun hexec => (nomatch hexec), fun _ hsignalled => False.elim hsignalled⟩

/-- A step of a thread keeps what holds of it while `stop` stands still. -/
theorem Stoppable.touched (hstoppable : Stoppable s i thread) (hadvances : Advances s t)
    (hstopping : t.stopping = s.stopping) (htouch : Touch s t i thread next) : Stoppable t i next := by
  obtain ⟨hcreated, hbegun, hsignalled⟩ := hstoppable
  have hstarted := hadvances.started
  cases htouch with
  | kept hnext _ =>
    subst hnext
    exact ⟨fun hle => hcreated (by omega), hbegun, by rwa [hstopping]⟩
  | signalled hnext _ =>
    subst hnext
    refine ⟨fun hle => hcreated (by omega), fun hexec => by simp at hexec, ?_⟩
    rw [hstopping]
    exact fun hopen hpast => (hsignalled hopen hpast).imp_right (fun h => ⟨h.1, rfl⟩)
  | started hfirst hnext _ =>
    subst hnext
    have hpc := hcreated (Nat.le_of_eq hfirst.1)
    have hunbegun : thread.begun = false := by simp [QspThread.begun, hpc]
    refine ⟨fun hle => by omega, ?_, ?_⟩
    · intro hexec
      rw [hbegun hexec] at hunbegun
      cases hunbegun
    · rw [hstopping]
      intro hopen hpast
      refine (hsignalled hopen hpast).imp_right (fun h => ?_)
      rw [hunbegun] at h
      cases h.1
  | stepped raises hstep _ =>
    obtain ⟨_, hnext, hcases⟩ := step_cases hstep
    refine ⟨?_, fun _ => hnext, ?_⟩
    · intro hle
      rw [QspThread.step, hcreated (by omega)] at hstep
      cases hstep
    · rw [hstopping]
      intro hopen hpast
      refine (hsignalled hopen hpast).imp_right (fun h => ⟨hnext, ?_⟩)
      rcases hcases with ⟨hpc, _⟩ | ⟨_, _, hexec⟩
      · simp [QspThread.begun, hpc] at h
      · exact hexec.trans h.2

theorem stop_stopInv (hinv : StopInv s) (hstep : stop s = some t) : StopInv t := by
  cases stop_cases hstep with
  | called hstopping ht =>
    subst ht
    intro i thread hthread
    obtain ⟨hcreated, hbegun, _⟩ := hinv i thread hthread
    exact ⟨hcreated, hbegun, fun _ hpast => absurd hpast (Nat.not_lt_zero i)⟩
  | signalled j skip other hstopping hother hexec ht =>
    subst ht
    intro i thread hthread
    rcases get_set_cases hthread with ⟨rfl, rfl⟩ | ⟨hindex, hthread⟩
    · obtain ⟨hcreated, hbegun, _⟩ := hinv i other hother
      exact ⟨hcreated, fun hexec => by simp at hexec, fun _ _ => Or.inr ⟨hbegun hexec, rfl⟩⟩
    · obtain ⟨hcreated, hbegun, hsignalled⟩ := hinv i thread hthread
      rw [hstopping] at hsignalled
      refine ⟨hcreated, hbegun, fun _ hpast => hsignalled id ?_⟩
      simp only [Stopping.Signalled] at hpast ⊢
      omega
  | skipped j skip other hstopping hother hexec ht =>
    subst ht
    intro i thread hthread
    obtain ⟨hcreated, hbegun, hsignalled⟩ := hinv i thread hthread
    rw [hstopping] at hsignalled
    refine ⟨hcreated, hbegun, fun _ hpast => ?_⟩
    simp only [Stopping.Signalled, Stopping.skip] at hpast hsignalled ⊢
    by_cases hindex : i = j
    · exact Or.inl (by simp [hindex])
    · exact (hsignalled id (by omega)).imp_left (List.mem_append_left _)
  | all_signalled j skip hstopping hnone ht =>
    subst ht
    intro i thread hthread
    obtain ⟨hcreated, hbegun, hsignalled⟩ := hinv i thread hthread
    rw [hstopping] at hsignalled
    exact ⟨hcreated, hbegun, fun _ _ => hsignalled id (index_lt hnone hthread)⟩
  | joined j skip other hstopping hother hjoin ht =>
    subst ht
    intro i thread hthread
    obtain ⟨hcreated, hbegun, hsignalled⟩ := hinv i thread hthread
    rw [hstopping] at hsignalled
    exact ⟨hcreated, hbegun, fun _ hpast => hsignalled id hpast⟩
  | all_joined j skip hstopping hnone ht =>
    subst ht
    intro i thread hthread
    obtain ⟨hcreated, hbegun, _⟩ := hinv i thread hthread
    exact ⟨hcreated, hbegun, fun hopen _ => absurd trivial hopen⟩

theorem close_stopInv (hinv : StopInv s) (hstep : close s = some t) : StopInv t := by
  obtain ⟨_, rfl⟩ := close_cases hstep
  intro i thread hthread
  obtain ⟨hcreated, hbegun, _⟩ := hinv i thread hthread
  exact ⟨hcreated, hbegun, fun hopen _ => absurd trivial hopen⟩

theorem step_length (hstep : step s label = some t) :
    t.internal_threads.length = s.internal_threads.length := by
  cases label with
  | tick seconds =>
    obtain rfl := Option.some.inj hstep
    rfl
  | start_next =>
    obtain ⟨_, _, rfl⟩ := start_next_cases hstep
    exact List.length_set
  | thread j remote_block_number raises =>
    obtain ⟨_, _, _, _, rfl⟩ := thread_step_cases hstep
    exact List.length_set
  | stop =>
    cases stop_cases hstep with
    | called _ ht | all_signalled _ _ _ _ ht | all_joined _ _ _ _ ht | skipped _ _ _ _ _ _ ht
    | joined _ _ _ _ _ _ ht =>
      subst ht
      rfl
    | signalled _ _ _ _ _ _ ht =>
      subst ht
      exact List.length_set
  | close =>
    obtain ⟨_, rfl⟩ := close_cases hstep
    rfl

theorem stopping_of_step (hstep : step s label = some t) (hstop : label ≠ .stop) (hclose : label ≠ .close) :
    t.stopping = s.stopping := by
  cases label with
  | tick seconds =>
    obtain rfl := Option.some.inj hstep
    rfl
  | start_next =>
    obtain ⟨_, _, rfl⟩ := start_next_cases hstep
    rfl
  | thread j remote_block_number raises =>
    obtain ⟨_, _, _, _, rfl⟩ := thread_step_cases hstep
    rfl
  | stop => exact absurd rfl hstop
  | close => exact absurd rfl hclose

theorem step_stopInv (hinv : StopInv s) (hstep : step s label = some t) : StopInv t := by
  by_cases hstop : label = .stop
  · subst hstop
    exact stop_stopInv hinv hstep
  by_cases hclose : label = .close
  · subst hclose
    exact close_stopInv hinv hstep
  · have hstopping := stopping_of_step hstep hstop hclose
    intro i next hnext
    have hlt : i < s.internal_threads.length :=
      step_length hstep ▸ (List.getElem?_eq_some_iff.mp hnext).1
    have hthread : s.internal_threads[i]? = some s.internal_threads[i] := List.getElem?_eq_getElem hlt
    obtain ⟨next', hnext', htouch⟩ := step_touch hthread hstep
    obtain rfl := Option.some.inj (hnext.symm.trans hnext')
    exact (hinv i _ hthread).touched (step_advances hstep) hstopping htouch

/-- A signalled thread comes closer to its end. -/
theorem signalled_step (now current_block : Int) (hbegun : thread.begun = true)
    (hexec : thread.exec = false) (hpc : thread.pc ≠ .dead) :
    ∃ next, thread.step now current_block false = some next ∧ rank next < rank thread := by
  unfold QspThread.step
  cases hwhere : thread.pc with
  | created | started => simp [QspThread.begun, hwhere] at hbegun
  | dead => exact absurd hwhere hpc
  | test => exact ⟨_, rfl, by simp [rank, hwhere, hexec]⟩
  | call => exact ⟨_, rfl, by simp [rank, hwhere]⟩
  | body =>
    refine ⟨_, rfl, ?_⟩
    rcases (loop_body_frame now current_block thread).2.2 with hnext | hnext <;>
      simp [rank, hwhere, hnext]

/-- `stop` goes on, or the thread that it waits for does. -/
theorem stop_progress (hinv : StopInv s) (hcalled : s.stopping ≠ .running)
    (hopen : ¬ s.stopping.AtClose) :
    ∃ label t, (label = .stop ∨ ∃ i, label = .thread i 0 false) ∧ step s label = some t ∧
      (StopInv t ∧ t.stopping ≠ .running) ∧ remaining t < remaining s := by
  cases hstopping : s.stopping with
  | running => exact absurd hstopping hcalled
  | closing | closed => exact absurd (hstopping ▸ trivial) hopen
  | signalling i skip =>
    cases hthread : s.internal_threads[i]? with
    | none =>
      have hstep : step s .stop = some { s with stopping := .joining 0 skip } := by
        simp only [step, stop, hstopping, hthread]
      have hlength := List.getElem?_eq_none_iff.mp hthread
      refine ⟨_, _, Or.inl rfl, hstep, ⟨step_stopInv hinv hstep, by simp⟩, ?_⟩
      simp only [remaining, hstopping, Stopping.phase]
      omega
    | some thread =>
      have hlt := (List.getElem?_eq_some_iff.mp hthread).1
      cases hexec : thread.exec with
      | true =>
        have hstep : step s .stop = some { s with
            internal_threads := s.internal_threads.set i { thread with exec := false }
            stopping := .signalling (i + 1) skip } := by
          simp only [step, stop, hstopping, hthread, hexec, if_true]
        have htotal := total_set rank hthread { thread with exec := false }
        have hrank : rank { thread with exec := false } = rank thread := rfl
        refine ⟨_, _, Or.inl rfl, hstep, ⟨step_stopInv hinv hstep, by simp⟩, ?_⟩
        simp only [remaining, hstopping, Stopping.phase, List.length_set]
        omega
      | false =>
        have hstep : step s .stop = some { s with stopping := .signalling (i + 1) (skip ++ [i]) } := by
          simp [step, stop, hstopping, hthread, hexec]
        refine ⟨_, _, Or.inl rfl, hstep, ⟨step_stopInv hinv hstep, by simp⟩, ?_⟩
        simp only [remaining, hstopping, Stopping.phase]
        omega
  | joining i skip =>
    cases hthread : s.internal_threads[i]? with
    | none =>
      have hstep : step s .stop = some { s with stopping := .closing } := by
        simp only [step, stop, hstopping, hthread]
      refine ⟨_, _, Or.inl rfl, hstep, ⟨step_stopInv hinv hstep, by simp⟩, ?_⟩
      simp only [remaining, hstopping, Stopping.phase]
      omega
    | some thread =>
      have hlt := (List.getElem?_eq_some_iff.mp hthread).1
      by_cases hjoin : i ∈ skip ∨ thread.pc = .dead
      · have hstep : step s .stop = some { s with stopping := .joining (i + 1) skip } := by
          simp only [step, stop, hstopping, hthread, if_pos hjoin]
        refine ⟨_, _, Or.inl rfl, hstep, ⟨step_stopInv hinv hstep, by simp⟩, ?_⟩
        simp only [remaining, hstopping, Stopping.phase]
        omega
      · have hsignalled := (hinv i thread hthread).signalled hopen (by rw [hstopping]; trivial)
        rw [hstopping] at hsignalled
        obtain ⟨hbegun, hexec⟩ := hsignalled.resolve_left (fun h => hjoin (Or.inl h))
        obtain ⟨next, hnext, hless⟩ := signalled_step s.now s.current_block hbegun hexec
          (fun hdead => hjoin (Or.inr hdead))
        have htotal := total_set rank hthread next
        have hstep : ∃ t, step s (.thread i 0 false) = some t ∧ t.stopping = s.stopping ∧
            t.internal_threads = s.internal_threads.set i next := by
          simp only [step, thread_step, hthread, hnext, Option.map_some, Option.some.injEq,
            exists_eq_left', and_self]
        obtain ⟨t, hstep, hsame, hthreads⟩ := hstep
        refine ⟨_, t, Or.inr ⟨i, rfl⟩, hstep,
          ⟨step_stopInv hinv hstep, by simp [hsame, hstopping]⟩, ?_⟩
        simp only [remaining, hsame, hthreads, List.length_set]
        omega

theorem total_rank_le (threads : List QspThread) : total rank threads ≤ 3 * threads.length := by
  induction threads with
  | nil => exact Nat.le_refl 0
  | cons thread threads ih =>
    have hrank : rank thread ≤ 3 := by
      unfold rank
      cases thread.pc <;> simp
    simp only [total, List.length_cons] at ih ⊢
    omega

end

/-- Once called, `stop` never waits for ever on a thread while the target functions
    return: a bounded number of its steps and of steps of the threads that it waits for
    lead to its last call, whatever it interrupts. -/
theorem stop_reaches_close {runs : List RunMethod} {now : Int} {labels : List Label} {s : QspAuditNode}
    (hrun : run step (init runs now) labels = some s) (hcalled : s.stopping ≠ .running) :
    ∃ further t, run step s further = some t ∧ t.stopping.AtClose ∧
      further.length ≤ 5 * runs.length + 2 ∧
      ∀ label ∈ further, label = .stop ∨ ∃ i, label = .thread i 0 false := by
  have hinv : StopInv s ∧ s.internal_threads.length = runs.length :=
    run_invariant (motive := fun u => StopInv u ∧ u.internal_threads.length = runs.length)
      (fun u label v hu hstep => ⟨step_stopInv hu.1 hstep, (step_length hstep).trans hu.2⟩)
      ⟨init_stopInv runs now, by simp [init]⟩ hrun
  obtain ⟨further, t, hfurther, _, hclosing, hlength, hall⟩ :=
    @exists_run_within _ _ step (fun u => StopInv u ∧ u.stopping ≠ .running)
      (fun u => u.stopping.AtClose) (fun label => label = .stop ∨ ∃ i, label = .thread i 0 false)
      remaining
      (fun u hu hopen => stop_progress hu.1 hu.2 hopen) s ⟨hinv.1, hcalled⟩
  refine ⟨further, t, hfurther, hclosing, Nat.le_trans hlength ?_, hall⟩
  have hrank := total_rank_le s.internal_threads
  rw [hinv.2] at hrank
  rw [remaining, hinv.2]
  cases hstopping : s.stopping with
  | running => exact absurd hstopping hcalled
  | closing | closed => simp only [Stopping.phase]; omega
  | signalling i skip => simp only [Stopping.phase]; omega
  | joining i skip => simp only [Stopping.phase]; omega

/-- `stop` interrupts the loop of `start`, while one thread runs and another one has
    not begun. -/
def interrupted_labels : List Label := [.start_next, .start_next, .thread 0 0 false, .stop]

theorem stop_reaches_close_interrupted : ∃ further t,
    run step ((run step (init (internal_threads 1 5 none) 100000) interrupted_labels).get rfl)
        further = some t ∧ t.stopping.AtClose ∧ further.length ≤ 37 ∧
      ∀ label ∈ further, label = .stop ∨ ∃ i, label = .thread i 0 false :=
  stop_reaches_close (Option.some_get _).symm (by decide)

end qsp.qsp_audit_node
