import QspNode.QspAuditNode.Returns

open lib.transition qsp.qsp_thread

namespace qsp.qsp_audit_node

/-- Where the main thread is from the call of `start` on: before the internal threads
    are started, at the next one to start, in its health check at a thread, in the
    pause after it, in `stop`, or at its call of `exit`. -/
inductive Main where
  | preparing
  | starting
  | checking (i : Nat)
  | sleeping
  | stopping (code : Nat)
  | exiting (code : Nat)
  deriving DecidableEq, Repr

/-- The process from the call of `start` on, which runs the node on its main thread.
    The interpreter does not end before the threads that are still running. -/
structure Process where
  node : QspAuditNode
  main : Main
  deriving DecidableEq, Repr

def Process.init (runs : List RunMethod) (now : Int) : Process :=
  { node := qsp_audit_node.init runs now, main := .preparing }

/-- The code with which the main thread is about to exit, once it is in `stop`. -/
def Main.exit_code : Main → Option Nat
  | .stopping code | .exiting code => some code
  | .preparing | .starting | .checking _ | .sleeping => none

/-- `Thread.is_alive`. -/
def is_alive (thread : QspThread) : Bool := thread.pc ≠ .created ∧ thread.pc ≠ .dead

/-- `stop` is called, also while it runs already. -/
def Process.call_stop (code : Nat) (s : Process) : Process :=
  { node := { s.node with stopping := .signalling 0 [] }, main := .stopping code }

/-- The next step of the main thread. The checks of `start` before its loops may
    raise, and the health check raises for a thread that is not alive; `Program.run`
    then stops the node, and the code of the process is 1. -/
def Process.main_step (raises : Bool) (s : Process) : Option Process :=
  match s.main with
  | .preparing => some (if raises then s.call_stop 1 else { s with main := .starting })
  | .starting =>
    match start_next s.node with
    | some node => some { s with node }
    | none => some { s with main := .checking 0 }
  | .checking i =>
    match s.node.internal_threads[i]? with
    | none => some { s with main := .sleeping }
    | some thread => some (if is_alive thread then { s with main := .checking (i + 1) } else s.call_stop 1)
  | .sleeping => some { s with main := .checking 0 }
  | .stopping code =>
    match s.node.stopping with
    | .closed => some { s with main := .exiting code }
    | _ => (stop s.node).map (fun node => { s with node })
  | .exiting _ => none

inductive ProcessLabel where
  | tick (seconds : Nat)
  | thread (i : Nat) (remote_block_number : Int) (raises : Bool)
  | main (raises : Bool)
  | close
  | sigterm
  deriving DecidableEq, Repr

/-- A signal interrupts the main thread wherever it is. Its handler stops the node
    and exits with code 0; while it runs, a further signal does nothing. -/
def process_step (s : Process) : ProcessLabel → Option Process
  | .tick seconds => (step s.node (.tick seconds)).map (fun node => { s with node })
  | .thread i remote_block_number raises =>
    (thread_step i remote_block_number raises s.node).map (fun node => { s with node })
  | .main raises => s.main_step raises
  | .close => (close s.node).map (fun node => { s with node })
  | .sigterm =>
    match s.main with
    | .exiting _ => none
    | .stopping 0 => some s
    | _ => some (s.call_stop 0)

/-- A failure: the checks of `start` raise, or a thread does, in its target function
    or where it reads the number of the last block. -/
def Fails (s : Process) : ProcessLabel → Prop
  | .main raises => s.main = .preparing ∧ raises = true
  | .thread i _ raises =>
    ∃ thread, s.node.internal_threads[i]? = some thread ∧ thread.pc = .call ∧ raises = true
  | .tick _ | .close | .sigterm => False

/-- What holds of the process up to the call of `stop`, and what brings it there. -/
structure Watched (failed : Prop) (s : Process) : Prop where
  started : ∀ (i : Nat) (thread : QspThread), s.node.internal_threads[i]? = some thread →
    i < s.node.started → thread.pc ≠ .created
  all_started : (∃ i, s.main = .checking i) ∨ s.main = .sleeping →
    s.node.internal_threads.length ≤ s.node.started
  running : s.main.exit_code = none → ∀ (i : Nat) (thread : QspThread),
    s.node.internal_threads[i]? = some thread → thread.begun = true → thread.exec = true
  died : s.main.exit_code = none → ∀ (i : Nat) (thread : QspThread),
    s.node.internal_threads[i]? = some thread → thread.pc = .dead → failed
  stopped : s.main.exit_code = some 1 → failed

/-- What a step of the main thread can do. -/
inductive MainMoves (raises : Bool) (s t : Process) : Prop where
  | raised (hmain : s.main = .preparing) (hraises : raises = true) (ht : t = s.call_stop 1)
  | prepared (hmain : s.main = .preparing) (ht : t = { s with main := .starting })
  | starts (node : QspAuditNode) (hmain : s.main = .starting) (hstart : start_next s.node = some node)
      (ht : t = { s with node })
  | all_started (hmain : s.main = .starting) (hnone : s.node.internal_threads[s.node.started]? = none)
      (ht : t = { s with main := .checking 0 })
  | found_alive (i : Nat) (thread : QspThread) (hmain : s.main = .checking i)
      (hthread : s.node.internal_threads[i]? = some thread) (halive : is_alive thread = true)
      (ht : t = { s with main := .checking (i + 1) })
  | found_lost (i : Nat) (thread : QspThread) (hmain : s.main = .checking i)
      (hthread : s.node.internal_threads[i]? = some thread) (hlost : is_alive thread = false)
      (ht : t = s.call_stop 1)
  | all_checked (i : Nat) (hmain : s.main = .checking i) (hnone : s.node.internal_threads[i]? = none)
      (ht : t = { s with main := .sleeping })
  | wakes (hmain : s.main = .sleeping) (ht : t = { s with main := .checking 0 })
  | stops (code : Nat) (node : QspAuditNode) (hmain : s.main = .stopping code)
      (hstop : stop s.node = some node) (ht : t = { s with node })
  | exits (code : Nat) (hmain : s.main = .stopping code) (ht : t = { s with main := .exiting code })

section
variable {s t : Process} {label : ProcessLabel} {failed : Prop}

theorem main_step_cases {raises : Bool} (hstep : s.main_step raises = some t) : MainMoves raises s t := by
  unfold Process.main_step at hstep
  cases hmain : s.main with
  | preparing =>
    simp only [hmain, Option.some.injEq] at hstep
    cases hraises : raises with
    | true => exact .raised hmain rfl (by simpa [hraises] using hstep.symm)
    | false => exact .prepared hmain (by simpa [hraises] using hstep.symm)
  | starting =>
    simp only [hmain] at hstep
    cases hstart : start_next s.node with
    | some node => exact .starts node hmain hstart (by simpa [hstart, hmain] using hstep.symm)
    | none =>
      refine .all_started hmain ?_ (by simpa [hstart] using hstep.symm)
      unfold start_next at hstart
      split at hstart
      · assumption
      · cases hstart
  | checking i =>
    simp only [hmain] at hstep
    cases hthread : s.node.internal_threads[i]? with
    | none => exact .all_checked i hmain hthread (by simpa [hthread] using hstep.symm)
    | some thread =>
      simp only [hthread, Option.some.injEq] at hstep
      cases halive : is_alive thread with
      | true => exact .found_alive i thread hmain hthread halive (by simpa [halive] using hstep.symm)
      | false => exact .found_lost i thread hmain hthread halive (by simpa [halive] using hstep.symm)
  | sleeping => exact .wakes hmain (by simpa [hmain] using hstep.symm)
  | stopping code =>
    simp only [hmain] at hstep
    split at hstep
    · exact .exits code hmain (Option.some.inj hstep).symm
    · obtain ⟨node, hstop, ht⟩ := Option.map_eq_some_iff.mp hstep
      exact .stops code node hmain hstop (by simpa [hmain] using ht.symm)
  | exiting code => simp [hmain] at hstep

theorem step_dead {now current_block : Int} {raises : Bool} {thread next : QspThread}
    (hstep : thread.step now current_block raises = some next) (hdead : next.pc = .dead) :
    (thread.begun = true ∧ thread.exec = false) ∨ (thread.pc = .call ∧ raises = true) := by
  unfold QspThread.step at hstep
  cases hpc : thread.pc with
  | created | dead => simp [hpc] at hstep
  | started =>
    simp only [hpc, Option.some.injEq] at hstep
    subst hstep
    simp [QspThread.begin] at hdead
  | test =>
    simp only [hpc, Option.some.injEq] at hstep
    subst hstep
    exact .inl ⟨by simp [QspThread.begun, hpc], by simpa using hdead⟩
  | body =>
    simp only [hpc, Option.some.injEq] at hstep
    subst hstep
    rcases (loop_body_frame now current_block thread).2.2 with hnext | hnext <;> simp [hnext] at hdead
  | call =>
    simp only [hpc, Option.some.injEq] at hstep
    subst hstep
    exact .inr ⟨rfl, by simpa using hdead⟩

theorem init_watched (runs : List RunMethod) (now : Int) : Watched False (Process.init runs now) := by
  have hcreated : ∀ (i : Nat) (thread : QspThread),
      (qsp_audit_node.init runs now).internal_threads[i]? = some thread →
      thread.pc = .created ∧ thread.begun = false := by
    intro i thread hthread
    obtain ⟨run, _, rfl⟩ := Option.map_eq_some_iff.mp (List.getElem?_map .. ▸ hthread)
    exact ⟨rfl, rfl⟩
  refine ⟨fun i thread _ hlt => absurd hlt (Nat.not_lt_zero i), by simp [Process.init], ?_, ?_, by
    simp [Process.init, Main.exit_code]⟩
  · intro _ i thread hthread hbegun
    rw [(hcreated i thread hthread).2] at hbegun
    cases hbegun
  · intro _ i thread hthread hdead
    rw [(hcreated i thread hthread).1] at hdead
    cases hdead

theorem Watched.mono (hwatched : Watched failed s) {failed' : Prop} (himp : failed → failed') :
    Watched failed' s where
  started := hwatched.started
  all_started := hwatched.all_started
  running := hwatched.running
  died := fun hcode i thread hthread hdead => himp (hwatched.died hcode i thread hthread hdead)
  stopped := fun hcode => himp (hwatched.stopped hcode)

/-- Moving the main thread alone, without a call of `stop`. -/
theorem Watched.moved (hwatched : Watched failed s) {main : Main}
    (hall : (∃ i, main = .checking i) ∨ main = .sleeping →
      s.node.internal_threads.length ≤ s.node.started)
    (hcode : main.exit_code = s.main.exit_code) : Watched failed { s with main } :=
  ⟨hwatched.started, hall, fun h => hwatched.running (hcode ▸ h), fun h => hwatched.died (hcode ▸ h),
    fun h => hwatched.stopped (hcode ▸ h)⟩

theorem Watched.calls_stop (hwatched : Watched failed s) (code : Nat) {failed' : Prop}
    (hfailed : code = 1 → failed') : Watched failed' (s.call_stop code) :=
  ⟨hwatched.started, by simp [Process.call_stop], by simp [Process.call_stop, Main.exit_code],
    by simp [Process.call_stop, Main.exit_code],
    fun h => hfailed (by simpa [Process.call_stop, Main.exit_code] using h)⟩

theorem Watched.starts (hwatched : Watched failed s) (hmain : s.main = .starting)
    {node : QspAuditNode} (hstart : start_next s.node = some node) : Watched failed { s with node } := by
  obtain ⟨thread, hthread, rfl⟩ := start_next_cases hstart
  refine ⟨?_, by simp [hmain], ?_, ?_, hwatched.stopped⟩
  · intro i other hother hlt
    obtain ⟨rfl, rfl⟩ | ⟨hindex, hother⟩ := get_set_cases hother
    · simp
    · exact hwatched.started i other hother (by dsimp only at hlt; omega)
  · intro hcode i other hother hbegun
    obtain ⟨rfl, rfl⟩ | ⟨hindex, hother⟩ := get_set_cases hother
    · simp [QspThread.begun] at hbegun
    · exact hwatched.running hcode i other hother hbegun
  · intro hcode i other hother hdead
    obtain ⟨rfl, rfl⟩ | ⟨hindex, hother⟩ := get_set_cases hother
    · cases hdead
    · exact hwatched.died hcode i other hother hdead

theorem Watched.thread_steps (hwatched : Watched failed s) {i : Nat} {remote_block_number : Int}
    {raises : Bool} {node : QspAuditNode}
    (hstep : thread_step i remote_block_number raises s.node = some node) :
    Watched (failed ∨ Fails s (.thread i remote_block_number raises)) { s with node } := by
  obtain ⟨thread, next, hthread, hnext, rfl⟩ := thread_step_cases hstep
  obtain ⟨_, hbegun, hcases⟩ := step_cases hnext
  refine ⟨?_, ?_, ?_, ?_, fun h => .inl (hwatched.stopped h)⟩
  · intro j other hother hlt
    obtain ⟨rfl, rfl⟩ | ⟨hindex, hother⟩ := get_set_cases hother
    · intro hcreated
      simp [QspThread.begun, hcreated] at hbegun
    · exact hwatched.started j other hother hlt
  · rw [List.length_set]
    exact hwatched.all_started
  · intro hcode j other hother hwas
    obtain ⟨rfl, rfl⟩ | ⟨hindex, hother⟩ := get_set_cases hother
    · obtain ⟨_, hexec⟩ | ⟨hthreadBegun, _, hexec⟩ := hcases
      · exact hexec
      · exact hexec.trans (hwatched.running hcode j thread hthread hthreadBegun)
    · exact hwatched.running hcode j other hother hwas
  · intro hcode j other hother hdead
    obtain ⟨rfl, rfl⟩ | ⟨hindex, hother⟩ := get_set_cases hother
    · obtain ⟨hthreadBegun, hexec⟩ | ⟨hcall, hraises⟩ := step_dead hnext hdead
      · rw [hwatched.running hcode j thread hthread hthreadBegun] at hexec
        cases hexec
      · exact .inr ⟨thread, hthread, hcall, hraises⟩
    · exact .inl (hwatched.died hcode j other hother hdead)

/-- `stop` only changes flags. -/
theorem stop_keeps {node next : QspAuditNode} (hstop : stop node = some next) :
    next.started = node.started ∧
      ∀ (i : Nat) (thread : QspThread), next.internal_threads[i]? = some thread →
        ∃ old, node.internal_threads[i]? = some old ∧ thread.pc = old.pc := by
  cases stop_cases hstop with
  | called _ h | all_signalled _ _ _ _ h | all_joined _ _ _ _ h | skipped _ _ _ _ _ _ h
  | joined _ _ _ _ _ _ h =>
    subst h
    exact ⟨rfl, fun i thread hthread => ⟨thread, hthread, rfl⟩⟩
  | signalled j skip old _ hold _ h =>
    subst h
    refine ⟨rfl, fun i thread hthread => ?_⟩
    obtain ⟨rfl, rfl⟩ | ⟨_, hthread⟩ := get_set_cases hthread
    · exact ⟨old, hold, rfl⟩
    · exact ⟨thread, hthread, rfl⟩

theorem Watched.stops (hwatched : Watched failed s) {code : Nat} (hmain : s.main = .stopping code)
    {node : QspAuditNode} (hstop : stop s.node = some node) : Watched failed { s with node } := by
  obtain ⟨hstarted, hthreads⟩ := stop_keeps hstop
  refine ⟨?_, by simp [hmain], by simp [hmain, Main.exit_code], by simp [hmain, Main.exit_code],
    hwatched.stopped⟩
  intro i thread hthread hlt
  obtain ⟨old, hold, hpc⟩ := hthreads i thread hthread
  rw [hpc]
  exact hwatched.started i old hold (hstarted ▸ hlt)

theorem Watched.main_steps (hwatched : Watched failed s) {raises : Bool}
    (hstep : s.main_step raises = some t) : Watched (failed ∨ Fails s (.main raises)) t := by
  have hkeeps : Watched (failed ∨ Fails s (.main raises)) s := hwatched.mono Or.inl
  cases main_step_cases hstep with
  | raised hmain hraises ht =>
    subst ht
    exact hkeeps.calls_stop 1 (fun _ => .inr ⟨hmain, hraises⟩)
  | prepared hmain ht =>
    subst ht
    exact hkeeps.moved (by simp) (by simp [hmain, Main.exit_code])
  | starts node hmain hstart ht =>
    subst ht
    exact hkeeps.starts hmain hstart
  | all_started hmain hnone ht =>
    subst ht
    exact hkeeps.moved (fun _ => List.getElem?_eq_none_iff.mp hnone) (by simp [hmain, Main.exit_code])
  | found_alive i thread hmain hthread halive ht =>
    subst ht
    have hall := hwatched.all_started (.inl ⟨i, hmain⟩)
    exact hkeeps.moved (fun _ => hall) (by simp [hmain, Main.exit_code])
  | found_lost i thread hmain hthread hlost ht =>
    subst ht
    have hall := hwatched.all_started (.inl ⟨i, hmain⟩)
    have hlt := (List.getElem?_eq_some_iff.mp hthread).1
    have hcreated := hwatched.started i thread hthread (Nat.lt_of_lt_of_le hlt hall)
    have hdead : thread.pc = .dead := by simpa [is_alive, hcreated] using hlost
    exact hkeeps.calls_stop 1
      (fun _ => .inl (hwatched.died (by simp [hmain, Main.exit_code]) i thread hthread hdead))
  | all_checked i hmain hnone ht =>
    subst ht
    have hall := hwatched.all_started (.inl ⟨i, hmain⟩)
    exact hkeeps.moved (fun _ => hall) (by simp [hmain, Main.exit_code])
  | wakes hmain ht =>
    subst ht
    exact hkeeps.moved (fun _ => hwatched.all_started (.inr hmain)) (by simp [hmain, Main.exit_code])
  | stops code node hmain hstop ht =>
    subst ht
    exact hkeeps.stops hmain hstop
  | exits code hmain ht =>
    subst ht
    exact hkeeps.moved (by simp) (by simp [hmain, Main.exit_code])

theorem Watched.step (hwatched : Watched failed s) (hstep : process_step s label = some t) :
    Watched (failed ∨ Fails s label) t := by
  have hkeeps : Watched (failed ∨ Fails s label) s := hwatched.mono Or.inl
  cases label with
  | tick seconds =>
    cases hstep
    exact ⟨hkeeps.started, hkeeps.all_started, hkeeps.running, hkeeps.died, hkeeps.stopped⟩
  | close =>
    obtain ⟨node, hnode, rfl⟩ := Option.map_eq_some_iff.mp hstep
    obtain ⟨_, rfl⟩ := close_cases hnode
    exact ⟨hkeeps.started, hkeeps.all_started, hkeeps.running, hkeeps.died, hkeeps.stopped⟩
  | thread i remote_block_number raises =>
    obtain ⟨node, hnode, rfl⟩ := Option.map_eq_some_iff.mp hstep
    exact hwatched.thread_steps hnode
  | main raises => exact hwatched.main_steps hstep
  | sigterm =>
    simp only [process_step] at hstep
    split at hstep
    · cases hstep
    · cases hstep
      exact hkeeps
    · cases hstep
      exact hwatched.calls_stop 0 (by simp)

/-- A signal decides the exit code. Nothing else takes it back. -/
theorem process_step_exit_code (hstep : process_step s label = some t) :
    (label = .sigterm ∧ t.main.exit_code = some 0) ∨
      (label ≠ .sigterm ∧ (t.main.exit_code = s.main.exit_code ∨
        s.main.exit_code = none ∧ t.main.exit_code = some 1)) := by
  cases label with
  | tick seconds =>
    cases hstep
    exact .inr ⟨by simp, .inl rfl⟩
  | thread i remote_block_number raises | close =>
    obtain ⟨node, _, rfl⟩ := Option.map_eq_some_iff.mp hstep
    exact .inr ⟨by simp, .inl rfl⟩
  | sigterm =>
    refine .inl ⟨rfl, ?_⟩
    simp only [process_step] at hstep
    split at hstep
    · cases hstep
    · next hmain =>
      cases hstep
      rw [hmain]
      rfl
    · cases hstep
      rfl
  | main raises =>
    refine .inr ⟨by simp, ?_⟩
    cases main_step_cases hstep with
    | raised hmain _ ht | found_lost _ _ hmain _ _ ht =>
      right
      rw [ht, hmain]
      exact ⟨rfl, rfl⟩
    | starts _ hmain _ ht | stops _ _ hmain _ ht => exact .inl (by rw [ht])
    | prepared hmain ht | all_started hmain _ ht | found_alive _ _ hmain _ _ ht | all_checked _ hmain _ ht
    | wakes hmain ht | exits _ hmain ht =>
      left
      rw [ht, hmain]
      rfl

/-- The node takes its own steps in the process, apart from the call of `stop`. -/
theorem process_step_node (hstep : process_step s label = some t) :
    t.node = s.node ∨ t.node = { s.node with stopping := .signalling 0 [] } ∨
      ∃ l, qsp_audit_node.step s.node l = some t.node := by
  cases label with
  | tick seconds =>
    cases hstep
    exact .inr (.inr ⟨.tick seconds, rfl⟩)
  | thread i remote_block_number raises =>
    obtain ⟨node, hnode, rfl⟩ := Option.map_eq_some_iff.mp hstep
    exact .inr (.inr ⟨.thread i remote_block_number raises, hnode⟩)
  | close =>
    obtain ⟨node, hnode, rfl⟩ := Option.map_eq_some_iff.mp hstep
    exact .inr (.inr ⟨.close, hnode⟩)
  | sigterm =>
    simp only [process_step] at hstep
    split at hstep
    · cases hstep
    · cases hstep
      exact .inl rfl
    · cases hstep
      exact .inr (.inl rfl)
  | main raises =>
    cases main_step_cases hstep with
    | raised _ _ ht | found_lost _ _ _ _ _ ht =>
      subst ht
      exact .inr (.inl rfl)
    | starts node _ hstart ht =>
      subst ht
      exact .inr (.inr ⟨.start_next, hstart⟩)
    | stops _ node _ hstop ht =>
      subst ht
      exact .inr (.inr ⟨.stop, hstop⟩)
    | prepared _ ht | all_started _ _ ht | found_alive _ _ _ _ _ ht | all_checked _ _ _ ht | wakes _ ht
    | exits _ _ ht =>
      subst ht
      exact .inl rfl

/-- What holds of the process in every state, besides what its threads keep. -/
structure Reachable (threads : Nat) (s : Process) : Prop where
  stoppable : StopInv s.node
  length : s.node.internal_threads.length = threads

theorem init_reachable (runs : List RunMethod) (now : Int) : Reachable runs.length (Process.init runs now) :=
  ⟨init_stopInv runs now, by simp [Process.init, qsp_audit_node.init]⟩

theorem Reachable.step {threads : Nat} (hreachable : Reachable threads s)
    (hstep : process_step s label = some t) : Reachable threads t := by
  obtain ⟨hstoppable, hlength⟩ := hreachable
  obtain hnode | hnode | ⟨l, hnode⟩ := process_step_node hstep
  · exact ⟨hnode ▸ hstoppable, hnode ▸ hlength⟩
  · refine ⟨?_, by rw [hnode]; exact hlength⟩
    rw [hnode]
    intro i thread hthread
    obtain ⟨hcreated, hbegun, _⟩ := hstoppable i thread hthread
    exact ⟨hcreated, hbegun, fun _ hpast => absurd hpast (Nat.not_lt_zero i)⟩
  · exact ⟨step_stopInv hstoppable hnode, (step_length hnode).trans hlength⟩

/-- A thread that has died stays dead. -/
theorem dead_stays {threads i : Nat} (hreachable : Reachable threads s)
    (hdead : ∃ thread, s.node.internal_threads[i]? = some thread ∧ thread.pc = .dead)
    (hstep : process_step s label = some t) :
    ∃ thread, t.node.internal_threads[i]? = some thread ∧ thread.pc = .dead := by
  obtain ⟨thread, hthread, hpc⟩ := hdead
  obtain hnode | hnode | ⟨l, hnode⟩ := process_step_node hstep
  · exact ⟨thread, by rw [hnode]; exact hthread, hpc⟩
  · exact ⟨thread, by rw [hnode]; exact hthread, hpc⟩
  · obtain ⟨next, hnext, htouch⟩ := step_touch hthread hnode
    refine ⟨next, hnext, ?_⟩
    cases htouch with
    | kept h _ => rw [h, hpc]
    | signalled h _ => rw [h, hpc]
    | started hstarted _ _ =>
      rw [(hreachable.stoppable i thread hthread).created (Nat.le_of_eq hstarted.1)] at hpc
      cases hpc
    | stepped raises h _ => simp [QspThread.step, hpc] at h

/-- The steps of the main thread up to the check of thread `k` at the latest. -/
def Process.distance (k : Nat) (s : Process) : Nat :=
  let threads := s.node.internal_threads.length
  match s.main with
  | .preparing => threads + k + 3
  | .starting => threads - s.node.started + k + 2
  | .checking i => if i ≤ k then k - i + 1 else threads - i + k + 3
  | .sleeping => k + 2
  | .stopping _ | .exiting _ => 0

def ProcessLabel.is_main : ProcessLabel → Bool
  | .main _ => true
  | .tick _ | .thread _ _ _ | .close | .sigterm => false

theorem distance_step {k : Nat}
    (hdead : ∃ thread, s.node.internal_threads[k]? = some thread ∧ thread.pc = .dead)
    (hstep : process_step s label = some t) :
    t.distance k ≤ s.distance k - if label.is_main then 1 else 0 := by
  obtain ⟨dead, hthread, hpc⟩ := hdead
  have hlt := (List.getElem?_eq_some_iff.mp hthread).1
  cases label with
  | tick seconds =>
    cases hstep
    exact Nat.le_refl _
  | thread i remote_block_number raises =>
    obtain ⟨node, hnode, rfl⟩ := Option.map_eq_some_iff.mp hstep
    obtain ⟨_, _, _, _, rfl⟩ := thread_step_cases hnode
    simp [Process.distance, ProcessLabel.is_main]
  | close =>
    obtain ⟨node, hnode, rfl⟩ := Option.map_eq_some_iff.mp hstep
    obtain ⟨_, rfl⟩ := close_cases hnode
    simp [Process.distance, ProcessLabel.is_main]
  | sigterm =>
    simp only [process_step] at hstep
    split at hstep
    · cases hstep
    · cases hstep
      exact Nat.le_refl _
    · cases hstep
      exact Nat.zero_le _
  | main raises =>
    simp only [ProcessLabel.is_main, if_true]
    cases main_step_cases hstep with
    | raised _ _ ht | found_lost _ _ _ _ _ ht | exits _ _ ht =>
      subst ht
      exact Nat.zero_le _
    | prepared hmain ht | all_started hmain _ ht | wakes hmain ht =>
      subst ht
      simp only [Process.distance, hmain, Nat.zero_le, if_true]
      omega
    | starts node hmain hstart ht =>
      subst ht
      obtain ⟨_, hnext, rfl⟩ := start_next_cases hstart
      have hmore := (List.getElem?_eq_some_iff.mp hnext).1
      simp only [Process.distance, hmain, List.length_set]
      omega
    | found_alive i thread hmain hi halive ht =>
      subst ht
      have hindex : i ≠ k := by
        intro heq
        subst heq
        obtain rfl := Option.some.inj (hi.symm.trans hthread)
        simp [is_alive, hpc] at halive
      have hbound := (List.getElem?_eq_some_iff.mp hi).1
      simp only [Process.distance, hmain]
      split <;> split <;> omega
    | all_checked i hmain hnone ht =>
      subst ht
      have hle := List.getElem?_eq_none_iff.mp hnone
      simp only [Process.distance, hmain, if_neg (show ¬ i ≤ k by omega)]
      omega
    | stops code node hmain _ ht =>
      subst ht
      simp [Process.distance, hmain]

theorem distance_le {k : Nat} (hlt : k < s.node.internal_threads.length) :
    s.distance k ≤ 2 * s.node.internal_threads.length + 2 := by
  unfold Process.distance
  cases s.main with
  | checking i =>
    dsimp only
    split <;> omega
  | _ =>
    dsimp only
    omega

theorem exit_code_of_distance {k : Nat} (hdistance : s.distance k = 0) : s.main.exit_code ≠ none := by
  unfold Process.distance at hdistance
  cases hmain : s.main with
  | checking i =>
    simp only [hmain] at hdistance
    split at hdistance <;> omega
  | stopping code | exiting code => simp [Main.exit_code]
  | _ => simp [hmain] at hdistance

end

section
variable {runs : List RunMethod} {now : Int} {labels : List ProcessLabel} {s : Process}

theorem reachable_of_run (hrun : run process_step (Process.init runs now) labels = some s) :
    Reachable runs.length s :=
  run_invariant (fun _ _ _ hreachable hstep => hreachable.step hstep) (init_reachable runs now) hrun

/-- The node never stops without cause: its code is 0 exactly when it has been
    signalled, and another one, which restarts it, only comes of a check of `start` or
    a thread that has raised. -/
theorem exit_explained (hrun : run process_step (Process.init runs now) labels = some s) :
    (s.main.exit_code = some 0 ↔
      Occurs process_step (fun _ label => label = .sigterm) (Process.init runs now) labels) ∧
    ∀ code, code ≠ 0 → s.main.exit_code = some code →
      code = 1 ∧ Occurs process_step Fails (Process.init runs now) labels := by
  have hsignal := run_monitor (p := fun _ label => label = ProcessLabel.sigterm)
    (motive := fun signalled (s : Process) => (s.main.exit_code = some 0 ↔ signalled) ∧
      ∀ code, s.main.exit_code = some code → code = 0 ∨ code = 1)
    (fun signalled u label v hu hstep => by
      obtain ⟨hiff, hcodes⟩ := hu
      obtain ⟨hlabel, hcode⟩ | ⟨hlabel, hcode | ⟨hnone, hcode⟩⟩ := process_step_exit_code hstep
      · rw [hcode]
        exact ⟨by simp [hlabel], fun code h => .inl (Option.some.inj h).symm⟩
      · rw [hcode]
        exact ⟨by simp [hlabel, hiff], hcodes⟩
      · rw [hcode]
        refine ⟨?_, fun code h => .inr (Option.some.inj h).symm⟩
        rw [hnone] at hiff
        simp only [reduceCtorEq, false_iff] at hiff
        simp [hlabel, hiff])
    (b := False) ⟨by simp [Process.init, Main.exit_code], by simp [Process.init, Main.exit_code]⟩ hrun
  have hwatched := run_monitor (p := Fails) (motive := Watched)
    (fun failed u label v hu hstep => hu.step hstep) (init_watched runs now) hrun
  rw [false_or] at hsignal hwatched
  refine ⟨hsignal.1, fun code hne hcode => ?_⟩
  obtain rfl := (hsignal.2 code hcode).resolve_left hne
  exact ⟨rfl, hwatched.stopped hcode⟩

/-- A thread that has died does not go unnoticed: the main thread decides to exit
    within a bounded number of its steps, whatever the other threads do. -/
theorem failure_noticed (hrun : run process_step (Process.init runs now) labels = some s)
    (hdead : ∃ (i : Nat) (thread : QspThread), s.node.internal_threads[i]? = some thread ∧
      thread.pc = .dead) {further : List ProcessLabel} {t : Process}
    (hfurther : run process_step s further = some t)
    (hcount : 2 * runs.length + 2 ≤ further.countP ProcessLabel.is_main) : t.main.exit_code ≠ none := by
  have hreachable := reachable_of_run hrun
  obtain ⟨i, thread, hthread, hdead⟩ := hdead
  have hmeasure := @run_measure _ _ process_step
    (fun u => Reachable runs.length u ∧
      ∃ thread, u.node.internal_threads[i]? = some thread ∧ thread.pc = .dead)
    (Process.distance i) ProcessLabel.is_main
    (fun u label v hu hstep => ⟨hu.1.step hstep, dead_stays hu.1 hu.2 hstep⟩)
    (fun u label v hu hstep => distance_step hu.2 hstep) s t further
    ⟨hreachable, thread, hthread, hdead⟩ hfurther
  have hbound := distance_le (List.getElem?_eq_some_iff.mp hthread).1
  rw [hreachable.length] at hbound
  exact exit_code_of_distance (k := i) (by omega)

end

/-- The thread that polls for mined blocks raises after all threads are started, and
    the health checks find it. -/
def failing_labels : List ProcessLabel :=
  List.replicate 9 (.main false) ++
    [.thread 0 0 false, .thread 0 0 false, .thread 0 0 false, .thread 0 0 true, .main false]

def failing : Process :=
  (run process_step (Process.init (internal_threads 1 5 none) 100000) failing_labels).get (by rfl)

theorem run_failing : run process_step (Process.init (internal_threads 1 5 none) 100000) failing_labels =
    some failing := (Option.some_get _).symm

theorem exit_explained_failing :
    Occurs process_step Fails (Process.init (internal_threads 1 5 none) 100000) failing_labels :=
  ((exit_explained run_failing).2 1 (by decide) (by decide)).2

/-- The thread is dead already while the main thread starts the others. -/
def early_labels : List ProcessLabel :=
  List.replicate 2 (.main false) ++
    [.thread 0 0 false, .thread 0 0 false, .thread 0 0 false, .thread 0 0 true]

def early : Process :=
  (run process_step (Process.init (internal_threads 1 5 none) 100000) early_labels).get (by rfl)

theorem run_early : run process_step (Process.init (internal_threads 1 5 none) 100000) early_labels =
    some early := (Option.some_get _).symm

theorem failure_noticed_early :
    ((run process_step early (.replicate 16 (.main false))).get (by rfl)).main.exit_code ≠ none :=
  failure_noticed run_early ⟨0, _, rfl, rfl⟩ (Option.some_get _).symm (by decide)

end qsp.qsp_audit_node
