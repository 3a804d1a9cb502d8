import Mathlib.Data.Int.Notation
import QspNode.Lib.Transition

namespace qsp.qsp_thread

/-- The run methods of the internal threads. The thread that polls for mined
    blocks has no target function. -/
inductive RunMethod where
  | time_interval_polling (polling_interval : Int) (start_with_call : Bool)
  | block_mined_polling (block_mined_polling : Int)
  | block_mined_subscriber
  deriving DecidableEq, Repr

/-- Where a thread is: created, started but not yet in its run method, at the
    test of the loop, in its body, in the call that the body makes, or dead. -/
inductive Pc where
  | created
  | started
  | test
  | body
  | call
  | dead
  deriving DecidableEq, Repr

/-- A thread; `last` is the time of its last call, or the block number it has
    reacted to. -/
structure QspThread where
  run : RunMethod
  pc : Pc
  exec : Bool
  last : Int
  deriving DecidableEq, Repr

def init (run : RunMethod) : QspThread :=
  { run, pc := .created, exec := false, last := 0 }

/-- The thread has executed the first statement of its run method. -/
def QspThread.begun (t : QspThread) : Bool := t.pc ≠ .created ∧ t.pc ≠ .started

def QspThread.has_target (t : QspThread) : Bool :=
  match t.run with
  | .block_mined_polling _ => false
  | _ => true

/-- The statements of the run method before its loop. -/
def QspThread.begin (now : Int) (t : QspThread) : QspThread :=
  { t with
    pc := .test
    exec := true
    last :=
      match t.run with
      | .time_interval_polling _ false => now
      | _ => 0 }

/-- The body of the loop up to its call, if it makes one. -/
def QspThread.loop_body (now current_block : Int) (t : QspThread) : QspThread :=
  match t.run with
  | .time_interval_polling polling_interval _ | .block_mined_polling polling_interval =>
    if now - t.last > polling_interval then { t with pc := .call, last := now }
    else { t with pc := .test }
  | .block_mined_subscriber =>
    if t.last ≠ current_block then { t with pc := .call, last := current_block }
    else { t with pc := .test }

/-- A step of a running thread. -/
def QspThread.step (now current_block : Int) (raises : Bool) (t : QspThread) : Option QspThread :=
  match t.pc with
  | .created | .dead => none
  | .started => some (t.begin now)
  | .test => some { t with pc := if t.exec then .body else .dead }
  | .body => some (t.loop_body now current_block)
  | .call => some { t with pc := if raises then .dead else .test }

theorem loop_body_frame (now current_block : Int) (t : QspThread) :
    (t.loop_body now current_block).run = t.run ∧
    (t.loop_body now current_block).exec = t.exec ∧
    ((t.loop_body now current_block).pc = .call ∨ (t.loop_body now current_block).pc = .test) := by
  unfold QspThread.loop_body
  split
  · split
    · exact ⟨rfl, rfl, Or.inl rfl⟩
    · exact ⟨rfl, rfl, Or.inr rfl⟩
  · split
    · exact ⟨rfl, rfl, Or.inl rfl⟩
    · exact ⟨rfl, rfl, Or.inr rfl⟩
  · split
    · exact ⟨rfl, rfl, Or.inl rfl⟩
    · exact ⟨rfl, rfl, Or.inr rfl⟩

section
variable {now current_block : Int} {raises : Bool} {t u : QspThread}

/-- A step of a thread is its first, or leaves its flag alone. -/
theorem step_cases (hstep : t.step now current_block raises = some u) :
    u.run = t.run ∧ u.begun = true ∧
      ((t.pc = .started ∧ u.exec = true) ∨ (t.begun = true ∧ t.pc ≠ .dead ∧ u.exec = t.exec)) := by
  unfold QspThread.step at hstep
  split at hstep
  · cases hstep
  · cases hstep
  · next hpc =>
    obtain rfl := Option.some.inj hstep
    exact ⟨rfl, rfl, Or.inl ⟨hpc, rfl⟩⟩
  · next hpc =>
    obtain rfl := Option.some.inj hstep
    refine ⟨rfl, ?_, Or.inr ⟨by simp [QspThread.begun, hpc], by simp [hpc], rfl⟩⟩
    cases t.exec <;> rfl
  · next hpc =>
    obtain rfl := Option.some.inj hstep
    obtain ⟨hrun, hexec, hnext⟩ := loop_body_frame now current_block t
    refine ⟨hrun, ?_, Or.inr ⟨by simp [QspThread.begun, hpc], by simp [hpc], hexec⟩⟩
    cases hnext with
    | inl hcall => simp [QspThread.begun, hcall]
    | inr htest => simp [QspThread.begun, htest]
  · next hpc =>
    obtain rfl := Option.some.inj hstep
    refine ⟨rfl, ?_, Or.inr ⟨by simp [QspThread.begun, hpc], by simp [hpc], rfl⟩⟩
    cases raises <;> rfl

theorem has_target_of_run (hrun : u.run = t.run) : u.has_target = t.has_target := by
  unfold QspThread.has_target
  rw [hrun]

end

end qsp.qsp_thread
