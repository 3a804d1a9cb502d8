import QspNode.Audit.Effects

open lib.fifo qsp.evt

namespace qsp.audit

/-- The stage that runs a callback in a step, with that callback. -/
def Label.callback (config : Config) (s : Node) : Label → Option (Stage × (Event → Action))
  | .timeout => some (.timeout, timeout_event s.first_valid_block)
  | .perform audit block_number traceback =>
    some (.perform, fun evt =>
      perform_audit_thread.process_audit_request evt audit (block_number.map (fun _ => s.height)) traceback)
  | .submit answers =>
    some (.submit, fun evt =>
      submit_report_thread.process_submission_request config s.height evt answers)
  | .monitor answers =>
    some (.monitor, fun evt =>
      monitor_submission_thread.monitor_submission_timeout config s.timeout_limit_blocks s.height evt
        answers)
  | _ => none

/-- What a step makes of the statements of a stage. New ones come from its
    callback, and from the handler of a statement that found no room. -/
inductive Moved (config : Config) (s : Node) (label : Label) (t : Node) (p : Stage) : Prop where
  | kept (hpending : ∀ w ∈ pending p t.queue (t.activity p), w ∈ pending p s.queue (s.activity p))
      (hwriting : ∀ w full rows, t.activity p = .writing w full rows →
        s.activity p = .writing w full rows)
  | called {row : Row} {rows : List Row} {evt : Event} {callback : Event → Action}
      (hcallback : label.callback config s = some (p, callback))
      (hrunning : s.activity p = .running (row :: rows)) (hdecode : decode row = some evt)
      (hqueue : t.queue = s.queue) (hactivity : t.activity p = Action.activity rows (callback evt))
  | retried {w v : Write} {rows : List Row} (hlabel : label = .put p) (hfull : s.has_room = false)
      (hwriting : s.activity p = .writing w (.put v) rows) (hqueue : t.queue = s.queue)
      (hactivity : t.activity p = .writing v .raise rows)

section
variable {config : Config} {s t : Node} {label : Label} {p : Stage}

theorem begin_select_moved {status : Status} {s' : Node} (hqueue : s'.queue = s.queue)
    (hactivity : s'.activity = s.activity) (hstep : begin_select p status s' = some t) :
    Moved config s label t p := by
  unfold begin_select at hstep
  split at hstep
  · next hidle =>
    rw [hactivity] at hidle
    obtain rfl := Option.some.inj hstep
    split
    · refine .kept ?_ (by simp [Node.set])
      simp [Node.set, Node.enqueue, pending, Activity.held, hqueue, hidle, writes_enqueue_read]
    · refine .kept ?_ (by simp [Node.set])
      simp [Node.set, pending, Activity.held, hqueue, hidle]
  · cases hstep

theorem process_next_moved {callback : Event → Action} {sends : Event → List submit_report_thread.Send}
    (hcallback : label.callback config s = some (p, callback))
    (hstep : process_next p callback sends s = some t) : Moved config s label t p := by
  unfold process_next at hstep
  split at hstep
  · next row rows hrunning =>
    obtain rfl := Option.some.inj hstep
    cases hdecode : decode row with
    | none =>
      refine .kept ?_ (by simp [Node.set])
      simp [Node.set, pending, Activity.held, hrunning]
    | some evt => exact .called hcallback hrunning hdecode rfl (by simp [Node.set])
  · cases hstep

theorem put_moved (hstep : put p s = some t) : Moved config s (.put p) t p := by
  unfold put at hstep
  split at hstep
  · next w full rows hwriting =>
    obtain rfl := Option.some.inj hstep
    cases hroom : s.has_room with
    | true =>
      refine .kept ?_ (by simp [Node.set])
      simp [Node.set, Node.enqueue, pending, Activity.held, hwriting, writes_enqueue_write]
    | false =>
      cases full with
      | raise | ignore =>
        refine .kept ?_ (by simp [Node.set])
        simp only [Node.set, pending, Activity.held, hwriting, Bool.false_eq_true, if_false,
          Function.update_self, List.append_nil]
        exact fun w hw => List.mem_append_left _ hw
      | put v => exact .retried rfl hroom hwriting rfl (by simp [Node.set])
  · cases hstep

theorem execute_moved {fails : Bool} (hstep : execute config fails s = some t) :
    Moved config s (.execute fails) t p := by
  unfold execute at hstep
  split at hstep
  · cases hstep
  · next client w queue hqueue =>
    obtain rfl := Option.some.inj hstep
    refine .kept ?_ (fun _ _ _ hwriting => hwriting)
    intro v hv
    rw [pending, hqueue]
    by_cases hclient : client = .stage p
    · subst hclient
      rw [writes_cons_write]
      exact List.mem_cons_of_mem _ hv
    · rwa [writes_cons_of_ne hclient]
  · next q query queue hqueue =>
    obtain rfl := Option.some.inj hstep
    by_cases hp : p = q
    · subst hp
      refine .kept ?_ ?_
      · rw [pending, pending, hqueue, writes_cons_read]
        intro w hw
        cases fails <;> simpa [Node.set, Activity.held] using Or.inl hw
      · cases fails <;> simp [Node.set]
    · refine .kept ?_ ?_
      · simp only [Node.set, Function.update_of_ne hp, pending, hqueue,
          writes_cons_of_ne (stage_ne (Ne.symm hp))]
        exact fun _ hw => hw
      · simp only [Node.set, Function.update_of_ne hp]
        exact fun _ _ _ hwriting => hwriting
  · next query queue hqueue =>
    obtain rfl := Option.some.inj hstep
    refine .kept ?_ (fun _ _ _ hwriting => hwriting)
    rw [pending, pending, hqueue, writes_cons_of_ne (by simp)]
    exact fun _ hw => hw

theorem step_moved (p : Stage) (hstep : step config s label = some t) : Moved config s label t p := by
  by_cases hexecute : ∃ fails, label = .execute fails
  · obtain ⟨fails, rfl⟩ := hexecute
    exact execute_moved hstep
  by_cases hrestart : label = .restart
  · subst hrestart
    obtain rfl := Option.some.inj hstep
    refine .kept ?_ (by simp [Node.restart])
    simp [Node.restart, pending, Activity.held]
  obtain ⟨_, hframe, _⟩ := ((step_cases hstep).resolve_left hexecute).resolve_left hrestart
  by_cases hclient : label.client = some (.stage p)
  · cases label with
    | select_stale =>
      obtain rfl : Stage.timeout = p := by simpa [Label.client] using hclient
      simp only [step] at hstep
      split at hstep
      · cases hstep
      · exact begin_select_moved (by rfl) (by rfl) hstep
    | select_incoming =>
      obtain rfl : Stage.perform = p := by simpa [Label.client] using hclient
      simp only [step] at hstep
      split at hstep
      · exact begin_select_moved (by rfl) (by rfl) hstep
      · cases hstep
    | select_to_be_submitted =>
      obtain rfl : Stage.submit = p := by simpa [Label.client] using hclient
      simp only [step] at hstep
      split at hstep
      · exact begin_select_moved (by rfl) (by rfl) hstep
      · cases hstep
    | select_monitored timeout_limit_blocks =>
      obtain rfl : Stage.monitor = p := by simpa [Label.client] using hclient
      simp only [step] at hstep
      split at hstep
      · next hguard =>
        split at hstep
        · obtain rfl := Option.some.inj hstep
          refine .kept ?_ (by simp [Node.set])
          simp [Node.set, pending, Activity.held, hguard.2]
        · exact begin_select_moved (by rfl) (by rfl) hstep
      · cases hstep
    | timeout =>
      obtain rfl : Stage.timeout = p := by simpa [Label.client] using hclient
      exact process_next_moved rfl hstep
    | perform audit block_number traceback =>
      obtain rfl : Stage.perform = p := by simpa [Label.client] using hclient
      exact process_next_moved rfl hstep
    | submit answers =>
      obtain rfl : Stage.submit = p := by simpa [Label.client] using hclient
      exact process_next_moved rfl hstep
    | monitor answers =>
      obtain rfl : Stage.monitor = p := by simpa [Label.client] using hclient
      exact process_next_moved rfl hstep
    | put q =>
      obtain rfl : q = p := by simpa [Label.client] using hclient
      exact put_moved hstep
    | _ => simp [Label.client] at hclient
  · have hactivity : t.activity p = s.activity p := hframe.activity p hclient
    have hwrites : writes (.stage p) t.queue = writes (.stage p) s.queue := by
      rcases hframe.queue with hqueue | ⟨client, request, hlabel, hqueue⟩
      · rw [hqueue]
      · rw [hqueue]
        apply writes_enqueue_other
        rintro rfl
        exact hclient hlabel
    refine .kept ?_ ?_
    · rw [pending, pending, hwrites, hactivity]
      exact fun _ hw => hw
    · rw [hactivity]
      exact fun _ _ _ hwriting => hwriting

/-- What holds of the statements of a stage, and of them together with their
    handlers, when its callback establishes it. -/
theorem pending_step {holds : Write → Prop} {recovers : Write → Recovery → Prop}
    (hraise : ∀ w, recovers w .raise)
    (hpending : ∀ w ∈ pending p s.queue (s.activity p), holds w)
    (hwriting : ∀ w full rows, s.activity p = .writing w full rows → recovers w full)
    (hcalled : ∀ row rows evt callback, label.callback config s = some (p, callback) →
      s.activity p = .running (row :: rows) → decode row = some evt →
        ∀ w full, callback evt = .put w full → holds w ∧ recovers w full)
    (hretried : ∀ w v rows, label = .put p → s.has_room = false →
      s.activity p = .writing w (.put v) rows → holds v)
    (hstep : step config s label = some t) :
    (∀ w ∈ pending p t.queue (t.activity p), holds w) ∧
      ∀ w full rows, t.activity p = .writing w full rows → recovers w full := by
  cases step_moved p hstep with
  | kept hkept hsame =>
    exact ⟨fun w hw => hpending w (hkept w hw),
      fun w full rows hactivity => hwriting w full rows (hsame w full rows hactivity)⟩
  | @called row rows evt callback hcallback hrunning hdecode hqueue hactivity =>
    rw [pending, hqueue, hactivity]
    have hqueued : ∀ w ∈ writes (.stage p) s.queue, holds w :=
      fun w hw => hpending w (List.mem_append_left _ hw)
    cases haction : callback evt with
    | skip => simpa [Action.activity, Activity.held] using hqueued
    | put v full =>
      obtain ⟨hholds, hrecovers⟩ := hcalled row rows evt callback hcallback hrunning hdecode v full haction
      constructor
      · intro w hw
        rcases List.mem_append.mp hw with hw | hw
        · exact hqueued w hw
        · obtain rfl : w = v := List.mem_singleton.mp hw
          exact hholds
      · intro w full' rows' heq
        obtain ⟨rfl, rfl, rfl⟩ := Activity.writing.inj heq
        exact hrecovers
  | @retried w v rows hlabel hfull hbefore hqueue hactivity =>
    rw [pending, hqueue, hactivity]
    constructor
    · intro u hu
      rcases List.mem_append.mp hu with hu | hu
      · exact hpending u (List.mem_append_left _ hu)
      · obtain rfl : u = v := List.mem_singleton.mp hu
        exact hretried w u rows hlabel hfull hbefore
    · intro u full rows' heq
      obtain ⟨rfl, rfl, rfl⟩ := Activity.writing.inj heq
      exact hraise _

end

end qsp.audit
