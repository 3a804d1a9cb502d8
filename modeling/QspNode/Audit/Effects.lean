import QspNode.Audit.Step

open lib.fifo lib.transition qsp.evt qsp.monitor_submission_thread

namespace qsp.audit

/-- All that a step can do to the database and to the reports that are sent. -/
inductive Effect (config : Config) (s : Node) (label : Label) (t : Node) : Prop where
  | silent (htable : t.table = s.table) (hsends : t.sends = s.sends)
  | written {client : Client} {w : Write} {queue : List (Client × Request Write Query)}
      (hqueue : s.queue = (client, .write w) :: queue) (htable : t.table = w.exec s.table)
      (hsends : t.sends = s.sends)
  | sent {row : Row} {rows : List Row} {evt : Event} {answers : submit_report_thread.Answers}
      (hlabel : label = .submit answers) (hrunning : s.activity .submit = .running (row :: rows))
      (hdecode : decode row = some evt) (htable : t.table = s.table)
      (hsends : t.sends = submit_report_thread.sends config s.height evt answers ++ s.sends)

/-- The client of the database that takes a step. -/
def Label.client : Label → Option Client
  | .select_stale | .timeout => some (.stage .timeout)
  | .select_incoming | .perform _ _ _ => some (.stage .perform)
  | .select_to_be_submitted | .submit _ => some (.stage .submit)
  | .select_monitored _ | .monitor _ => some (.stage .monitor)
  | .put p => some (.stage p)
  | .poll_begin | .poll_audit _ _ | .poll_police _ | .poll_put | .poll_bid _ | .poll_attempt _ =>
    some .poll
  | .mine _ | .block_mined | .execute _ | .start_threads | .restart => none

/-- The blocks that are mined in a step. -/
def Label.mined : Label → Nat
  | .mine blocks => blocks
  | _ => 0

/-- The reports that a step sends: only the submit thread sends any. -/
def SentBy (config : Config) (s : Node) (label : Label) (sent : List submit_report_thread.Send) : Prop :=
  sent = [] ∨ ∃ answers row rows evt, label = .submit answers ∧
    s.activity .submit = .running (row :: rows) ∧ decode row = some evt ∧
    sent = submit_report_thread.sends config s.height evt answers

/-- A step of a client changes nothing that another client is doing. -/
structure Frame (client : Option Client) (mined : Nat) (sent : List submit_report_thread.Send)
    (s t : Node) : Prop where
  table : t.table = s.table
  height : t.height = s.height + mined
  sends : t.sends = sent ++ s.sends
  activity : ∀ p, client ≠ some (.stage p) → t.activity p = s.activity p
  poll : client ≠ some .poll → t.poll = s.poll ∧ t.polls = s.polls
  inserts : client ≠ some .poll → writes .poll t.queue = writes .poll s.queue

/-- Nor does it queue more than one request, of its own. -/
structure Turn (client : Option Client) (mined : Nat) (sent : List submit_report_thread.Send)
    (s t : Node) : Prop extends Frame client mined sent s t where
  queue : t.queue = s.queue ∨
    ∃ queued request, client = some queued ∧ t.queue = s.queue ++ [(queued, request)]

section
variable {config : Config} {s t : Node} {p : Stage}

theorem Turn.of_set (p : Stage) (activity : Activity) (s : Node) :
    Turn (some (.stage p)) 0 [] s (s.set p activity) where
  table := rfl
  height := (Int.add_zero _).symm
  sends := rfl
  activity := by
    intro q hq
    have hne : q ≠ p := by
      rintro rfl
      exact hq rfl
    exact Function.update_of_ne hne activity s.activity
  poll := fun _ => ⟨rfl, rfl⟩
  inserts := fun _ => rfl
  queue := Or.inl rfl

theorem Turn.of_enqueue (p : Stage) (request : Request Write Query) (activity : Activity) (s : Node) :
    Turn (some (.stage p)) 0 [] s ((s.enqueue (.stage p) request).set p activity) :=
  { Turn.of_set p activity s with
    inserts := fun _ => writes_enqueue_other (by simp)
    queue := Or.inr ⟨_, request, rfl, rfl⟩ }

/-- A step of the polling thread. -/
theorem Turn.of_poll (htable : t.table = s.table) (hheight : t.height = s.height)
    (hsends : t.sends = s.sends) (hactivity : t.activity = s.activity)
    (hqueue : t.queue = s.queue ∨ ∃ request, t.queue = s.queue ++ [(.poll, request)]) :
    Turn (some .poll) 0 [] s t where
  table := htable
  height := hheight.trans (Int.add_zero _).symm
  sends := hsends
  activity := fun p _ => congrFun hactivity p
  poll := fun hne => absurd rfl hne
  inserts := fun hne => absurd rfl hne
  queue := by
    rcases hqueue with hsame | ⟨request, hqueue⟩
    · exact Or.inl hsame
    · exact Or.inr ⟨.poll, request, rfl, hqueue⟩

theorem begin_select_frame {status : Status} (hstep : begin_select p status s = some t) :
    Turn (some (.stage p)) 0 [] s t := by
  unfold begin_select at hstep
  split at hstep
  · obtain rfl := Option.some.inj hstep
    split
    · exact .of_enqueue p _ _ s
    · exact .of_set p _ s
  · cases hstep

theorem put_frame (hstep : put p s = some t) : Turn (some (.stage p)) 0 [] s t := by
  unfold put at hstep
  split at hstep
  · obtain rfl := Option.some.inj hstep
    split
    · exact .of_enqueue p _ _ s
    · exact .of_set p _ s
  · cases hstep

theorem process_next_frame {callback : Event → Action}
    {sends : Event → List submit_report_thread.Send}
    (hstep : process_next p callback sends s = some t) :
    ∃ sent, Turn (some (.stage p)) 0 sent s t ∧
      (sent = [] ∨ ∃ row rows evt, s.activity p = .running (row :: rows) ∧ decode row = some evt ∧
        sent = sends evt) := by
  unfold process_next at hstep
  split at hstep
  · next row rows hrunning =>
    obtain rfl := Option.some.inj hstep
    cases hdecode : decode row with
    | none => exact ⟨[], .of_set p .dead s, Or.inl rfl⟩
    | some evt =>
      exact ⟨sends evt, { Turn.of_set p (Action.activity rows (callback evt)) s with sends := rfl },
        Or.inr ⟨row, rows, evt, hrunning, hdecode, rfl⟩⟩
  · cases hstep

theorem poll_put_frame (hstep : poll_put config s = some t) : Turn (some .poll) 0 [] s t := by
  unfold poll_put at hstep
  split at hstep
  · obtain rfl := Option.some.inj hstep
    split
    · exact .of_poll rfl rfl rfl rfl (Or.inr ⟨_, rfl⟩)
    · exact .of_poll rfl rfl rfl rfl (Or.inl rfl)
  · obtain rfl := Option.some.inj hstep
    split
    · exact .of_poll rfl rfl rfl rfl (Or.inr ⟨_, rfl⟩)
    · exact .of_poll rfl rfl rfl rfl (Or.inl rfl)
  · obtain rfl := Option.some.inj hstep
    split
    · exact .of_poll rfl rfl rfl rfl (Or.inr ⟨_, rfl⟩)
    · exact .of_poll rfl rfl rfl rfl (Or.inl rfl)
  · cases hstep

/-- All that a step can be: one of the database worker, a restart, or one that
    leaves alone what is not its client's. -/
theorem step_cases {label : Label} (hstep : step config s label = some t) :
    (∃ fails, label = .execute fails) ∨ label = .restart ∨
      ∃ sent, Turn label.client label.mined sent s t ∧ SentBy config s label sent := by
  have hsilent (hframe : Turn label.client label.mined [] s t) :
      (∃ fails, label = .execute fails) ∨ label = .restart ∨
        ∃ sent, Turn label.client label.mined sent s t ∧ SentBy config s label sent :=
    Or.inr (Or.inr ⟨[], hframe, Or.inl rfl⟩)
  cases label with
  | execute fails => exact Or.inl ⟨fails, rfl⟩
  | restart => exact Or.inr (Or.inl rfl)
  | mine blocks =>
    obtain rfl := Option.some.inj hstep
    exact hsilent
      ⟨⟨rfl, rfl, rfl, fun _ _ => rfl, fun _ => ⟨rfl, rfl⟩, fun _ => rfl⟩, Or.inl rfl⟩
  | block_mined =>
    obtain rfl := Option.some.inj hstep
    exact hsilent
      ⟨⟨rfl, (Int.add_zero _).symm, rfl, fun _ _ => rfl, fun _ => ⟨rfl, rfl⟩, fun _ => rfl⟩, Or.inl rfl⟩
  | start_threads =>
    simp only [step] at hstep
    split at hstep
    · obtain rfl := Option.some.inj hstep
      exact hsilent
        ⟨⟨rfl, (Int.add_zero _).symm, rfl, fun _ _ => rfl, fun _ => ⟨rfl, rfl⟩, fun _ => rfl⟩, Or.inl rfl⟩
    · cases hstep
  | select_stale =>
    simp only [step] at hstep
    split at hstep
    · cases hstep
    · obtain ⟨⟨htable, hheight, hsends, hactivity, hpoll, hinserts⟩, hqueue⟩ := begin_select_frame hstep
      exact hsilent ⟨⟨htable, hheight, hsends, hactivity, hpoll, hinserts⟩, hqueue⟩
  | select_incoming | select_to_be_submitted =>
    simp only [step] at hstep
    split at hstep
    · exact hsilent (begin_select_frame hstep)
    · cases hstep
  | select_monitored timeout_limit_blocks =>
    simp only [step] at hstep
    split at hstep
    · split at hstep
      · obtain rfl := Option.some.inj hstep
        exact hsilent (.of_set .monitor .dead s)
      · obtain ⟨⟨htable, hheight, hsends, hactivity, hpoll, hinserts⟩, hqueue⟩ := begin_select_frame hstep
        exact hsilent ⟨⟨htable, hheight, hsends, hactivity, hpoll, hinserts⟩, hqueue⟩
    · cases hstep
  | timeout | perform audit block_number traceback | monitor answers =>
    obtain ⟨sent, hframe, hsent⟩ := process_next_frame hstep
    refine Or.inr (Or.inr ⟨sent, hframe, Or.inl ?_⟩)
    rcases hsent with hsent | ⟨_, _, _, _, _, hsent⟩ <;> exact hsent
  | submit answers =>
    obtain ⟨sent, hframe, hsent⟩ := process_next_frame hstep
    refine Or.inr (Or.inr ⟨sent, hframe, hsent.imp id ?_⟩)
    rintro ⟨row, rows, evt, hrunning, hdecode, hsent⟩
    exact ⟨answers, row, rows, evt, rfl, hrunning, hdecode, hsent⟩
  | put p => exact hsilent (put_frame hstep)
  | poll_put => exact hsilent (poll_put_frame hstep)
  | poll_audit is_police_officer answer | poll_police answer =>
    simp only [step] at hstep
    split at hstep
    · obtain rfl := Option.some.inj hstep
      obtain ⟨htable, hqueue, hactivity, _, _, _, hsends, hheight⟩ := poll_to_frame _ _
      exact hsilent (.of_poll htable hheight hsends hactivity (Or.inl hqueue))
    · cases hstep
  | poll_begin | poll_bid answers =>
    simp only [step] at hstep
    split at hstep
    · obtain rfl := Option.some.inj hstep
      exact hsilent (.of_poll rfl rfl rfl rfl (Or.inl rfl))
    · cases hstep
  | poll_attempt answers =>
    simp only [step] at hstep
    split at hstep
    · obtain rfl := Option.some.inj hstep
      exact hsilent (.of_poll rfl rfl rfl rfl (Or.inl rfl))
    · split at hstep
      · obtain rfl := Option.some.inj hstep
        exact hsilent (.of_poll rfl rfl rfl rfl (Or.inl rfl))
      · cases hstep
    · cases hstep

theorem execute_effect {fails : Bool} (hstep : execute config fails s = some t) :
    Effect config s (.execute fails) t := by
  unfold execute at hstep
  split at hstep
  · cases hstep
  · next hqueue =>
    obtain rfl := Option.some.inj hstep
    cases fails with
    | true => exact .silent rfl rfl
    | false => exact .written hqueue rfl rfl
  · obtain rfl := Option.some.inj hstep
    exact .silent rfl rfl
  · obtain rfl := Option.some.inj hstep
    exact .silent rfl rfl

theorem step_effect {label : Label} (hstep : step config s label = some t) :
    Effect config s label t := by
  rcases step_cases hstep with
    ⟨fails, rfl⟩ | rfl | ⟨sent, hframe, rfl | ⟨answers, row, rows, evt, hlabel, hrunning, hdecode, rfl⟩⟩
  · exact execute_effect hstep
  · obtain rfl := Option.some.inj hstep
    exact .silent rfl rfl
  · exact .silent hframe.table hframe.sends
  · exact .sent hlabel hrunning hdecode hframe.table hframe.sends

/-- Only mining changes the height of the chain. -/
theorem step_height {label : Label} (hstep : step config s label = some t) :
    t.height = s.height + label.mined := by
  rcases step_cases hstep with ⟨fails, rfl⟩ | rfl | ⟨_, hframe, _⟩
  · simp only [step, execute] at hstep
    split at hstep
    · cases hstep
    all_goals
      obtain rfl := Option.some.inj hstep
      exact (Int.add_zero _).symm
  · obtain rfl := Option.some.inj hstep
    exact (Int.add_zero _).symm
  · exact hframe.height

/-- The chain only grows. -/
theorem height_le {label : Label} (hstep : step config s label = some t) : s.height ≤ t.height := by
  have hheight := step_height hstep
  omega

/-- The node refines the life of the table. -/
theorem step_evolves {label : Label} (hinv : Inv config s) (hstep : step config s label = some t) :
    Relation.ReflGen (Evolves MAX_SUBMISSION_ATTEMPTS) s.table t.table := by
  cases step_effect hstep with
  | silent htable hsends | sent hlabel hrunning hdecode htable hsends =>
    rw [htable]
  | written hqueue htable hsends =>
    rw [htable]
    exact hinv.exec_evolves hqueue

theorem run_inv {labels : List Label} (hinv : Inv config s) (hrun : run (step config) s labels = some t) :
    Inv config t :=
  run_invariant (fun _ label _ hinv hstep => step_inv label hinv hstep) hinv hrun

theorem run_evolves {labels : List Label} (hinv : Inv config s)
    (hrun : run (step config) s labels = some t) :
    Relation.ReflTransGen (Evolves MAX_SUBMISSION_ATTEMPTS) s.table t.table :=
  run_refines (fun _ label _ hinv hstep => step_inv label hinv hstep)
    (fun _ _ _ hinv hstep => step_evolves hinv hstep) hinv hrun

end

end qsp.audit
