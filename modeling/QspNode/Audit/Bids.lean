import QspNode.Audit.Assigned
import QspNode.Audit.World

open lib.fifo lib.transition qsp.evt qsp.monitor_submission_thread qsp.poll_requests_thread

namespace qsp.audit

/-- A request has a row, or its insert is in the queue. -/
def Handled (s : Node) (request_id : Int) : Prop :=
  request_id ∈ s.table.map Evt.request_id ∨
    ∃ evt, .add_evt_to_be_assigned evt ∈ writes .poll s.queue ∧ evt.request_id = request_id

/-- The polling thread works on the latest assignment it has seen, and has
    handled it before it bids. -/
def Covers (seen : List MostRecentAudit) (s : Node) : Prop :=
  match s.poll with
  | .asking (.audit most_recent) _ | .selecting (.audit most_recent) _
  | .saving (.audit most_recent) _ => most_recent = most_recent_assigned_audit seen
  | .failing (.audit _) _ => False
  | .bidding _ | .sending _ _ _ | .waiting _ _ _ =>
    ∀ audit, seen.head? = some audit → Handled s audit.request_id
  | .idle | .polling_audit _ | .polling_police _ | .asking (.police _) _ | .selecting (.police _) _
  | .saving (.police _) _ | .failing (.police _) _ => True

/-- At most one bid is pending, and only while all that was assigned is saved. -/
structure Guarded (config : Config) (w : World) : Prop where
  inv : Inv config w.node
  ids : ∀ audit ∈ w.assigned, audit.request_id ≠ 0
  saved : ∀ audit ∈ w.assigned.tail, audit.request_id ∈ w.node.table.map Evt.request_id
  pending : w.pending = [] ∨ ∃ nonce, w.pending = [nonce] ∧
    ∀ audit ∈ w.assigned, audit.request_id ∈ w.node.table.map Evt.request_id
  covers : Covers w.seen w.node

section
variable {config : Config} {s t : Node} {seen : List MostRecentAudit} {pc : Pc}

/-- The thread has not got to the point where it must know an assignment. -/
theorem covers_of_free (hpoll : (∃ current_block, s.poll = .polling_audit current_block) ∨
    s.poll = .idle ∨ (∃ current_block, s.poll = .polling_police current_block) ∨
    ∃ probe current_block, s.poll = .asking (.police probe) current_block) : Covers seen s := by
  unfold Covers
  rcases hpoll with ⟨_, hpoll⟩ | hpoll | ⟨_, hpoll⟩ | ⟨_, _, hpoll⟩ <;> simp [hpoll]

theorem covers_abandon (assignment : Assignment) (current_block : Int)
    (hpoll : s.poll = assignment.abandon current_block) : Covers seen s := by
  refine covers_of_free ?_
  cases assignment with
  | audit most_recent => exact Or.inr (Or.inr (Or.inl ⟨current_block, hpoll⟩))
  | police probe => exact Or.inr (Or.inl hpoll)

/-- A row is never deleted. -/
theorem keys_step {label : Label} {request_id : Int} (hinv : Inv config s)
    (hstep : step config s label = some t) (hkey : request_id ∈ s.table.map Evt.request_id) :
    request_id ∈ t.table.map Evt.request_id := by
  obtain ⟨row, hrow, rfl⟩ := List.mem_map.mp hkey
  obtain ⟨row', hrow', hidentity⟩ := identity_of_evolves (step_evolves hinv hstep) hrow
  exact List.mem_map.mpr ⟨row', hrow', (request_of_identity hidentity).1⟩

theorem Covers.apart (hcovers : Covers seen s) (hapart : Apart s t) : Covers seen t := by
  simpa only [Covers, Handled, hapart.poll, hapart.table, hapart.inserts] using hcovers

/-- The thread moves on among the states in which it has handled what it saw. -/
theorem covers_of_handled (hhandled : ∀ audit, seen.head? = some audit → Handled t audit.request_id)
    (hpoll : (∃ current_block, t.poll = .bidding current_block) ∨
      (∃ i nonce current_block, t.poll = .sending i nonce current_block) ∨
      (∃ i nonce current_block, t.poll = .waiting i nonce current_block) ∨
      ∃ current_block, t.poll = .polling_police current_block) : Covers seen t := by
  unfold Covers
  rcases hpoll with ⟨_, hpoll⟩ | ⟨_, _, _, hpoll⟩ | ⟨_, _, _, hpoll⟩ | ⟨_, hpoll⟩
  · simpa [hpoll] using hhandled
  · simpa [hpoll] using hhandled
  · simpa [hpoll] using hhandled
  · simp [hpoll]

theorem bid_pc (config : Config) (answers : BidAnswers) (current_block : Int) :
    (∃ i nonce current_block', bid config answers current_block = .sending i nonce current_block') ∨
      ∃ current_block', bid config answers current_block = .polling_police current_block' := by
  unfold bid
  split
  · split
    · exact Or.inr ⟨_, rfl⟩
    · split
      · exact Or.inr ⟨_, rfl⟩
      · exact Or.inl ⟨_, _, _, rfl⟩
  · exact Or.inr ⟨_, rfl⟩

theorem attempted_pc {i nonce : Nat} {answers : tx.Answers} {current_block : Int} :
    (∃ i' nonce' current_block',
        attempted config i nonce answers current_block = .sending i' nonce' current_block') ∨
      (∃ i' nonce' current_block',
        attempted config i nonce answers current_block = .waiting i' nonce' current_block') ∨
      ∃ current_block', attempted config i nonce answers current_block = .polling_police current_block' := by
  unfold attempted
  split
  · exact Or.inr (Or.inl ⟨_, _, _, rfl⟩)
  · exact Or.inr (Or.inr ⟨_, rfl⟩)
  · exact Or.inl ⟨_, _, _, rfl⟩

theorem covers_bid {answers : BidAnswers} (hcovers : Covers seen s)
    (hstep : step config s (.poll_bid answers) = some t) : Covers seen t := by
  simp only [step] at hstep
  split at hstep
  · next current_block hpoll =>
    obtain rfl := Option.some.inj hstep
    have hhandled : ∀ audit, seen.head? = some audit → Handled s audit.request_id := by
      simpa only [Covers, hpoll] using hcovers
    refine covers_of_handled hhandled ?_
    rcases bid_pc config answers current_block with hsending | hpolice
    · exact Or.inr (Or.inl hsending)
    · exact Or.inr (Or.inr (Or.inr hpolice))
  · cases hstep

theorem covers_attempt {answers : tx.Answers} (hcovers : Covers seen s)
    (hstep : step config s (.poll_attempt answers) = some t) : Covers seen t := by
  have hattempted (i nonce : Nat) (current_block : Int)
      (hhandled : ∀ audit, seen.head? = some audit → Handled s audit.request_id) :
      Covers seen { s with poll := attempted config i nonce answers current_block } :=
    covers_of_handled hhandled (Or.inr attempted_pc)
  simp only [step] at hstep
  split at hstep
  · next i nonce current_block hpoll =>
    obtain rfl := Option.some.inj hstep
    have hhandled : ∀ audit, seen.head? = some audit → Handled s audit.request_id := by
      simpa only [Covers, hpoll] using hcovers
    cases answers.accepted with
    | true => exact covers_of_handled hhandled (Or.inr (Or.inr (Or.inl ⟨_, _, _, rfl⟩)))
    | false => exact hattempted i nonce current_block hhandled
  · next i nonce current_block hpoll =>
    split at hstep
    · obtain rfl := Option.some.inj hstep
      refine hattempted i nonce current_block ?_
      simpa only [Covers, hpoll] using hcovers
    · cases hstep
  · cases hstep

/-- The thread queues its insert before it bids. -/
theorem covers_put (hcovers : Covers seen s)
    (hroom : ∀ assignment current_block, s.poll = .saving assignment current_block → s.has_room = true)
    (hstep : poll_put config s = some t) : Covers seen t := by
  unfold poll_put at hstep
  split at hstep
  · next assignment current_block hasking =>
    obtain rfl := Option.some.inj hstep
    split
    · cases assignment with
      | audit most_recent => simpa [Covers, hasking, Node.enqueue] using hcovers
      | police probe => simp [Covers]
    · exact covers_abandon assignment current_block rfl
  · next assignment current_block hsaving =>
    obtain rfl := Option.some.inj hstep
    rw [if_pos (hroom assignment current_block hsaving)]
    cases assignment with
    | audit most_recent =>
      obtain rfl : most_recent = most_recent_assigned_audit seen := by
        simpa only [Covers, hsaving] using hcovers
      refine covers_of_handled ?_ (Or.inl ⟨current_block, rfl⟩)
      intro audit haudit
      refine Or.inr ⟨(Assignment.audit (most_recent_assigned_audit seen)).evt config, ?_,
        evt_request_id.trans ?_⟩
      · rw [Node.enqueue, writes_enqueue_write]
        exact List.mem_append_right _ List.mem_cons_self
      · simp [Assignment.request_id, most_recent_assigned_audit, haudit]
    | police probe => exact covers_of_free (Or.inr (Or.inl rfl))
  · next assignment current_block hfailing =>
    obtain rfl := Option.some.inj hstep
    cases assignment with
    | audit most_recent => simp [Covers, hfailing] at hcovers
    | police probe =>
      split
      · exact covers_of_free (Or.inr (Or.inl rfl))
      · exact covers_abandon (.police probe) current_block rfl
  · cases hstep

/-- When the rows of a request arrive, it has one or is to be saved. -/
theorem covers_processed (assignment : Assignment) (current_block : Int) (rows : List Row)
    (hseen : ∀ most_recent, assignment = .audit most_recent →
      most_recent = most_recent_assigned_audit seen)
    (hrows : rows ≠ [] → assignment.request_id ∈ t.table.map Evt.request_id)
    (hpoll : t.poll = processed config assignment current_block rows) : Covers seen t := by
  cases assignment with
  | audit most_recent =>
    obtain rfl := hseen most_recent rfl
    cases rows with
    | nil =>
      have hsaving : t.poll = .saving (.audit (most_recent_assigned_audit seen)) current_block := hpoll
      simp [Covers, hsaving]
    | cons row rows =>
      simp only [processed, is_request_processed] at hpoll
      cases hdecode : decode row with
      | none =>
        rw [hdecode] at hpoll
        exact covers_abandon (.audit (most_recent_assigned_audit seen)) current_block hpoll
      | some evt =>
        rw [hdecode] at hpoll
        refine covers_of_handled ?_ (Or.inl ⟨current_block, hpoll⟩)
        intro audit haudit
        have hkey := hrows (List.cons_ne_nil row rows)
        refine Or.inl ?_
        simpa [Assignment.request_id, most_recent_assigned_audit, haudit] using hkey
  | police probe =>
    unfold processed at hpoll
    split at hpoll
    · exact covers_abandon (.police probe) current_block hpoll
    · exact covers_of_free (Or.inr (Or.inl hpoll))
    · next heq => cases heq
    · split at hpoll
      · exact covers_of_free (Or.inr (Or.inl hpoll))
      · split at hpoll
        · exact covers_of_free (Or.inr (Or.inl hpoll))
        · simp [Covers, hpoll]

theorem Handled.of_frame {request_id : Int} (hhandled : Handled s request_id)
    (htable : request_id ∈ s.table.map Evt.request_id → request_id ∈ t.table.map Evt.request_id)
    (hinserts : ∀ evt, .add_evt_to_be_assigned evt ∈ writes .poll s.queue →
      .add_evt_to_be_assigned evt ∈ writes .poll t.queue ∨
        evt.request_id ∈ t.table.map Evt.request_id) : Handled t request_id := by
  rcases hhandled with hkey | ⟨evt, hevt, rfl⟩
  · exact Or.inl (htable hkey)
  · rcases hinserts evt hevt with hevt | hkey
    · exact Or.inr ⟨evt, hevt, rfl⟩
    · exact Or.inl hkey

theorem Covers.of_frame (hcovers : Covers seen s) (hpoll : t.poll = s.poll)
    (hhandled : ∀ request_id, Handled s request_id → Handled t request_id) : Covers seen t := by
  unfold Covers at hcovers ⊢
  rw [hpoll]
  split at hcovers
  all_goals first | exact hcovers | exact fun audit haudit => hhandled _ (hcovers audit haudit)

theorem covers_execute {fails : Bool} (hinv : Inv config s) (hcovers : Covers seen s)
    (hinsert : fails = true → ∀ w queue, s.queue ≠ (.poll, .write w) :: queue)
    (hstep : step config s (.execute fails) = some t) : Covers seen t := by
  have hframe (hpoll : t.poll = s.poll)
      (hinserts : ∀ evt, .add_evt_to_be_assigned evt ∈ writes .poll s.queue →
        .add_evt_to_be_assigned evt ∈ writes .poll t.queue ∨
          evt.request_id ∈ t.table.map Evt.request_id) : Covers seen t :=
    hcovers.of_frame hpoll
      (fun _ hhandled => hhandled.of_frame (keys_step hinv hstep) hinserts)
  simp only [step, execute] at hstep
  split at hstep
  · cases hstep
  · next client w queue hqueue =>
    obtain rfl := Option.some.inj hstep
    apply hframe rfl
    intro evt hevt
    rw [hqueue] at hevt
    cases client with
    | stage p =>
      rw [writes_cons_of_ne (by simp)] at hevt
      exact Or.inl hevt
    | poll =>
      rw [writes_cons_write] at hevt
      rcases List.mem_cons.mp hevt with rfl | hevt
      · obtain rfl : fails = false := by
          by_contra hfails
          exact hinsert (Bool.eq_true_of_not_eq_false hfails) _ _ hqueue
        have hpoll := hinv.poll
        rw [hqueue] at hpoll
        have hnew : evt.request_id ∉ s.table.map Evt.request_id :=
          hpoll.new (.add_evt_to_be_assigned evt) (by simp)
        refine Or.inr ?_
        simp [exec_add_evt hnew, encode, NewEvt.event]
      · exact Or.inl hevt
  · next p query queue hqueue =>
    obtain rfl := Option.some.inj hstep
    apply hframe rfl
    intro evt hevt
    rw [hqueue, writes_cons_of_ne (by simp)] at hevt
    exact Or.inl hevt
  · next query queue hqueue =>
    obtain rfl := Option.some.inj hstep
    have hpoll := hinv.poll
    rw [hqueue] at hpoll
    obtain ⟨hawaited, _⟩ := hpoll.lined.dequeue_read
    cases hpc : s.poll with
    | selecting assignment current_block =>
      rw [hpc] at hawaited
      obtain rfl : .event_by_request_id assignment.request_id = query := Option.some.inj hawaited
      cases fails with
      | true => exact covers_abandon assignment current_block rfl
      | false =>
        refine covers_processed assignment current_block
          ((Query.event_by_request_id assignment.request_id).rows s.table) ?_ ?_ rfl
        · rintro most_recent rfl
          simpa only [Covers, hpc] using hcovers
        · intro hrows
          obtain ⟨row, hrow⟩ := List.exists_mem_of_ne_nil _ hrows
          obtain ⟨hmem, hkey⟩ := List.mem_filter.mp hrow
          exact List.mem_map.mpr ⟨row, hmem, of_decide_eq_true hkey⟩
    | _ =>
      rw [hpc] at hawaited
      cases hawaited

theorem poll_audit_request_pc (config : Config) {assigned : List MostRecentAudit}
    (is_police_officer : Bool) (current_block : Int) {answer : Except PyException MostRecentAudit}
    (hids : ∀ audit ∈ assigned, audit.request_id ≠ 0)
    (hanswer : ∀ most_recent, answer = .ok most_recent →
      most_recent = most_recent_assigned_audit assigned) :
    let pc := poll_audit_request config is_police_officer current_block answer
    pc = .polling_police current_block ∨
      pc = .asking (.audit (most_recent_assigned_audit assigned)) current_block ∨
      (pc = .bidding current_block ∧ assigned.head? = none) := by
  unfold poll_audit_request
  split
  · exact Or.inl rfl
  · next most_recent =>
    obtain rfl := hanswer most_recent rfl
    split
    · exact Or.inl rfl
    · split
      · exact Or.inl rfl
      · split
        · exact Or.inr (Or.inl rfl)
        · next hzero =>
          refine Or.inr (Or.inr ⟨rfl, ?_⟩)
          cases hhead : assigned.head? with
          | none => rfl
          | some audit =>
            have hid := hids audit (List.mem_of_mem_head? hhead)
            simp [most_recent_assigned_audit, hhead, hid] at hzero

/-- The poll reads the contract: the latest assignment is the one to work on. -/
theorem covers_poll_audit {assigned : List MostRecentAudit} {is_police_officer : Bool}
    {answer : Except PyException MostRecentAudit}
    (hids : ∀ audit ∈ assigned, audit.request_id ≠ 0)
    (hanswer : ∀ most_recent, answer = .ok most_recent →
      most_recent = most_recent_assigned_audit assigned)
    (hstep : step config s (.poll_audit is_police_officer answer) = some t) : Covers assigned t := by
  simp only [step] at hstep
  split at hstep
  · next current_block hpoll =>
    have hframe := congrArg Node.poll (Option.some.inj hstep)
    rw [(poll_to_frame _ _).2.2.2.1] at hframe
    rcases poll_audit_request_pc config (s.is_police_officer_cached.getD is_police_officer)
      current_block hids hanswer with hpc | hpc | ⟨hpc, hnone⟩
    · rw [hpc] at hframe
      exact covers_of_free (Or.inr (Or.inr (Or.inl ⟨current_block, hframe.symm⟩)))
    · rw [hpc] at hframe
      simp [Covers, ← hframe]
    · rw [hpc] at hframe
      exact covers_of_handled (by simp [hnone]) (Or.inl ⟨current_block, hframe.symm⟩)
  · cases hstep

theorem covers_step {w : World} {label : Label} (hguarded : Guarded config w)
    (halone : w.bids_alone (.node label) = true) (hanswers : w.answers label = true)
    (hstep : step config w.node label = some t) : Covers (w.seen_after label) t := by
  have hcovers := hguarded.covers
  cases label with
  | execute fails =>
    refine covers_execute hguarded.inv hcovers ?_ hstep
    rintro rfl v queue hqueue
    simp [World.bids_alone, hqueue] at halone
  | poll_audit is_police_officer answer =>
    refine covers_poll_audit hguarded.ids ?_ hstep
    rintro most_recent rfl
    exact of_decide_eq_true hanswers
  | poll_put =>
    refine covers_put hcovers ?_ hstep
    intro assignment current_block hsaving
    simpa [World.bids_alone, hsaving] using halone
  | poll_bid answers => exact covers_bid hcovers hstep
  | poll_attempt answers => exact covers_attempt hcovers hstep
  | poll_begin =>
    simp only [step] at hstep
    split at hstep
    · obtain rfl := Option.some.inj hstep
      exact covers_of_free (Or.inl ⟨_, rfl⟩)
    · cases hstep
  | poll_police answer =>
    simp only [step] at hstep
    split at hstep
    · next current_block hpoll =>
      have hframe := congrArg Node.poll (Option.some.inj hstep)
      rw [(poll_to_frame _ _).2.2.2.1] at hframe
      unfold poll_police_request at hframe
      split at hframe
      · exact covers_of_free (Or.inr (Or.inl hframe.symm))
      · split at hframe
        · exact covers_of_free (Or.inr (Or.inr (Or.inr ⟨_, _, hframe.symm⟩)))
        · exact covers_of_free (Or.inr (Or.inl hframe.symm))
    · cases hstep
  | restart =>
    obtain rfl := Option.some.inj hstep
    exact covers_of_free (Or.inr (Or.inl rfl))
  | _ => exact hcovers.apart (step_apart (by simp [Label.client]) (by simp) (by simp) hstep)

theorem pending_after_cases (w : World) (label : Label) :
    w.pending_after label = w.pending ∨
      ∃ answers i nonce current_block, label = .poll_attempt answers ∧
        w.node.poll = .sending i nonce current_block ∧ answers.accepted = true ∧
        w.pending_after label = nonce :: w.pending := by
  unfold World.pending_after
  split
  · next answers i nonce current_block hpoll =>
    split
    · next haccepted => exact Or.inr ⟨answers, i, nonce, current_block, rfl, hpoll, haccepted, rfl⟩
    · exact Or.inl rfl
  · exact Or.inl rfl

/-- A bid that is alone is accepted only when all that was assigned is saved. -/
theorem Guarded.saved_of_accepted {w : World} {answers : tx.Answers} {i nonce : Nat}
    {current_block : Int} (hguarded : Guarded config w)
    (halone : w.bids_alone (.node (.poll_attempt answers)) = true)
    (hsending : w.node.poll = .sending i nonce current_block) (haccepted : answers.accepted = true) :
    w.pending = [] ∧ ∀ audit ∈ w.assigned, audit.request_id ∈ w.node.table.map Evt.request_id := by
  obtain ⟨hpending, hseen, hwrites⟩ : w.pending = [] ∧ w.seen = w.assigned ∧
      writes .poll w.node.queue = [] := by
    simpa [World.bids_alone, hsending, haccepted] using halone
  refine ⟨hpending, ?_⟩
  have hhandled : ∀ audit, w.seen.head? = some audit → Handled w.node audit.request_id := by
    simpa only [Covers, hsending] using hguarded.covers
  have hsaved := hguarded.saved
  intro audit haudit
  cases hassigned : w.assigned with
  | nil => simp [hassigned] at haudit
  | cons latest earlier =>
    rw [hassigned] at haudit hsaved
    rcases List.mem_cons.mp haudit with rfl | haudit
    · rcases hhandled audit (by simp [hseen, hassigned]) with hkey | ⟨evt, hevt, _⟩
      · exact hkey
      · simp [hwrites] at hevt
    · exact hsaved audit haudit

theorem guarded_node_step {w : World} {label : Label} (hguarded : Guarded config w)
    (halone : w.bids_alone (.node label) = true) (hanswers : w.answers label = true)
    (hstep : step config w.node label = some t) :
    Guarded config
      { w with node := t, pending := w.pending_after label, seen := w.seen_after label } where
  inv := step_inv label hguarded.inv hstep
  ids := hguarded.ids
  saved := fun audit haudit => keys_step hguarded.inv hstep (hguarded.saved audit haudit)
  pending := by
    rcases pending_after_cases w label with
      hsame | ⟨answers, i, nonce, current_block, rfl, hsending, haccepted, hpending⟩
    · simp only [hsame]
      rcases hguarded.pending with hnone | ⟨nonce, hone, hsaved⟩
      · exact Or.inl hnone
      · exact Or.inr ⟨nonce, hone, fun audit haudit =>
          keys_step hguarded.inv hstep (hsaved audit haudit)⟩
    · obtain ⟨hnone, hsaved⟩ := hguarded.saved_of_accepted halone hsending haccepted
      refine Or.inr ⟨nonce, ?_, fun audit haudit =>
        keys_step hguarded.inv hstep (hsaved audit haudit)⟩
      rw [hpending, hnone]
  covers := covers_step hguarded halone hanswers hstep

theorem world_step_guarded {w w' : World} {label : WorldLabel} (hguarded : Guarded config w)
    (halone : w.bids_alone label = true) (hstep : w.step config label = some w') :
    Guarded config w' := by
  cases label with
  | node label =>
    simp only [World.step] at hstep
    split at hstep
    · next hanswers =>
      obtain ⟨t, ht, rfl⟩ := Option.map_eq_some_iff.mp hstep
      exact guarded_node_step hguarded halone hanswers ht
    · cases hstep
  | mine_bid blocks nonce request =>
    simp only [World.step] at hstep
    split at hstep
    · next hguard =>
      obtain ⟨hmem, hid⟩ := hguard
      obtain rfl := Option.some.inj hstep
      rcases hguarded.pending with hnone | ⟨nonce', hone, hsaved⟩
      · simp [hnone] at hmem
      · rw [hone] at hmem
        obtain rfl := List.mem_singleton.mp hmem
        refine
          { inv := hguarded.inv
            ids := ?_
            saved := ?_
            pending := Or.inl (by simp [hone])
            covers := hguarded.covers.of_frame rfl (fun _ hhandled => hhandled) }
        · intro audit haudit
          rcases List.mem_append.mp haudit with haudit | haudit
          · cases request with
            | none => cases haudit
            | some request =>
              obtain rfl := List.mem_singleton.mp haudit
              simpa using hid
          · exact hguarded.ids audit haudit
        · intro audit haudit
          cases request with
          | none => exact hguarded.saved audit haudit
          | some request => exact hsaved audit haudit
    · cases hstep

/-- While every bid is accepted alone, all requests that were assigned to the
    node have a row, except possibly the latest one. -/
theorem assigned_saved_of_bids_alone (config : Config) (height : Int) (labels : List WorldLabel)
    (w : World)
    (halong : Along (World.step config) (fun w label => w.bids_alone label = true)
      (World.init config height) labels)
    (hrun : run (World.step config) (World.init config height) labels = some w) :
    ∀ audit ∈ w.assigned.tail, audit.request_id ∈ w.node.table.map Evt.request_id :=
  (run_invariant_along (motive := Guarded config)
    (fun _ _ _ hguarded halone hstep => world_step_guarded hguarded halone hstep)
    { inv := init_inv height
      ids := fun _ haudit => absurd haudit List.not_mem_nil
      saved := fun _ haudit => absurd haudit List.not_mem_nil
      pending := Or.inl rfl
      covers := covers_of_free (Or.inr (Or.inl rfl)) } halong hrun).saved

end

/-- The provider's answers to a bid that it accepts, given those to the queries
    for its receipt. -/
def bid_answers (receipt : Except PyException Unit) : tx.Answers :=
  { buildTransaction := .ok ()
    sendRawTransaction := .ok "0xb1d"
    waitForTransactionReceipt := receipt
    start_block := .ok 101
    current_block := .ok 101
    rounds := [(.ok 107, .ok (some 101))]
    getTransactionCount := .ok 5 }

def underpriced_bid : tx.Answers :=
  { bid_answers (.ok ()) with
    sendRawTransaction := .error (.ValueError "replacement transaction underpriced") }

/-- A poll that bids on a request that is available. -/
def bidding_poll (most_recent : MostRecentAudit) : List WorldLabel :=
  [.node .block_mined, .node .poll_begin, .node (.poll_audit false (.ok most_recent)),
    .node (.poll_bid
      { anyRequestAvailable := .ok 1, assignedRequestCount := .ok 0, getTransactionCount := .ok 5 })]

def first_request : AssignedRequest :=
  { request_id := 1, requestor := "0xa0", uri := "https://contract.sol", price := 100 }

def start_labels : List WorldLabel :=
  [.node .select_stale, .node (.execute false), .node .select_stale, .node (.execute false),
    .node .start_threads]

/-- A bid is mined, its request saved, and a second bid mined. -/
def lone_bids : List WorldLabel :=
  start_labels ++ bidding_poll no_audit ++
    [.node (.poll_attempt (bid_answers (.ok ()))), .mine_bid 1 5 (some first_request),
      .node (.poll_attempt (bid_answers (.ok ()))),
      .node (.poll_police (.error .Timeout)), .node (.mine 6), .node .block_mined, .node .poll_begin,
      .node (.poll_audit false
        (.ok
          { request_id := 1
            requestor := "0xa0"
            uri := "https://contract.sol"
            price := 100
            assignment_block_number := 101 })),
      .node .poll_put, .node (.execute false), .node .poll_put, .node (.execute false),
      .node (.poll_bid
        { anyRequestAvailable := .ok 1, assignedRequestCount := .ok 0, getTransactionCount := .ok 6 }),
      .node (.poll_attempt (bid_answers (.ok ()))),
      .mine_bid 1 6 (some { first_request with request_id := 2 })]

theorem assigned_saved_lone_bids :
    ∃ w, run (World.step sample_config) (World.init sample_config 100) lone_bids = some w ∧
      w.assigned.map MostRecentAudit.request_id = [2, 1] ∧
      ∀ audit ∈ w.assigned.tail, audit.request_id ∈ w.node.table.map Evt.request_id := by
  have hassigned : (run (World.step sample_config) (World.init sample_config 100) lone_bids).map
      (fun w => w.assigned.map MostRecentAudit.request_id) = some [2, 1] := by
    decide +kernel
  obtain ⟨w, hrun, hw⟩ := Option.map_eq_some_iff.mp hassigned
  exact ⟨w, hrun, hw,
    assigned_saved_of_bids_alone sample_config 100 lone_bids w (by decide +kernel) hrun⟩

/-- The receipt of a bid does not arrive in time; the next poll finds its nonce
    taken, bids under the next one, and both bids are mined. -/
def overlapping_bids : List WorldLabel :=
  start_labels ++ bidding_poll no_audit ++
    [.node (.poll_attempt (bid_answers (.error .Timeout))),
      .node (.poll_attempt (bid_answers (.error .Timeout))), .node (.poll_police (.error .Timeout)),
      .node (.mine 1)] ++
    bidding_poll no_audit ++
    [.node (.poll_attempt underpriced_bid), .node (.poll_attempt (bid_answers (.error .Timeout))),
      .mine_bid 1 5 (some first_request), .mine_bid 1 6 (some { first_request with request_id := 2 })]

theorem assigned_lost_overlapping_bids :
    ∃ w, run (World.step sample_config) (World.init sample_config 100) overlapping_bids = some w ∧
      ¬ ∀ audit ∈ w.assigned.tail, audit.request_id ∈ w.node.table.map Evt.request_id := by
  have hlost : (run (World.step sample_config) (World.init sample_config 100) overlapping_bids).map
      (fun w => w.assigned.tail.all (fun audit => audit.request_id ∈ w.node.table.map Evt.request_id)) =
        some false := by
    decide +kernel
  obtain ⟨w, hrun, hw⟩ := Option.map_eq_some_iff.mp hlost
  refine ⟨w, hrun, ?_⟩
  intro hall
  have htrue := List.all_eq_true.mpr (fun audit haudit => decide_eq_true (hall audit haudit))
  exact Bool.false_ne_true (hw.symm.trans htrue)

end qsp.audit
