import QspNode.Audit.Node

open lib.fifo qsp.evt qsp.poll_requests_thread

namespace qsp.audit

/-- The polling thread has at most one statement on its way, for a request that
    has no row. -/
structure PollInv (config : Config) (keys : List Int) (queue : List (Client × Request Write Query))
    (pc : Pc) : Prop where
  lined : Lined .poll (pc.awaited.map .event_by_request_id) queue
  single : (writes .poll queue ++ pc.statements config).length ≤ 1
  new : ∀ w ∈ writes .poll queue ++ pc.statements config, w.request_id ∉ keys

section
variable {config : Config} {keys : List Int} {queue : List (Client × Request Write Query)} {pc : Pc}
  {client : Client} {request : Request Write Query} {assignment : Assignment} {current_block : Int}
  {w : Write}

theorem pollInv_idle (hnone : requests .poll queue = []) : PollInv config keys queue .idle where
  lined := lined_of_requests_eq_nil hnone
  single := by simp [writes_eq_nil_of_requests hnone, Pc.statements]
  new := by simp [writes_eq_nil_of_requests hnone, Pc.statements]

theorem PollInv.enqueue_other (hinv : PollInv config keys queue pc) (hne : client ≠ .poll) :
    PollInv config keys (queue ++ [(client, request)]) pc where
  lined := hinv.lined.enqueue_other hne
  single := by simpa only [writes_enqueue_other hne] using hinv.single
  new := by simpa only [writes_enqueue_other hne] using hinv.new

theorem PollInv.dequeue_other (hinv : PollInv config keys ((client, request) :: queue) pc)
    (hne : client ≠ .poll) : PollInv config keys queue pc where
  lined := hinv.lined.dequeue_other hne
  single := by simpa only [writes_cons_of_ne hne] using hinv.single
  new := by simpa only [writes_cons_of_ne hne] using hinv.new

/-- Between its accesses to the database the thread is free to move. -/
theorem PollInv.move {pc' : Pc} (hinv : PollInv config keys queue pc) (hfree : pc.awaited = none)
    (hawaited : pc'.awaited = none) (hstatements : pc'.statements config = []) :
    PollInv config keys queue pc' where
  lined := by
    have hlined := hinv.lined
    rw [hfree] at hlined
    rwa [hawaited]
  single := by
    have hsingle := hinv.single
    rw [List.length_append] at hsingle
    rw [hstatements, List.append_nil]
    omega
  new := by
    intro w hw
    rw [hstatements, List.append_nil] at hw
    exact hinv.new w (List.mem_append_left _ hw)

theorem PollInv.ask (hinv : PollInv config keys queue (.asking assignment current_block)) :
    PollInv config keys (queue ++ [(.poll, .read (.event_by_request_id assignment.request_id))])
      (.selecting assignment current_block) where
  lined := Lined.enqueue_read hinv.lined
  single := by
    rw [writes_enqueue_read]
    exact hinv.single
  new := by
    rw [writes_enqueue_read]
    exact hinv.new

theorem PollInv.put {pc' : Pc} (hinv : PollInv config keys queue pc) (hfree : pc.awaited = none)
    (hstatement : pc.statements config = [w]) (hawaited : pc'.awaited = none)
    (hstatements : pc'.statements config = []) :
    PollInv config keys (queue ++ [(.poll, .write w)]) pc' where
  lined := by
    have hlined := hinv.lined
    rw [hfree] at hlined
    rw [hawaited]
    exact Lined.enqueue_write hlined
  single := by
    rw [writes_enqueue_write, hstatements, List.append_nil, ← hstatement]
    exact hinv.single
  new := by
    rw [writes_enqueue_write, hstatements, List.append_nil, ← hstatement]
    exact hinv.new

theorem PollInv.fail (hinv : PollInv config keys queue (.saving assignment current_block)) :
    PollInv config keys queue (.failing assignment current_block) where
  lined := hinv.lined
  single := by
    have hsingle := hinv.single
    simpa [Pc.statements] using hsingle
  new := by
    intro w hw
    rcases List.mem_append.mp hw with hw | hw
    · exact hinv.new w (List.mem_append_left _ hw)
    · obtain rfl : w = set_evt_status_to_error (assignment.evt config).event := List.mem_singleton.mp hw
      exact hinv.new (.add_evt_to_be_assigned (assignment.evt config))
        (List.mem_append_right _ List.mem_cons_self)

/-- Nothing is left of the polling thread once its statement is executed. -/
theorem PollInv.executed {keys' : List Int} (hinv : PollInv config keys ((.poll, .write w) :: queue) pc) :
    w.request_id ∉ keys ∧ writes .poll queue ++ pc.statements config = [] ∧
      PollInv config keys' queue pc := by
  have hnone : writes .poll queue ++ pc.statements config = [] := by
    have hsingle := hinv.single
    rw [writes_cons_write, List.cons_append, List.length_cons] at hsingle
    exact List.length_eq_zero_iff.mp (by omega)
  refine ⟨hinv.new w ?_, hnone, ?_⟩
  · simp
  · exact
      { lined := hinv.lined.dequeue_write
        single := by simp [hnone]
        new := by simp [hnone] }

theorem processed_awaited {rows : List Row} :
    (processed config assignment current_block rows).awaited = none := by
  unfold processed
  split
  · exact awaited_abandon
  · exact awaited_proceed
  · rfl
  · split
    · rfl
    · split <;> rfl

/-- The thread goes on to save an assignment only when it has no row and is
    confirmed. -/
theorem processed_statements (config : Config) (assignment : Assignment) (current_block : Int)
    (rows : List Row) :
    (processed config assignment current_block rows).statements config = [] ∨
      rows = [] ∧
        processed config assignment current_block rows = .saving assignment current_block := by
  unfold processed
  cases rows with
  | nil =>
    cases assignment with
    | audit most_recent => exact Or.inr ⟨rfl, rfl⟩
    | police probe =>
      simp only [is_request_processed]
      split
      · exact Or.inl rfl
      · split
        · exact Or.inl rfl
        · exact Or.inr ⟨trivial, rfl⟩
  | cons row rows =>
    left
    simp only [is_request_processed]
    cases decode row with
    | none => exact statements_abandon
    | some evt => exact statements_proceed

theorem PollInv.answered {query : Query} {table : List Row} (fails : Bool)
    (hinv : PollInv config (table.map Evt.request_id) ((.poll, .read query) :: queue) pc) :
    PollInv config (table.map Evt.request_id) queue (pc.answered config fails (query.rows table)) ∧
      ∃ assignment current_block, pc = .selecting assignment current_block ∧ writes .poll queue = [] := by
  obtain ⟨hawaited, hnone⟩ := hinv.lined.dequeue_read
  have hwrites : writes .poll queue = [] := writes_eq_nil_of_requests hnone
  cases pc with
  | selecting assignment current_block =>
    refine ⟨?_, assignment, current_block, rfl, hwrites⟩
    obtain rfl : .event_by_request_id assignment.request_id = query := Option.some.inj hawaited
    have hfree (pc' : Pc) (hpc' : pc'.awaited = none) :
        Lined .poll (pc'.awaited.map .event_by_request_id) queue := by
      rw [hpc']
      exact lined_of_requests_eq_nil hnone
    rw [Pc.answered]
    split
    · exact
        { lined := hfree _ awaited_abandon
          single := by simp [hwrites]
          new := by simp [hwrites] }
    · rcases processed_statements config assignment current_block
        ((Query.event_by_request_id assignment.request_id).rows table) with
        hstatements | ⟨hrows, hsaving⟩
      · exact
          { lined := hfree _ processed_awaited
            single := by simp [hwrites, hstatements]
            new := by simp [hwrites, hstatements] }
      · have hnew : assignment.request_id ∉ table.map Evt.request_id := by
          intro hmem
          obtain ⟨row, hrow, heq⟩ := List.mem_map.mp hmem
          have hfound := List.filter_eq_nil_iff.mp hrows row hrow
          simp [heq] at hfound
        rw [hsaving]
        exact
          { lined := hfree _ rfl
            single := by simp [hwrites, Pc.statements]
            new := by simpa [hwrites, Pc.statements, Write.request_id, evt_request_id] using hnew }
  | _ => cases hawaited

end

end qsp.audit
