import QspNode.Audit.Effects

open lib.fifo lib.transition qsp.evt qsp.monitor_submission_thread

namespace qsp.audit

/-- The status of the row of a request. -/
def status_of (table : List Row) (request_id : Int) : Option Status :=
  (table.find? (fun row => row.request_id = request_id)).map Evt.fk_status

/-- A step in which the row of a request enters `TS`. -/
def enters_to_be_submitted (request_id : Int) (s t : Node) : Bool :=
  status_of s.table request_id ≠ some .TS ∧ status_of t.table request_id = some .TS

section
variable {config : Config} {s t : Node} {table table' : List Row} {row : Row} {request_id : Int}

theorem status_of_mem (hkeys : (table.map Evt.request_id).Nodup) (hrow : row ∈ table) :
    status_of table row.request_id = some row.fk_status := by
  unfold status_of
  cases hfind : table.find? (fun other => other.request_id = row.request_id) with
  | none =>
    have hnone := List.find?_eq_none.mp hfind row hrow
    simp at hnone
  | some other =>
    have hkey : other.request_id = row.request_id := by simpa using List.find?_some hfind
    rw [lib.table.eq_of_key_eq hkeys (List.mem_of_find?_eq_some hfind) hrow hkey]
    rfl

theorem status_of_eq_none (hnone : request_id ∉ table.map Evt.request_id) :
    status_of table request_id = none := by
  rw [status_of, Option.map_eq_none_iff, List.find?_eq_none]
  intro row hrow hkey
  exact hnone (List.mem_map.mpr ⟨row, hrow, of_decide_eq_true hkey⟩)

/-- The attempts of a request, of which there are none before it has a row. -/
def Counted (request_id : Int) (n : Nat) (table : List Row) : Prop :=
  (request_id ∉ table.map Evt.request_id → n = 0) ∧
    ∀ row ∈ table, row.request_id = request_id → row.submission_attempts = n

/-- The attempts of a row grow exactly when it enters `TS`. -/
theorem counted_of_evolves {n : Nat} (hkeys : (s.table.map Evt.request_id).Nodup)
    (hkeys' : (t.table.map Evt.request_id).Nodup) (hcounted : Counted request_id n s.table)
    (hevolves : Evolves MAX_SUBMISSION_ATTEMPTS s.table t.table) :
    Counted request_id (n + if enters_to_be_submitted request_id s t then 1 else 0) t.table := by
  constructor
  · intro hnone
    have hbefore : request_id ∉ s.table.map Evt.request_id := by
      intro hmem
      obtain ⟨row, hrow, rfl⟩ := List.mem_map.mp hmem
      obtain ⟨row', hrow', hkey, _⟩ := hevolves.successor hrow
      exact hnone (List.mem_map.mpr ⟨row', hrow', hkey⟩)
    simp [hcounted.1 hbefore, enters_to_be_submitted, status_of_eq_none hnone]
  · rintro row' hrow' rfl
    have hafter := status_of_mem hkeys' hrow'
    rcases hevolves.origin hrow' with ⟨⟨evt, rfl⟩, hnone⟩ | ⟨row, hrow, hkey, hadvances⟩
    · rw [hcounted.1 hnone]
      have hassigned : (encode evt.event).fk_status = .AS := rfl
      simp [enters_to_be_submitted, hafter, hassigned]
      rfl
    · have hbefore := status_of_mem hkeys hrow
      rw [← hkey] at hbefore
      have hn := hcounted.2 row hrow hkey.symm
      cases hadvances with
      | refl => simp [enters_to_be_submitted, hbefore, hafter, hn]
      | single hadvances =>
        have hstatus := hadvances.status
        rw [hadvances.attempts, hn]
        by_cases hts : row'.fk_status = .TS
        · have hne : row.fk_status ≠ .TS := by
            intro heq
            simp [heq, hts, Status.successors] at hstatus
          simp [enters_to_be_submitted, hbefore, hafter, hts, hne]
        · simp [enters_to_be_submitted, hafter, hts]

theorem attempts_eq_tally {height : Int} {labels : List Label}
    (hrun : run (step config) (init config height) labels = some s) (hrow : row ∈ s.table) :
    row.submission_attempts =
      tally (step config) (enters_to_be_submitted row.request_id) (init config height) labels := by
  have htally := run_tally (p := enters_to_be_submitted row.request_id)
    (motive := fun n s => Inv config s ∧ Counted row.request_id n s.table) (n := 0) ?_
    ⟨init_inv height, fun _ => rfl, fun _ hmem => absurd hmem List.not_mem_nil⟩ hrun
  · rw [Nat.zero_add] at htally
    exact htally.2.2 row hrow rfl
  · rintro n s label t ⟨hinv, hcounted⟩ hstep
    have hinv' := step_inv label hinv hstep
    refine ⟨hinv', ?_⟩
    have hevolves := step_evolves hinv hstep
    rcases (Relation.reflGen_iff _ _ _).mp hevolves with heq | hevolves
    · have hsame : enters_to_be_submitted row.request_id s t = false := by
        simp [enters_to_be_submitted, heq]
      rw [hsame, heq]
      exact hcounted
    · exact counted_of_evolves hinv.keys hinv'.keys hcounted hevolves

/-- The row of a request after further steps. -/
theorem row_successor {labels : List Label} (hinv : Inv config s)
    (hrun : run (step config) s labels = some t) (hrow : row ∈ s.table) :
    ∃ row' ∈ t.table, row'.request_id = row.request_id ∧
      Relation.ReflTransGen (Advances MAX_SUBMISSION_ATTEMPTS) row row' :=
  lib.table.successor_of_reflTransGen (run_evolves hinv hrun) hrow

/-- The life cycle of the events, from an empty database on and across
    restarts: each step leaves the status of a row or follows the automaton, a
    final row stays as it is, and the submission attempts count how often the row
    entered `TS`. -/
theorem event_life_cycle (config : Config) (height : Int) (labels : List Label) (s : Node)
    (hrun : run (step config) (init config height) labels = some s) :
    (s.table.map Evt.request_id).Nodup ∧
    (∀ label t, step config s label = some t → ∀ row ∈ s.table,
      ∃ row' ∈ t.table, row'.request_id = row.request_id ∧ row'.fk_type = row.fk_type ∧
        (row'.fk_status = row.fk_status ∨ (row.fk_status, row'.fk_status) ∈
          [(.AS, .TS), (.AS, .ER), (.TS, .SB), (.TS, .ER), (.SB, .TS), (.SB, .DN), (.SB, .ER)])) ∧
    (∀ further t, run (step config) s further = some t → ∀ row ∈ s.table,
      row.fk_status = .DN ∨ row.fk_status = .ER →
        ∃ row' ∈ t.table, row'.request_id = row.request_id ∧ row'.fk_type = row.fk_type ∧
          row'.fk_status = row.fk_status) ∧
    ∀ row ∈ s.table,
      row.submission_attempts =
        tally (step config) (enters_to_be_submitted row.request_id) (init config height) labels ∧
      row.submission_attempts ≤ MAX_SUBMISSION_ATTEMPTS := by
  have hinv := run_inv (init_inv height) hrun
  refine ⟨hinv.keys, ?_, ?_, ?_⟩
  · intro label t hstep row hrow
    rcases (Relation.reflGen_iff _ _ _).mp (step_evolves hinv hstep) with heq | hevolves
    · exact ⟨row, heq ▸ hrow, rfl, rfl, Or.inl rfl⟩
    · obtain ⟨row', hrow', hkey, hadvances⟩ := hevolves.successor hrow
      cases hadvances with
      | refl => exact ⟨row, hrow', rfl, rfl, Or.inl rfl⟩
      | single hadvances =>
        refine ⟨row', hrow', hkey, (request_of_identity hadvances.identity).2, Or.inr ?_⟩
        have hstatus := hadvances.status
        revert hstatus
        cases row.fk_status <;> simp [Status.successors]
  · intro further t hfurther row hrow hfinal
    obtain ⟨row', hrow', _, hadvances⟩ := row_successor hinv hfurther hrow
    obtain rfl := eq_of_reflTransGen_advances hfinal hadvances
    exact ⟨row', hrow', rfl, rfl, rfl⟩
  · intro row hrow
    exact ⟨attempts_eq_tally hrun hrow, (hinv.stored row hrow).attempts_le⟩

end

def sample_config : Config :=
  { n_blocks_confirmation := 6
    submission_timeout_limit_blocks := 10
    block_discard_on_restart := 1
    max_assigned_requests := 1
    enable_police_audit_polling := false
    audit_contract_address := "0xc0" }

def accepted_submission : submit_report_thread.Answers :=
  { check_report := .ok true
    toBytes := .ok ()
    getTransactionCount := .ok 5
    provider := fun _ =>
      { buildTransaction := .ok ()
        sendRawTransaction := .ok "0xfeed"
        waitForTransactionReceipt := .ok ()
        start_block := .ok 0
        current_block := .ok 0
        rounds := []
        getTransactionCount := .ok 5 }
    traceback := "" }

/-- One audit from its assignment to the end. The second argument is the number
    of blocks that are mined between the generation of its report and the
    submission, the third that between the submission and the monitoring. -/
def audit_run (submission_delay monitor_delay : Nat) : List Label :=
  [.select_stale, .execute false, .select_stale, .execute false, .start_threads, .block_mined,
    .poll_begin,
    .poll_audit false
      (.ok
        { request_id := 7
          requestor := "0xa0"
          uri := "https://contract.sol"
          price := 100
          assignment_block_number := 90 }),
    .poll_put, .execute false, .poll_put, .execute false, .select_incoming, .execute false,
    .perform
      (.ok (some
        { audit_state := 4
          audit_uri := "https://report.json"
          audit_hash := "ab"
          full_report := "full report"
          compressed_report := "2003" }))
      (.ok ()) "",
    .put .perform, .execute false, .select_to_be_submitted, .execute false, .mine submission_delay,
    .submit accepted_submission, .put .submit, .execute false, .mine monitor_delay,
    .select_monitored (.ok 50), .execute false,
    .monitor { isAuditFinished := .ok true, block_number := .ok (), error_text := "", evt_text := "" }]

theorem event_life_cycle_audit_run :
    ∃ s, run (step sample_config) (init sample_config 100)
        (audit_run 0 6 ++ [.put .monitor, .execute false]) = some s ∧
      s.table.map Evt.fk_status = [.DN] ∧ ∀ row ∈ s.table,
        row.submission_attempts = tally (step sample_config) (enters_to_be_submitted row.request_id)
          (init sample_config 100) (audit_run 0 6 ++ [.put .monitor, .execute false]) ∧
        row.submission_attempts ≤ MAX_SUBMISSION_ATTEMPTS := by
  have hdone : (run (step sample_config) (init sample_config 100)
      (audit_run 0 6 ++ [.put .monitor, .execute false])).map (fun s => s.table.map Evt.fk_status) =
        some [.DN] := by
    decide +kernel
  obtain ⟨s, hrun, htable⟩ := Option.map_eq_some_iff.mp hdone
  exact ⟨s, hrun, htable, (event_life_cycle sample_config 100 _ s hrun).2.2.2⟩

end qsp.audit
