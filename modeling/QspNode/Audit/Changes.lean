import QspNode.Audit.Reports

open lib.transition qsp.evt qsp.monitor_submission_thread

namespace qsp.audit

def row_of (table : List Row) (request_id : Int) : Option Row :=
  table.find? (fun row => row.request_id = request_id)

/-- A step that changes the row that a request has. -/
def changes_row (request_id : Int) (s t : Node) : Bool :=
  match row_of s.table request_id with
  | none => false
  | some row => row_of t.table request_id ≠ some row

/-- The changes that a row can still go through: each attempt that is left takes
    one to be submitted and one to come back, or to end. -/
def remaining_changes (row : Row) : Nat :=
  match row.fk_status with
  | .AS => 2 * MAX_SUBMISSION_ATTEMPTS + 1
  | .TS => 2 * (MAX_SUBMISSION_ATTEMPTS - row.submission_attempts) + 2
  | .SB => 2 * (MAX_SUBMISSION_ATTEMPTS - row.submission_attempts) + 1
  | .DN | .ER => 0

/-- What a request has spent of its changes, of which there are none before it has
    a row. -/
def Spent (request_id : Int) (n : Nat) (table : List Row) : Prop :=
  (request_id ∉ table.map Evt.request_id → n = 0) ∧
    ∀ row ∈ table, row.request_id = request_id →
      n + remaining_changes row ≤ 2 * MAX_SUBMISSION_ATTEMPTS + 1

section
variable {config : Config} {s t : Node} {table : List Row} {row row' : Row} {request_id : Int}

theorem row_of_mem (hkeys : (table.map Evt.request_id).Nodup) (hrow : row ∈ table) :
    row_of table row.request_id = some row := by
  unfold row_of
  cases hfind : table.find? (fun other => other.request_id = row.request_id) with
  | none =>
    have hnone := List.find?_eq_none.mp hfind row hrow
    simp at hnone
  | some other =>
    have hkey : other.request_id = row.request_id := by simpa using List.find?_some hfind
    rw [lib.table.eq_of_key_eq hkeys (List.mem_of_find?_eq_some hfind) hrow hkey]

theorem row_of_eq_none (hnone : request_id ∉ table.map Evt.request_id) : row_of table request_id = none := by
  rw [row_of, List.find?_eq_none]
  intro row hrow hkey
  exact hnone (List.mem_map.mpr ⟨row, hrow, of_decide_eq_true hkey⟩)

/-- Each change brings a row closer to the end of its life. -/
theorem remaining_changes_lt (hstored : Stored MAX_SUBMISSION_ATTEMPTS row)
    (hadvances : Advances MAX_SUBMISSION_ATTEMPTS row row') :
    remaining_changes row' < remaining_changes row := by
  have hstatus := hadvances.status
  have hattempts := hadvances.attempts
  have hle := hadvances.attempts_le
  have hle' := hstored.attempts_le
  unfold remaining_changes
  cases hrow : row.fk_status with
  | AS =>
    have hzero := hstored.attempts_eq_zero hrow
    simp only [hrow, Status.successors, List.mem_cons, List.not_mem_nil, or_false] at hstatus
    rcases hstatus with hstatus | hstatus
    · simp only [hstatus, if_true] at hattempts ⊢
      omega
    · simp only [hstatus]
      omega
  | TS =>
    simp only [hrow, Status.successors, List.mem_cons, List.not_mem_nil, or_false] at hstatus
    rcases hstatus with hstatus | hstatus
    · simp only [hstatus, reduceCtorEq, if_false] at hattempts ⊢
      omega
    · simp only [hstatus]
      omega
  | SB =>
    simp only [hrow, Status.successors, List.mem_cons, List.not_mem_nil, or_false] at hstatus
    rcases hstatus with hstatus | hstatus | hstatus
    · simp only [hstatus, if_true] at hattempts ⊢
      omega
    · simp only [hstatus]
      omega
    · simp only [hstatus]
      omega
  | DN | ER => simp [hrow, Status.successors] at hstatus

theorem spent_of_evolves {n : Nat} (hkeys : (s.table.map Evt.request_id).Nodup)
    (hkeys' : (t.table.map Evt.request_id).Nodup)
    (hstored : ∀ row ∈ s.table, Stored MAX_SUBMISSION_ATTEMPTS row) (hspent : Spent request_id n s.table)
    (hevolves : Evolves MAX_SUBMISSION_ATTEMPTS s.table t.table) :
    Spent request_id (n + if changes_row request_id s t then 1 else 0) t.table := by
  constructor
  · intro hnone
    have hbefore := mt hevolves.mem_keys hnone
    simp [hspent.1 hbefore, changes_row, row_of_eq_none hbefore]
  · rintro row' hrow' rfl
    have hafter := row_of_mem hkeys' hrow'
    rcases hevolves.origin hrow' with ⟨⟨evt, rfl⟩, hnone⟩ | ⟨row, hrow, hkey, hadvances⟩
    · simp only [changes_row, row_of_eq_none hnone, hspent.1 hnone]
      exact Nat.le_refl _
    · have hbudget := hspent.2 row hrow hkey.symm
      cases hadvances with
      | refl =>
        have hbefore := row_of_mem hkeys hrow
        simpa [changes_row, hbefore, hafter] using hbudget
      | single hadvances =>
        have hless := remaining_changes_lt (hstored row hrow) hadvances
        split <;> omega

/-- In every run, across all interleavings of the threads and all restarts, the
    row of a request changes a bounded number of times. -/
theorem row_changes_bounded {height : Int} {labels : List Label} (request_id : Int)
    (hrun : run (step config) (init config height) labels = some s) :
    tally (step config) (changes_row request_id) (init config height) labels ≤
      2 * MAX_SUBMISSION_ATTEMPTS + 1 := by
  have htally := run_tally (p := changes_row request_id)
    (motive := fun n s => Inv config s ∧ Spent request_id n s.table) (n := 0) ?_
    ⟨init_inv height, fun _ => rfl, fun _ hmem => absurd hmem List.not_mem_nil⟩ hrun
  · rw [Nat.zero_add] at htally
    obtain ⟨_, hnone, hspent⟩ := htally
    by_cases hmem : request_id ∈ s.table.map Evt.request_id
    · obtain ⟨row, hrow, hid⟩ := List.mem_map.mp hmem
      exact Nat.le_trans (Nat.le_add_right _ _) (hspent row hrow hid)
    · rw [hnone hmem]
      exact Nat.zero_le _
  · rintro n s label t ⟨hinv, hspent⟩ hstep
    have hinv' := step_inv label hinv hstep
    refine ⟨hinv', ?_⟩
    rcases (Relation.reflGen_iff _ _ _).mp (step_evolves hinv hstep) with heq | hevolves
    · have hsame : changes_row request_id s t = false := by
        unfold changes_row
        split
        · rfl
        · next hrow => simp [heq, hrow]
      rw [hsame, heq]
      exact hspent
    · exact spent_of_evolves hinv.keys hinv'.keys hinv.stored hspent hevolves

end

/-- The report is submitted a third time, and found to be final. -/
def third_attempt_run : List Label :=
  resubmission_run ++
    [.put .submit, .execute false, .select_monitored (.ok 50), .execute false,
      .monitor { isAuditFinished := .ok false, block_number := .ok (), error_text := "", evt_text := "" },
      .put .monitor, .execute false, .select_to_be_submitted, .execute false, .submit accepted_submission,
      .put .submit, .execute false, .select_monitored (.ok 50), .execute false,
      .monitor { isAuditFinished := .ok true, block_number := .ok (), error_text := "", evt_text := "" },
      .put .monitor, .execute false]

theorem row_changes_bounded_third_attempt :
    tally (step sample_config) (changes_row 7) (init sample_config 100) third_attempt_run = 7 ∧
      tally (step sample_config) (changes_row 7) (init sample_config 100) third_attempt_run ≤
        2 * MAX_SUBMISSION_ATTEMPTS + 1 := by
  have hdone : (run (step sample_config) (init sample_config 100) third_attempt_run).map
      (fun s => s.table.map Evt.fk_status) = some [.DN] := by
    decide +kernel
  obtain ⟨s, hrun, _⟩ := Option.map_eq_some_iff.mp hdone
  exact ⟨by decide +kernel, row_changes_bounded 7 hrun⟩

end qsp.audit
