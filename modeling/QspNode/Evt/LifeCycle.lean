import Mathlib.Tactic.Tauto
import QspNode.Evt.Store

namespace qsp.evt

/-- The statuses that may follow a status. -/
def Status.successors : Status → List Status
  | .AS => [.TS, .ER]
  | .TS => [.SB, .ER]
  | .SB => [.TS, .DN, .ER]
  | .DN | .ER => []

/-- One step in the life of a stored event: what was requested stays, the report
    is final once the event is to be submitted, and the attempts count how often
    it was. -/
structure Advances (max_attempts : Nat) (row row' : Row) : Prop where
  identity : row'.identity = row.identity
  status : row'.fk_status ∈ row.fk_status.successors
  report : row.fk_status ≠ .AS → row'.report = row.report
  attempts : row'.submission_attempts = row.submission_attempts + if row'.fk_status = .TS then 1 else 0
  attempts_le : row'.submission_attempts ≤ max_attempts
  encoded : ∃ evt, row' = encode evt

/-- A row as it is inserted. -/
def Fresh (row : Row) : Prop := ∃ evt : NewEvt, row = encode evt.event

/-- What every row of the table satisfies. -/
structure Stored (max_attempts : Nat) (row : Row) : Prop where
  attempts_le : row.submission_attempts ≤ max_attempts
  attempts_eq_zero : row.fk_status = .AS → row.submission_attempts = 0
  encoded : ∃ evt, row = encode evt

/-- The life of the whole table. -/
abbrev Evolves (max_attempts : Nat) : List Row → List Row → Prop :=
  lib.table.Changes Evt.request_id Fresh (Advances max_attempts)

section
variable {max_attempts : Nat} {row row' : Row}

theorem Fresh.stored (hfresh : Fresh row) : Stored max_attempts row := by
  obtain ⟨evt, rfl⟩ := hfresh
  exact ⟨Nat.zero_le _, fun _ => rfl, evt.event, rfl⟩

theorem assigned_notMem_successors (status : Status) : Status.AS ∉ status.successors := by
  cases status <;> decide

theorem Advances.status_ne_assigned (hadvances : Advances max_attempts row row') :
    row'.fk_status ≠ .AS := by
  intro hassigned
  exact assigned_notMem_successors row.fk_status (hassigned ▸ hadvances.status)

theorem Advances.stored (hadvances : Advances max_attempts row row') : Stored max_attempts row' :=
  ⟨hadvances.attempts_le, fun hassigned => absurd hassigned hadvances.status_ne_assigned,
    hadvances.encoded⟩

theorem Evolves.stored {table table' : List Row} (hevolves : Evolves max_attempts table table')
    (hstored : ∀ row ∈ table, Stored max_attempts row) : ∀ row ∈ table', Stored max_attempts row :=
  hevolves.forall_mem (fun _ => Fresh.stored) (fun _ _ hadvances _ => hadvances.stored) hstored

/-- Nothing follows a final status. -/
theorem eq_of_reflTransGen_advances (hfinal : row.fk_status = .DN ∨ row.fk_status = .ER)
    (hadvances : Relation.ReflTransGen (Advances max_attempts) row row') : row' = row := by
  have hnone (next : Row) : ¬ Advances max_attempts row next := by
    intro hnext
    have hstatus := hnext.status
    rcases hfinal with hfinal | hfinal <;> simp [hfinal, Status.successors] at hstatus
  cases Relation.ReflTransGen.cases_head hadvances with
  | inl heq => exact heq.symm
  | inr hnext =>
    obtain ⟨next, hnext, _⟩ := hnext
    exact absurd hnext (hnone next)

theorem identity_of_reflTransGen_advances
    (hadvances : Relation.ReflTransGen (Advances max_attempts) row row') :
    row'.identity = row.identity := by
  induction hadvances with
  | refl => rfl
  | tail _ hlast ih => exact hlast.identity.trans ih

/-- Once the report is produced it never changes. -/
theorem report_of_reflTransGen_advances (hproduced : row.fk_status ≠ .AS)
    (hadvances : Relation.ReflTransGen (Advances max_attempts) row row') :
    row'.fk_status ≠ .AS ∧ row'.report = row.report := by
  induction hadvances with
  | refl => exact ⟨hproduced, rfl⟩
  | tail _ hlast ih => exact ⟨hlast.status_ne_assigned, (hlast.report ih.1).trans ih.2⟩

/-- A row keeps its place in the table, and what was requested. -/
theorem identity_of_evolves {table table' : List Row}
    (hevolves : Relation.ReflGen (Evolves max_attempts) table table') (hrow : row ∈ table) :
    ∃ row' ∈ table', row'.identity = row.identity := by
  obtain ⟨row', hrow', _, hadvances⟩ :=
    lib.table.successor_of_reflTransGen hevolves.to_reflTransGen hrow
  exact ⟨row', hrow', identity_of_reflTransGen_advances hadvances⟩

/-- A row whose report is produced keeps it, and its place in the table. -/
theorem produced_of_evolves {table table' : List Row}
    (hevolves : Relation.ReflGen (Evolves max_attempts) table table') (hrow : row ∈ table)
    (hproduced : row.fk_status ≠ .AS) :
    ∃ row' ∈ table', row'.fk_status ≠ .AS ∧ row'.identity = row.identity ∧ row'.report = row.report := by
  obtain ⟨row', hrow', _, hadvances⟩ :=
    lib.table.successor_of_reflTransGen hevolves.to_reflTransGen hrow
  obtain ⟨hproduced', hreport⟩ := report_of_reflTransGen_advances hproduced hadvances
  exact ⟨row', hrow', hproduced', identity_of_reflTransGen_advances hadvances, hreport⟩

end

/-- A statement that a thread may issue for a row: executed on it, it advances
    it. -/
def Issues (max_attempts : Nat) (row : Row) (w : Write) : Prop :=
  w.request_id = row.request_id ∧ Advances max_attempts row (w.on row)

theorem Issues.ne_add {max_attempts : Nat} {row : Row} {w : Write} (hissues : Issues max_attempts row w)
    (evt : NewEvt) : w ≠ .add_evt_to_be_assigned evt := by
  rintro rfl
  have hstatus : row.fk_status ∈ row.fk_status.successors := hissues.2.status
  revert hstatus
  cases row.fk_status <;> decide

section
variable {max_attempts : Nat} {evt evt' : Event}

theorem issues_to_be_submitted (hid : evt'.request_id = evt.request_id)
    (hstatus : evt.fk_status = .AS ∨ evt.fk_status = .SB)
    (hattempts : evt.submission_attempts + 1 ≤ max_attempts)
    (hreport : evt.fk_status ≠ .AS → evt'.report = evt.report) :
    Issues max_attempts (encode evt) (set_evt_status_to_be_submitted evt') := by
  have hguard : (encode evt).fk_status = .AS ∨ (encode evt).fk_status = .TS ∨
      (encode evt).fk_status = .SB := by
    simp only [encode]
    tauto
  have hon : (set_evt_status_to_be_submitted evt').on (encode evt) = encode
      { evt with
        fk_status := .TS
        status_info := evt'.status_info
        tx_hash := evt'.tx_hash
        audit_uri := evt'.audit_uri
        audit_hash := evt'.audit_hash
        audit_state := evt'.audit_state
        full_report := evt'.full_report
        compressed_report := evt'.compressed_report
        submission_block_nbr := evt'.submission_block_nbr
        submission_attempts := evt.submission_attempts + 1 } := by
    rw [set_evt_status_to_be_submitted, Write.on, if_pos hguard]
    simp only [encode]
  refine ⟨hid, ?_⟩
  rw [hon]
  refine ⟨rfl, ?_, ?_, rfl, hattempts, _, rfl⟩
  · rcases hstatus with hstatus | hstatus <;> simp [encode, hstatus, Status.successors]
  · intro hne
    have hsame := hreport hne
    simp only [Evt.report, Prod.mk.injEq] at hsame
    simp [encode, Evt.report, hsame]

theorem issues_submitted (hid : evt'.request_id = evt.request_id) (hstatus : evt.fk_status = .TS)
    (hattempts : evt.submission_attempts ≤ max_attempts) (hreport : evt'.report = evt.report) :
    Issues max_attempts (encode evt) (set_evt_status_to_submitted evt') := by
  have hguard : (encode evt).fk_status = .TS := hstatus
  have hon : (set_evt_status_to_submitted evt').on (encode evt) = encode
      { evt with
        fk_status := .SB
        tx_hash := evt'.tx_hash
        status_info := evt'.status_info
        audit_uri := evt'.audit_uri
        audit_hash := evt'.audit_hash
        audit_state := evt'.audit_state } := by
    rw [set_evt_status_to_submitted, Write.on, if_pos hguard]
    simp only [encode]
  refine ⟨hid, ?_⟩
  rw [hon]
  refine ⟨rfl, ?_, ?_, rfl, hattempts, _, rfl⟩
  · simp [encode, hstatus, Status.successors]
  · intro _
    simp only [Evt.report, Prod.mk.injEq] at hreport
    simp [encode, Evt.report, hreport]

theorem issues_done (hid : evt'.request_id = evt.request_id) (hstatus : evt.fk_status = .SB)
    (hattempts : evt.submission_attempts ≤ max_attempts) :
    Issues max_attempts (encode evt) (set_evt_status_to_done evt') := by
  have hguard : (encode evt).fk_status = .AS ∨ (encode evt).fk_status = .TS ∨
      (encode evt).fk_status = .SB := Or.inr (Or.inr hstatus)
  have hon : (set_evt_status_to_done evt').on (encode evt) = encode
      { evt with fk_status := .DN, status_info := evt'.status_info, is_persisted := true } := by
    rw [set_evt_status_to_done, Write.on, if_pos hguard]
    simp only [encode]
  refine ⟨hid, ?_⟩
  rw [hon]
  refine ⟨rfl, ?_, fun _ => rfl, rfl, hattempts, _, rfl⟩
  simp [encode, hstatus, Status.successors]

/-- The update to the error status has no guard: that it never leaves a final
    status rests on the threads. -/
theorem issues_error (hid : evt'.request_id = evt.request_id)
    (hstatus : evt.fk_status ≠ .DN ∧ evt.fk_status ≠ .ER)
    (hattempts : evt.submission_attempts ≤ max_attempts) :
    Issues max_attempts (encode evt) (set_evt_status_to_error evt') := by
  have hon : (set_evt_status_to_error evt').on (encode evt) = encode
      { evt with fk_status := .ER, status_info := evt'.status_info } := rfl
  refine ⟨hid, ?_⟩
  rw [hon]
  refine ⟨rfl, ?_, fun _ => rfl, rfl, hattempts, _, rfl⟩
  obtain ⟨hdone, herror⟩ := hstatus
  revert hdone herror
  simp only [encode]
  cases evt.fk_status <;> decide

end

end qsp.evt
