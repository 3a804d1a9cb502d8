import QspNode.PerformAuditThread.Request
import QspNode.SubmitReportThread.Deduplication

open lib.loops

namespace qsp.tx

/-- The attempt ends in a `KeyError`: its own, or that of the query for the
    number of transactions after a nonce that is too low. -/
def RaisesKeyError (config : Config) (wait_for_transaction_receipt : Bool) (attempts i : Nat)
    (answers : Answers) : Prop :=
  (∃ key, try_block config wait_for_transaction_receipt answers = some (.error (.KeyError key))) ∨
    ∃ message key,
      try_block config wait_for_transaction_receipt answers = some (.error (.ValueError message)) ∧
      i ≠ attempts - 1 ∧ ¬ mentions message "replacement transaction underpriced" ∧
      mentions message "nonce too low" ∧ answers.getTransactionCount = .error (.KeyError key)

theorem handle_key_error_iff {attempts i nonce : Nat} {answers : Answers} {message : String} :
    (∃ key, handle attempts i nonce answers (.ValueError message) = .done (.error (.KeyError key))) ↔
      ∃ key, i ≠ attempts - 1 ∧ ¬ mentions message "replacement transaction underpriced" ∧
        mentions message "nonce too low" ∧ answers.getTransactionCount = .error (.KeyError key) := by
  apply exists_congr
  intro key
  rw [handle_error_iff]
  by_cases hlow : mentions message "nonce too low" = true
  · simp [hlow]
  · simp [hlow]

theorem send_attempt_key_error_iff {config : Config} {wait : Bool} {attempts i : Nat}
    {answers : Answers} (nonce : Nat) :
    (∃ key, send_attempt config wait attempts i nonce answers = some (.done (.error (.KeyError key)))) ↔
      RaisesKeyError config wait attempts i answers := by
  unfold send_attempt RaisesKeyError
  cases htry : try_block config wait answers with
  | none => simp
  | some result =>
    cases result with
    | ok tx_hash => simp
    | error e =>
      cases e with
      | ValueError message => simpa using handle_key_error_iff
      | _ => simp [handle]

theorem send_loop_key_error_iff {config : Config} {wait : Bool} {attempts : Nat}
    {answers : Nat → Answers} (nonce : Nat) {remaining i : Nat} (hremaining : i + remaining = attempts) :
    (∃ key, (send_loop config wait attempts answers remaining i nonce).result =
        some (.error (.KeyError key))) ↔
      Reaches (fun k => Retried config wait attempts k (answers k))
        (fun j => j < attempts ∧ RaisesKeyError config wait attempts j (answers j)) i := by
  have hattempt : ∀ j < attempts, ∀ nonce,
      (∃ e, (∃ key, e = .KeyError key) ∧
        send_attempt config wait attempts j nonce (answers j) = some (.done (.error e))) ↔
        RaisesKeyError config wait attempts j (answers j) := by
    intro j _ nonce
    rw [← send_attempt_key_error_iff nonce]
    simp only [existsAndEq, true_and]
  rw [← send_loop_raises_iff hattempt nonce hremaining]
  simp only [existsAndEq, true_and]

end qsp.tx

namespace qsp.evt

/-- The table after the callback, when its statement is taken and succeeds. -/
def Action.apply : Action → List Row → List Row
  | .skip, table => table
  | .put w _, table => w.exec table

/-- The row at position `i` of the table has one of the statuses. -/
def HasStatus (statuses : List Status) (i : Nat) (table : List Row) : Prop :=
  ∃ row, table[i]? = some row ∧ row.fk_status ∈ statuses

/-- An update for the request of a row rewrites the row in its place. -/
theorem hasStatus_exec_iff {w : Write} {statuses : List Status} {table : List Row} {i : Nat} {row : Row}
    (hupdate : ∀ evt, w ≠ .add_evt_to_be_assigned evt) (hrow : table[i]? = some row)
    (hid : w.request_id = row.request_id) :
    HasStatus statuses i (w.exec table) ↔ (w.on row).fk_status ∈ statuses := by
  rw [HasStatus, exec_update hupdate, lib.table.update, List.getElem?_map, hrow, Option.map_some,
    if_pos hid.symm]
  simp only [Option.some.injEq, exists_eq_left']

section
variable {table : List Row} {i : Nat} {row : Row} {evt : Event} {statuses : List Status}

theorem hasStatus_error (hrow : table[i]? = some row) (hid : evt.request_id = row.request_id)
    (herror : .ER ∈ statuses) : HasStatus statuses i ((set_evt_status_to_error evt).exec table) := by
  have hid' : (set_evt_status_to_error evt).request_id = row.request_id := hid
  rw [hasStatus_exec_iff (fun _ heq => by cases heq) hrow hid']
  exact herror

theorem hasStatus_to_be_submitted (hrow : table[i]? = some row) (hid : evt.request_id = row.request_id)
    (hstatus : row.fk_status = .AS) (hsubmit : .TS ∈ statuses) :
    HasStatus statuses i ((set_evt_status_to_be_submitted evt).exec table) := by
  have hid' : (set_evt_status_to_be_submitted evt).request_id = row.request_id := hid
  rw [hasStatus_exec_iff (fun _ heq => by cases heq) hrow hid']
  simpa [set_evt_status_to_be_submitted, Write.on, hstatus] using hsubmit

theorem hasStatus_submitted (hrow : table[i]? = some row) (hid : evt.request_id = row.request_id)
    (hstatus : row.fk_status = .TS) (hsubmitted : .SB ∈ statuses) :
    HasStatus statuses i ((set_evt_status_to_submitted evt).exec table) := by
  have hid' : (set_evt_status_to_submitted evt).request_id = row.request_id := hid
  rw [hasStatus_exec_iff (fun _ heq => by cases heq) hrow hid']
  simpa [set_evt_status_to_submitted, Write.on, hstatus] using hsubmitted

theorem not_hasStatus_skip (hrow : table[i]? = some row) (hstatus : row.fk_status ∉ statuses) :
    ¬ HasStatus statuses i (Action.skip.apply table) := by
  rintro ⟨row', hrow', hmem⟩
  obtain rfl : row = row' := Option.some.inj (hrow.symm.trans hrow')
  exact hstatus hmem

end

end qsp.evt

open qsp.evt

namespace qsp.perform_audit_thread

/-- The work of the stage ends in a `KeyError`. -/
def RaisesKeyError (audit : Except PyException (Option AuditResult))
    (block_number : Except PyException Int) : Prop :=
  (∃ key, audit = .error (.KeyError key)) ∨
    (∃ audit_result, audit = .ok (some audit_result)) ∧ ∃ key, block_number = .error (.KeyError key)

theorem process_audit_request_leaves_iff {table : List Row} {i : Nat} {row : Row} {evt : Event}
    (hrow : table[i]? = some row) (hdecode : decode row = some evt) (hstatus : row.fk_status = .AS)
    (audit : Except PyException (Option AuditResult)) (block_number : Except PyException Int)
    (traceback : String) :
    HasStatus [.TS, .ER] i
        ((process_audit_request evt audit block_number traceback).apply table) ↔
      ¬ RaisesKeyError audit block_number := by
  have hid : evt.request_id = row.request_id := (decode_columns hdecode).1
  have hskip : ¬ HasStatus [.TS, .ER] i (Action.skip.apply table) :=
    not_hasStatus_skip hrow (by simp [hstatus])
  have herror : HasStatus [.TS, .ER] i
      ((set_evt_status_to_error { evt with status_info := some traceback }).exec table) :=
    hasStatus_error hrow hid (by decide)
  unfold process_audit_request RaisesKeyError
  split
  · exact iff_of_false hskip (by simp)
  · exact iff_of_false hskip (by simp)
  · next e _ hkey =>
    exact iff_of_true herror (by simpa using hkey)
  · exact iff_of_true herror (by simp)
  · next _ e hkey =>
    exact iff_of_true herror (by simpa using hkey)
  · exact iff_of_true (hasStatus_to_be_submitted hrow hid hstatus (by decide)) (by simp)

end qsp.perform_audit_thread

namespace qsp.submit_report_thread

/-- The work of the stage ends in a `KeyError`: in the check of the police
    report, in one of the calls before the transaction is sent, or in an attempt
    to send it. -/
def RaisesKeyError (config : Config) (evt : Event) (answers : Answers) : Prop :=
  (is_police_check evt = true ∧ ∃ key, answers.check_report = .error (.KeyError key)) ∨
    (is_audit evt = true ∨ is_police_check evt = true ∧ ∃ correct, answers.check_report = .ok correct) ∧
      ((∃ key, answers.toBytes = .error (.KeyError key)) ∨
        answers.toBytes = .ok () ∧
          ((∃ key, answers.getTransactionCount = .error (.KeyError key)) ∨
            (∃ nonce, answers.getTransactionCount = .ok nonce) ∧
              ∃ j < 10, (∀ k < j, tx.Retried config false 10 k (answers.provider k)) ∧
                tx.RaisesKeyError config false 10 j (answers.provider j)))

/-- The outcomes that may leave an event to be submitted where it is. -/
def Excused (config : Config) (height : Int) (evt : Event) (answers : Answers) : Prop :=
  (∃ message, tx_hash config height evt answers = .error (.DeduplicationException message)) ∨
    tx_hash config height evt answers = .error .TransactionNotConfirmedException

theorem send_key_error_iff (config : Config) (nonce : Nat) (provider : Nat → tx.Answers) :
    (∃ key, (tx.send_signed_transaction config nonce 10 false provider).result =
        some (.error (.KeyError key))) ↔
      ∃ j < 10, (∀ k < j, tx.Retried config false 10 k (provider k)) ∧
        tx.RaisesKeyError config false 10 j (provider j) := by
  rw [tx.send_signed_transaction, tx.send_loop_key_error_iff nonce (Nat.zero_add 10)]
  simp only [Reaches, Nat.zero_le, true_and, true_implies, and_left_comm]

theorem verdict_key_error_iff {evt : Event} {answers : Answers} :
    (∃ key, verdict evt answers = .error (.KeyError key)) ↔
      is_police_check evt = true ∧ ∃ key, answers.check_report = .error (.KeyError key) := by
  cases htype : evt.fk_type <;> cases hcheck : answers.check_report <;>
    simp [verdict, is_audit, is_police_check, htype, hcheck, Except.map]

theorem verdict_ok_iff {evt : Event} {answers : Answers} :
    (∃ is_verified, verdict evt answers = .ok is_verified) ↔
      is_audit evt = true ∨ is_police_check evt = true ∧ ∃ correct, answers.check_report = .ok correct := by
  cases htype : evt.fk_type <;> cases hcheck : answers.check_report <;>
    simp [verdict, is_audit, is_police_check, htype, hcheck, Except.map]

theorem tx_hash_key_error_iff {config : Config} {evt : Event} {answers : Answers} (height : Int) :
    (∃ key, tx_hash config height evt answers = .error (.KeyError key)) ↔
      RaisesKeyError config evt answers := by
  rw [RaisesKeyError, ← verdict_key_error_iff, ← verdict_ok_iff]
  unfold tx_hash submission submit_report
  cases hverdict : verdict evt answers with
  | error e => simp [bind, Except.bind]
  | ok is_verified =>
    cases hbytes : answers.toBytes with
    | error e => simp [bind, Except.bind]
    | ok _ =>
      cases hcount : answers.getTransactionCount with
      | error e => simp [bind, Except.bind]
      | ok nonce =>
        rw [← send_key_error_iff config nonce answers.provider]
        cases hresult : (tx.send_signed_transaction config nonce 10 false answers.provider).result with
        | none => simp [hresult, bind, Except.bind, pure, Except.pure]
        | some result =>
          cases result with
          | error e => simp [hresult, bind, Except.bind, pure, Except.pure]
          | ok hash => cases hash <;> simp [hresult, bind, Except.bind, pure, Except.pure]

theorem process_submission_request_leaves_iff {table : List Row} {i : Nat} {row : Row} {evt : Event}
    (hrow : table[i]? = some row) (hdecode : decode row = some evt) (hstatus : row.fk_status = .TS)
    (config : Config) (height : Int) (answers : Answers) :
    HasStatus [.SB, .ER] i ((process_submission_request config height evt answers).apply table) ∨
        Excused config height evt answers ↔
      ¬ RaisesKeyError config evt answers := by
  have hid : evt.request_id = row.request_id := (decode_columns hdecode).1
  have hskip : ¬ HasStatus [.SB, .ER] i (Action.skip.apply table) :=
    not_hasStatus_skip hrow (by simp [hstatus])
  have herror : HasStatus [.SB, .ER] i
      ((set_evt_status_to_error { evt with status_info := some answers.traceback }).exec table) :=
    hasStatus_error hrow hid (by decide)
  rw [← tx_hash_key_error_iff height]
  unfold process_submission_request Excused
  split
  · next hwork => simp [hwork]
  · next hwork => simp [hwork]
  · next hwork => simp [hwork, hskip]
  · next hdedup hconfirmed hkey hwork =>
    refine iff_of_true (Or.inl herror) ?_
    rintro ⟨key, hkeyError⟩
    exact hkey key (Except.error.inj (hwork.symm.trans hkeyError))
  · next hwork =>
    exact iff_of_true (Or.inl (hasStatus_submitted hrow hid hstatus (by decide))) (by simp [hwork])

end qsp.submit_report_thread

namespace qsp.audit

open perform_audit_thread submit_report_thread

/-- A stage leaves an event where it is exactly when its work ends in a
    `KeyError`, which both callbacks only log, apart from the two exceptions that
    may leave an event to be submitted. -/
theorem stage_leaves_iff {table : List Row} {i : Nat} {row : Row} {evt : Event}
    (hrow : table[i]? = some row) (hdecode : decode row = some evt) :
    (row.fk_status = .AS → ∀ audit block_number traceback,
        HasStatus [.TS, .ER] i
            ((process_audit_request evt audit block_number traceback).apply table) ↔
          ¬ perform_audit_thread.RaisesKeyError audit block_number) ∧
      (row.fk_status = .TS → ∀ config height answers,
        HasStatus [.SB, .ER] i
              ((process_submission_request config height evt answers).apply table) ∨
            Excused config height evt answers ↔
          ¬ submit_report_thread.RaisesKeyError config evt answers) :=
  ⟨process_audit_request_leaves_iff hrow hdecode, process_submission_request_leaves_iff hrow hdecode⟩

def assigned_evt : Event := { submitting_evt with request_id := 6, fk_status := .AS }

/-- An assigned event and one that is to be submitted. -/
def staged_rows : List Row := [encode assigned_evt, encode submitting_evt]

def audited : AuditResult :=
  { audit_state := 4
    audit_uri := "https://report"
    audit_hash := "c0ffee"
    full_report := "\x7b\x7d"
    compressed_report := "2003" }

theorem stage_leaves_staged_rows :
    HasStatus [.TS, .ER] 0
        ((process_audit_request assigned_evt (.ok (some audited)) (.ok 110) "Traceback").apply
          staged_rows) ∧
      (HasStatus [.SB, .ER] 1
          ((process_submission_request submitting_config 110 submitting_evt
              (submitting_calls (known_at 2))).apply staged_rows) ∨
        Excused submitting_config 110 submitting_evt (submitting_calls (known_at 2)) ↔
        ¬ submit_report_thread.RaisesKeyError submitting_config submitting_evt
          (submitting_calls (known_at 2))) := by
  have hassigned : staged_rows[0]? = some (encode assigned_evt) := rfl
  have hsubmitting : staged_rows[1]? = some (encode submitting_evt) := rfl
  refine ⟨((stage_leaves_iff hassigned (decode_encode assigned_evt)).1 rfl _ _ _).mpr ?_,
    (stage_leaves_iff hsubmitting (decode_encode submitting_evt)).2 rfl _ _ _⟩
  simp [perform_audit_thread.RaisesKeyError]

/-- A provider that answers without a result makes both stages leave their
    events behind. -/
theorem stage_leaves_event_behind :
    ¬ HasStatus [.TS, .ER] 0
        ((process_audit_request assigned_evt (.ok (some audited)) (.error (.KeyError "result"))
          "Traceback").apply staged_rows) ∧
      ¬ (HasStatus [.SB, .ER] 1
          ((process_submission_request submitting_config 110 submitting_evt
            { submitting_calls (known_at 2) with
              getTransactionCount := .error (.KeyError "result") }).apply staged_rows) ∨
        Excused submitting_config 110 submitting_evt
          { submitting_calls (known_at 2) with
            getTransactionCount := .error (.KeyError "result") }) := by
  have hassigned : staged_rows[0]? = some (encode assigned_evt) := rfl
  have hsubmitting : staged_rows[1]? = some (encode submitting_evt) := rfl
  constructor
  · exact not_hasStatus_skip hassigned (by decide)
  · rintro (hleft | ⟨message, hraised⟩ | hraised)
    · exact not_hasStatus_skip hsubmitting (by decide) hleft
    · cases hraised
    · cases hraised

end qsp.audit
