import QspNode.SubmitReportThread.Submission
import QspNode.Utils.Eth.Broadcast

open lib.loops qsp.evt

namespace qsp.tx

/-- The attempt ends in an error that calls the transaction known. -/
def KnownTransaction (config : Config) (wait_for_transaction_receipt : Bool) (answers : Answers) :
    Prop :=
  ∃ message, try_block config wait_for_transaction_receipt answers = some (.error (.ValueError message)) ∧
    mentions message "known transaction"

/-- The error does not read like one after which the nonce is raised. -/
def PlainlyKnown (config : Config) (wait_for_transaction_receipt : Bool) (answers : Answers) :
    Prop :=
  ∃ message, try_block config wait_for_transaction_receipt answers = some (.error (.ValueError message)) ∧
    mentions message "known transaction" ∧
    ¬ mentions message "replacement transaction underpriced" ∧ ¬ mentions message "nonce too low"

/-- An attempt before the last one that is reached is told plainly that its
    transaction is known. -/
def Deduplicates (config : Config) (wait_for_transaction_receipt : Bool) (attempts : Nat)
    (answers : Nat → Answers) : Prop :=
  ∃ j, j + 1 < attempts ∧
    (∀ k < j, Retried config wait_for_transaction_receipt attempts k (answers k)) ∧
    PlainlyKnown config wait_for_transaction_receipt (answers j)

/-- All attempts end in `ValueError`s. Counting transactions may fail as well,
    but not with an exception of this node. -/
structure ValueErrors (config : Config) (wait_for_transaction_receipt : Bool) (attempts : Nat)
    (answers : Nat → Answers) : Prop where
  attempt : ∀ i < attempts, ∃ message,
    try_block config wait_for_transaction_receipt (answers i) = some (.error (.ValueError message))
  count : ∀ i message,
    (answers i).getTransactionCount ≠ .error (.DeduplicationException message)

theorem handle_deduplication_iff {attempts i nonce : Nat} {answers : Answers} {message : String}
    (hcount : ∀ message, answers.getTransactionCount ≠ .error (.DeduplicationException message)) :
    (∃ error, handle attempts i nonce answers (.ValueError message) =
        .done (.error (.DeduplicationException error))) ↔
      i ≠ attempts - 1 ∧ mentions message "known transaction" ∧
        ¬ mentions message "replacement transaction underpriced" ∧
        ¬ mentions message "nonce too low" := by
  simp only [handle_error_iff]
  by_cases hlow : mentions message "nonce too low" = true
  · simp [hlow, hcount]
  · simp [hlow, and_comm]

theorem send_attempt_deduplication_iff {config : Config} {wait : Bool} {attempts i : Nat}
    {answers : Answers} (nonce : Nat)
    (hattempt : ∃ message, try_block config wait answers = some (.error (.ValueError message)))
    (hcount : ∀ message, answers.getTransactionCount ≠ .error (.DeduplicationException message)) :
    (∃ error, send_attempt config wait attempts i nonce answers =
        some (.done (.error (.DeduplicationException error)))) ↔
      i ≠ attempts - 1 ∧ PlainlyKnown config wait answers := by
  obtain ⟨message, htry⟩ := hattempt
  simp only [send_attempt, PlainlyKnown, htry, Option.map_some, Option.some.injEq,
    handle_deduplication_iff hcount, Except.error.injEq, PyException.ValueError.injEq, exists_eq_left']

/-- The loop ends in the exception for a known transaction at the first attempt
    that raises it, and all attempts before that are retried. -/
theorem send_loop_deduplication_iff {config : Config} {wait : Bool} {attempts : Nat}
    {answers : Nat → Answers} (herrors : ValueErrors config wait attempts answers) (nonce : Nat)
    {remaining i : Nat} (hremaining : i + remaining = attempts) :
    (∃ error, (send_loop config wait attempts answers remaining i nonce).result =
        some (.error (.DeduplicationException error))) ↔
      Reaches (fun k => Retried config wait attempts k (answers k))
        (fun j => j + 1 < attempts ∧ PlainlyKnown config wait (answers j)) i := by
  have hattempt : ∀ j < attempts, ∀ nonce,
      (∃ e, (∃ error, e = .DeduplicationException error) ∧
        send_attempt config wait attempts j nonce (answers j) = some (.done (.error e))) ↔
        j ≠ attempts - 1 ∧ PlainlyKnown config wait (answers j) := by
    intro j hj nonce
    rw [← send_attempt_deduplication_iff nonce (herrors.attempt j hj) (herrors.count j)]
    simp only [existsAndEq, true_and]
  have hlast : (fun j => j + 1 < attempts ∧ PlainlyKnown config wait (answers j)) =
      fun j => j < attempts ∧ j ≠ attempts - 1 ∧ PlainlyKnown config wait (answers j) := by
    funext j
    rw [← and_assoc, show (j + 1 < attempts) = (j < attempts ∧ j ≠ attempts - 1) by
      rw [eq_iff_iff]; omega]
  rw [hlast, ← send_loop_raises_iff hattempt nonce hremaining]
  simp only [existsAndEq, true_and]

end qsp.tx

namespace qsp.submit_report_thread

/-- The call raises the exception for known transactions, and a submission that
    it is part of leaves its event as it is. -/
def ReportedAsKnown (config : Config) (nonce attempts : Nat) (wait_for_transaction_receipt : Bool)
    (answers : Nat → tx.Answers) : Prop :=
  (∃ error, (tx.send_signed_transaction config nonce attempts wait_for_transaction_receipt
      answers).result = some (.error (.DeduplicationException error))) ∧
    ∀ (height : Int) (evt : Event) (calls : Answers) (is_verified : Option Bool),
      attempts = 10 → wait_for_transaction_receipt = false → calls.provider = answers →
      verdict evt calls = .ok is_verified → calls.toBytes = .ok () →
      calls.getTransactionCount = .ok nonce →
        process_submission_request config height evt calls = .skip

theorem tx_hash_of_result {config : Config} {height : Int} {evt : Event} {calls : Answers}
    {is_verified : Option Bool} {nonce : Nat} {e : PyException}
    (hverdict : verdict evt calls = .ok is_verified) (hbytes : calls.toBytes = .ok ())
    (hnonce : calls.getTransactionCount = .ok nonce)
    (hresult : (tx.send_signed_transaction config nonce 10 false calls.provider).result =
      some (.error e)) : tx_hash config height evt calls = .error e := by
  simp [tx_hash, submission, submit_report, hverdict, hbytes, hnonce, hresult, bind, Except.bind, pure,
    Except.pure]

/-- When all attempts end in errors, a known transaction is reported as such
    exactly when the provider says so plainly at an attempt before the last
    one. -/
theorem reportedAsKnown_iff (config : Config) (nonce attempts : Nat)
    (wait_for_transaction_receipt : Bool) {answers : Nat → tx.Answers}
    (herrors : tx.ValueErrors config wait_for_transaction_receipt attempts answers) :
    ReportedAsKnown config nonce attempts wait_for_transaction_receipt answers ↔
      tx.Deduplicates config wait_for_transaction_receipt attempts answers := by
  have hresult := tx.send_loop_deduplication_iff herrors nonce (Nat.zero_add attempts)
  have hreaches : Reaches (fun k => tx.Retried config wait_for_transaction_receipt attempts k (answers k))
      (fun j => j + 1 < attempts ∧ tx.PlainlyKnown config wait_for_transaction_receipt (answers j)) 0 ↔
        tx.Deduplicates config wait_for_transaction_receipt attempts answers := by
    simp only [Reaches, tx.Deduplicates, Nat.zero_le, true_and, true_implies, and_left_comm]
  rw [hreaches] at hresult
  rw [ReportedAsKnown, tx.send_signed_transaction, hresult]
  apply and_iff_left_of_imp
  intro hdeduplicates height evt calls is_verified hattempts hwait hprovider hverdict hbytes hnonce
  obtain ⟨error, herror⟩ := hresult.mpr hdeduplicates
  subst hattempts hwait hprovider
  rw [process_submission_request, tx_hash_of_result hverdict hbytes hnonce herror]

/-- A provider that knows the transaction at the given attempt and fails in an
    unknown way at the others. -/
def known_at (attempt i : Nat) : tx.Answers :=
  { buildTransaction := .ok ()
    sendRawTransaction :=
      if i = attempt then .error (.ValueError "ValueError('known transaction: c0ffee')")
      else .error (.ValueError "ValueError('unknown error')")
    waitForTransactionReceipt := .ok ()
    start_block := .ok 100
    current_block := .ok 100
    rounds := []
    getTransactionCount := .ok 6 }

def submitting_config : Config :=
  { n_blocks_confirmation := 6
    submission_timeout_limit_blocks := 10
    block_discard_on_restart := 1
    max_assigned_requests := 1
    enable_police_audit_polling := false
    audit_contract_address := "0x0" }

/-- The event of an audit that is to be submitted. -/
def submitting_evt : Event :=
  { (NewEvt.event
      { request_id := 7
        requestor := "0x1"
        contract_uri := "https://contract"
        evt_name := "LogAuditAssigned"
        assigned_block_nbr := 100
        status_info := "Audit Assigned"
        fk_type := .AU
        price := 10 }) with
    fk_status := .TS
    submission_attempts := 1
    audit_state := some 4
    compressed_report := some "2003" }

def submitting_calls (provider : Nat → tx.Answers) : Answers :=
  { check_report := .ok true
    toBytes := .ok ()
    getTransactionCount := .ok 5
    provider
    traceback := "Traceback" }

theorem valueErrors_known_at (attempt : Nat) :
    tx.ValueErrors submitting_config false 10 (known_at attempt) := by
  constructor
  · intro i _
    by_cases hknown : i = attempt
    · exact ⟨"ValueError('known transaction: c0ffee')", by simp [tx.try_block, known_at, hknown]⟩
    · exact ⟨"ValueError('unknown error')", by simp [tx.try_block, known_at, hknown]⟩
  · intro i message heq
    cases heq

/-- A transaction that is known at the third of ten attempts. -/
theorem reportedAsKnown_third_attempt :
    ReportedAsKnown submitting_config 5 10 false (known_at 2) ↔
      tx.Deduplicates submitting_config false 10 (known_at 2) :=
  reportedAsKnown_iff submitting_config 5 10 false (valueErrors_known_at 2)

/-- A transaction that turns out to be known at the last attempt only: the event
    fails. -/
theorem known_transaction_last_attempt :
    tx.ValueErrors submitting_config false 10 (known_at 9) ∧
      tx.KnownTransaction submitting_config false (known_at 9 9) ∧
      (∀ k < 9, tx.Retried submitting_config false 10 k (known_at 9 k)) ∧
      ¬ ReportedAsKnown submitting_config 5 10 false (known_at 9) ∧
      process_submission_request submitting_config 110 submitting_evt
          (submitting_calls (known_at 9)) =
        .put (set_evt_status_to_error { submitting_evt with status_info := some "Traceback" })
          .raise := by
  have herrors := valueErrors_known_at 9
  have hresult : (tx.send_signed_transaction submitting_config 5 10 false (known_at 9)).result =
      some (.error (.ValueError "ValueError('known transaction: c0ffee')")) := by
    decide +kernel
  refine ⟨herrors, ⟨_, rfl, by decide⟩, ?_, ?_, ?_⟩
  · intro k hk
    have hunknown : known_at 9 k = known_at 10 0 := by
      simp [known_at, show k ≠ 9 by omega]
    rw [hunknown]
    exact ⟨_, rfl, by omega, Or.inr (by rw [if_neg (by decide)]; decide)⟩
  · rintro ⟨⟨error, hknown⟩, _⟩
    rw [hresult] at hknown
    cases hknown
  · have hverdict : verdict submitting_evt (submitting_calls (known_at 9)) = .ok none := rfl
    have hnonce : (submitting_calls (known_at 9)).getTransactionCount = .ok 5 := rfl
    rw [process_submission_request, tx_hash_of_result hverdict rfl hnonce hresult]
    rfl

end qsp.submit_report_thread
