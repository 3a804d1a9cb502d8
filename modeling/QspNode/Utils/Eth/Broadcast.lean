import QspNode.Lib.Loops
import QspNode.Utils.Eth.Tx

open lib.loops

namespace qsp.tx

/-- The attempt ends in a `ValueError` after which the loop goes on. -/
def Retried (config : Config) (wait_for_transaction_receipt : Bool) (attempts i : Nat)
    (answers : Answers) : Prop :=
  ∃ message, try_block config wait_for_transaction_receipt answers = some (.error (.ValueError message)) ∧
    i ≠ attempts - 1 ∧
    (mentions message "replacement transaction underpriced" ∨
      if mentions message "nonce too low" then ∃ count, answers.getTransactionCount = .ok count
      else ¬ mentions message "known transaction")

theorem handle_retry_iff {attempts i nonce : Nat} {answers : Answers} {message : String} :
    (∃ next, handle attempts i nonce answers (.ValueError message) = .retry next) ↔
      i ≠ attempts - 1 ∧
      (mentions message "replacement transaction underpriced" ∨
        if mentions message "nonce too low" then ∃ count, answers.getTransactionCount = .ok count
        else ¬ mentions message "known transaction") := by
  unfold handle
  by_cases hlast : i = attempts - 1
  · simp [hlast]
  · by_cases hunderpriced : mentions message "replacement transaction underpriced" = true
    · simp [hlast, hunderpriced]
    · by_cases hlow : mentions message "nonce too low" = true
      · cases hcount : answers.getTransactionCount <;> simp [hlast, hunderpriced, hlow]
      · by_cases hknown : mentions message "known transaction" = true
        · simp [hlast, hunderpriced, hlow, hknown]
        · simp [hlast, hunderpriced, hlow, hknown]

theorem handle_error_iff {attempts i nonce : Nat} {answers : Answers} {message : String} {e : PyException} :
    handle attempts i nonce answers (.ValueError message) = .done (.error e) ↔
      (i = attempts - 1 ∧ e = .ValueError message) ∨
      (i ≠ attempts - 1 ∧ ¬ mentions message "replacement transaction underpriced" ∧
        if mentions message "nonce too low" then answers.getTransactionCount = .error e
        else mentions message "known transaction" ∧ e = .DeduplicationException message) := by
  unfold handle
  by_cases hlast : i = attempts - 1
  · simp [hlast, @eq_comm _ e]
  · by_cases hunderpriced : mentions message "replacement transaction underpriced" = true
    · simp [hlast, hunderpriced]
    · by_cases hlow : mentions message "nonce too low" = true
      · cases hcount : answers.getTransactionCount <;> simp [hlast, hunderpriced, hlow]
      · by_cases hknown : mentions message "known transaction" = true
        · simp [hlast, hunderpriced, hlow, hknown, @eq_comm _ e]
        · simp [hlast, hunderpriced, hlow, hknown]

theorem send_attempt_retry_iff {config : Config} {wait : Bool} {attempts i : Nat}
    {answers : Answers} (nonce : Nat) :
    (∃ next, send_attempt config wait attempts i nonce answers = some (.retry next)) ↔
      Retried config wait attempts i answers := by
  unfold send_attempt Retried
  cases htry : try_block config wait answers with
  | none => simp
  | some result =>
    cases result with
    | ok tx_hash => simp
    | error e =>
      cases e with
      | ValueError message => simpa using handle_retry_iff
      | _ => simp [handle]

/-- The loop ends in an exception of a kind exactly when an attempt that is
    reached ends in one. -/
theorem send_loop_raises_iff {config : Config} {wait : Bool} {attempts stop : Nat}
    {answers : Nat → Answers} {kind : PyException → Prop} {p : Nat → Prop}
    (hattempt : ∀ i < stop, ∀ nonce, (∃ e, kind e ∧
      send_attempt config wait attempts i nonce (answers i) = some (.done (.error e))) ↔ p i)
    (nonce : Nat) {remaining i : Nat} (hstop : i + remaining = stop) :
    (∃ e, kind e ∧ (send_loop config wait attempts answers remaining i nonce).result = some (.error e)) ↔
      Reaches (fun k => Retried config wait attempts k (answers k)) (fun j => j < stop ∧ p j) i := by
  induction remaining generalizing i nonce with
  | zero =>
    simp only [send_loop, Option.some.injEq, reduceCtorEq, and_false, exists_false, false_iff]
    rintro ⟨j, hle, _, hlt, _⟩
    omega
  | succ remaining ih =>
    have hlt : i < stop := by omega
    rw [reaches_iff, ← hattempt i hlt nonce, ← send_attempt_retry_iff nonce, send_loop]
    cases hstep : send_attempt config wait attempts i nonce (answers i) with
    | none => simp
    | some next =>
      cases next with
      | done result => cases result <;> simp [Except.map, hlt]
      | retry next =>
        have hrest : i + 1 + remaining = stop := by omega
        simp [ih next hrest]

/-- The nonces accepted from attempt `i` on are none exactly when no attempt
    that is reached is accepted. -/
theorem send_loop_accepted_eq_nil_iff {config : Config} {wait : Bool} {attempts stop : Nat}
    {answers : Nat → Answers} {remaining i nonce : Nat} (hstop : i + remaining = stop) :
    (send_loop config wait attempts answers remaining i nonce).accepted = [] ↔
      ¬ Reaches (fun k => Retried config wait attempts k (answers k))
        (fun j => j < stop ∧ (answers j).accepted = true) i := by
  induction remaining generalizing i nonce with
  | zero =>
    apply iff_of_true rfl
    rintro ⟨j, hle, _, hlt, _⟩
    omega
  | succ remaining ih =>
    have hlt : i < stop := by omega
    rw [reaches_iff, send_loop, ← send_attempt_retry_iff nonce]
    cases hattempt : send_attempt config wait attempts i nonce (answers i) with
    | none => simp [hlt]
    | some next =>
      cases next with
      | done result => simp [hlt]
      | retry next =>
        have hrest : i + 1 + remaining = stop := by omega
        simp [hlt, ih hrest]

/-- A second accepted attempt is reached from attempt `i` on. -/
def AcceptedTwice (config : Config) (wait_for_transaction_receipt : Bool) (attempts : Nat)
    (answers : Nat → Answers) (i stop : Nat) : Prop :=
  ∃ first second, i ≤ first ∧ first < second ∧ second < stop ∧
    (answers first).accepted = true ∧ (answers second).accepted = true ∧
    ∀ k, i ≤ k → k < second → Retried config wait_for_transaction_receipt attempts k (answers k)

theorem acceptedTwice_succ_iff {config : Config} {wait : Bool} {attempts : Nat}
    {answers : Nat → Answers} {i stop : Nat} :
    AcceptedTwice config wait attempts answers i stop ↔
      Retried config wait attempts i (answers i) ∧
        (((answers i).accepted = true ∧
            Reaches (fun k => Retried config wait attempts k (answers k))
              (fun j => j < stop ∧ (answers j).accepted = true) (i + 1)) ∨
          AcceptedTwice config wait attempts answers (i + 1) stop) := by
  constructor
  · rintro ⟨first, second, hle, hlt, hstop, hfirst, hsecond, hreached⟩
    obtain ⟨hretried, htail⟩ := (forall_rounds_iff (Nat.lt_of_le_of_lt hle hlt)).mp hreached
    refine ⟨hretried, ?_⟩
    rcases Nat.eq_or_lt_of_le hle with rfl | hle
    · exact Or.inl ⟨hfirst, second, hlt, htail, hstop, hsecond⟩
    · exact Or.inr ⟨first, second, hle, hlt, hstop, hfirst, hsecond, htail⟩
  · rintro ⟨hretried, ⟨hfirst, second, hlt, htail, hstop, hsecond⟩ |
      ⟨first, second, hle, hlt, hstop, hfirst, hsecond, htail⟩⟩
    · exact ⟨i, second, le_rfl, hlt, hstop, hfirst, hsecond,
        (forall_rounds_iff hlt).mpr ⟨hretried, htail⟩⟩
    · exact ⟨first, second, Nat.le_of_succ_le hle, hlt, hstop, hfirst, hsecond,
        (forall_rounds_iff (Nat.lt_trans hle hlt)).mpr ⟨hretried, htail⟩⟩

theorem send_loop_accepted_le_one_iff {config : Config} {wait : Bool} {attempts stop : Nat}
    {answers : Nat → Answers} {remaining i nonce : Nat} (hstop : i + remaining = stop) :
    (send_loop config wait attempts answers remaining i nonce).accepted.length ≤ 1 ↔
      ¬ AcceptedTwice config wait attempts answers i stop := by
  induction remaining generalizing i nonce with
  | zero =>
    apply iff_of_true (by simp [send_loop])
    rintro ⟨first, second, hle, hlt, hlast, _⟩
    omega
  | succ remaining ih =>
    rw [acceptedTwice_succ_iff, ← send_attempt_retry_iff nonce, send_loop]
    cases hattempt : send_attempt config wait attempts i nonce (answers i) with
    | none => cases (answers i).accepted <;> simp
    | some next =>
      cases next with
      | done result => cases (answers i).accepted <;> simp
      | retry next =>
        have hrest : i + 1 + remaining = stop := by omega
        cases hfirst : (answers i).accepted with
        | false => simpa using ih hrest
        | true =>
          have hnone : (send_loop config wait attempts answers remaining (i + 1) next).accepted = [] ↔
              ¬ Reaches (fun k => Retried config wait attempts k (answers k))
                (fun j => j < stop ∧ (answers j).accepted = true) (i + 1) :=
            send_loop_accepted_eq_nil_iff hrest
          have htwice : AcceptedTwice config wait attempts answers (i + 1) stop →
              Reaches (fun k => Retried config wait attempts k (answers k))
                (fun j => j < stop ∧ (answers j).accepted = true) (i + 1) := by
            rintro ⟨first, second, hle, hlt, hlast, _, hsecond, hreached⟩
            exact ⟨second, by omega, hreached, hlast, hsecond⟩
          rw [← or_iff_left_of_imp htwice, not_or] at hnone
          simpa using hnone

/-- One call has at most one accepted transaction, unless an accepted attempt
    and all that follow it up to a second accepted one end in `ValueError`s that
    are retried. -/
theorem send_signed_transaction_accepted_le_one_iff (config : Config) (nonce attempts : Nat)
    (wait_for_transaction_receipt : Bool) (answers : Nat → Answers) :
    (send_signed_transaction config nonce attempts wait_for_transaction_receipt answers).accepted.length
        ≤ 1 ↔
      ¬ ∃ first second, first < second ∧ second < attempts ∧
        (answers first).accepted = true ∧ (answers second).accepted = true ∧
        ∀ k < second, Retried config wait_for_transaction_receipt attempts k (answers k) := by
  rw [send_signed_transaction, send_loop_accepted_le_one_iff (Nat.zero_add attempts), AcceptedTwice]
  simp only [Nat.zero_le, true_and, true_implies]

/-- Without the wait for the receipt an accepted attempt is the last one. -/
theorem not_retried_of_accepted {config : Config} {attempts i : Nat} {answers : Answers}
    (haccepted : answers.accepted = true) : ¬ Retried config false attempts i answers := by
  rintro ⟨message, htry, _⟩
  unfold Answers.accepted at haccepted
  unfold try_block at htry
  cases hbuild : answers.buildTransaction with
  | error e => simp [hbuild] at haccepted
  | ok _ =>
    cases hsend : answers.sendRawTransaction with
    | error e => simp [hbuild, hsend] at haccepted
    | ok tx_hash => simp [hbuild, hsend] at htry

theorem send_signed_transaction_no_wait_accepted_le_one (config : Config) (nonce attempts : Nat)
    (answers : Nat → Answers) :
    (send_signed_transaction config nonce attempts false answers).accepted.length ≤ 1 := by
  rw [send_signed_transaction, send_loop_accepted_le_one_iff (Nat.zero_add attempts)]
  rintro ⟨first, second, _, hlt, _, hfirst, _, hreached⟩
  exact not_retried_of_accepted hfirst (hreached first (Nat.zero_le _) hlt)

/-- The answers of a provider that takes the first transaction but fails to
    report its receipt, finds the nonce used at the second attempt and takes the
    third one. -/
def receipt_error_answers (i : Nat) : Answers :=
  { buildTransaction := .ok ()
    sendRawTransaction :=
      if i = 1 then .error (.ValueError "ValueError('nonce too low')") else .ok "0xc0ffee"
    waitForTransactionReceipt :=
      if i = 0 then .error (.ValueError "ValueError('header not found')") else .ok ()
    start_block := .ok 100
    current_block := .ok 100
    rounds := [(.ok 107, .ok (some 101))]
    getTransactionCount := .ok 6 }

theorem send_signed_transaction_accepted_twice :
    ¬ (send_signed_transaction
        { n_blocks_confirmation := 6
          submission_timeout_limit_blocks := 10
          block_discard_on_restart := 1
          max_assigned_requests := 1
          enable_police_audit_polling := false
          audit_contract_address := "0x0" }
        5 10 true receipt_error_answers).accepted.length ≤ 1 := by
  decide +kernel

end qsp.tx
