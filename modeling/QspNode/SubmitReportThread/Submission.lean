import QspNode.Evt.Callback
import QspNode.Utils.Eth.Tx

open qsp.evt

namespace qsp.submit_report_thread

/-- What the calls of one submission answer: the check of the report for police
    events, the decoding of the compressed report into bytes, the transaction
    count, the provider in each attempt, and the text of a traceback. -/
structure Answers where
  check_report : Except PyException Bool
  toBytes : Except PyException Unit
  getTransactionCount : Except PyException Nat
  provider : Nat → tx.Answers
  traceback : String

/-- A report handed to `send_signed_transaction`, with the nonces under which
    the provider accepted it. -/
structure Send where
  request_id : Int
  fk_type : EvtType
  audit_state : Option Int
  compressed_report : Option String
  is_verified : Option Bool
  height : Int
  accepted : List Nat
  deriving DecidableEq, Repr

/-- `__submit_audit_report` and `__submit_police_report`. -/
def submit_report (config : Config) (answers : Answers) : Except PyException tx.Outcome := do
  answers.toBytes
  let nonce ← answers.getTransactionCount
  return tx.send_signed_transaction config nonce 10 false answers.provider

/-- The verdict that goes with the report of a police check. -/
def verdict (evt : Event) (answers : Answers) : Except PyException (Option Bool) :=
  if is_audit evt then .ok none
  else if is_police_check evt then answers.check_report.map some
  else .error (.Exception "Unknown report type")

/-- The report that `__process_submission_request` sends, with what becomes of
    its transaction. -/
def submission (config : Config) (height : Int) (evt : Event) (answers : Answers) :
    Except PyException (Send × tx.Outcome) := do
  let is_verified ← verdict evt answers
  let outcome ← submit_report config answers
  return (
    { request_id := evt.request_id
      fk_type := evt.fk_type
      audit_state := evt.audit_state
      compressed_report := evt.compressed_report
      is_verified
      height
      accepted := outcome.accepted }, outcome)

def sends (config : Config) (height : Int) (evt : Event) (answers : Answers) : List Send :=
  match submission config height evt answers with
  | .error _ => []
  | .ok (send, _) => [send]

/-- The transaction hash of the submission, or the exception it ends in. -/
def tx_hash (config : Config) (height : Int) (evt : Event) (answers : Answers) :
    Except PyException String := do
  let (_, outcome) ← submission config height evt answers
  match outcome.result with
  | some (.error e) => .error e
  | some (.ok (some tx_hash)) => .ok tx_hash
  | some (.ok none) | none => .error (.Exception "'NoneType' object has no attribute 'hex'")

/-- `__process_submission_request`. -/
def process_submission_request (config : Config) (height : Int) (evt : Event) (answers : Answers) : Action :=
  let error := set_evt_status_to_error { evt with status_info := some answers.traceback }
  match tx_hash config height evt answers with
  | .error (.DeduplicationException _) | .error .TransactionNotConfirmedException
  | .error (.KeyError _) => .skip
  | .error _ => .put error .raise
  | .ok tx_hash =>
    .put
      (set_evt_status_to_submitted
        { evt with
          tx_hash := some tx_hash
          status_info := some "Report submitted (waiting for confirmation)" })
      (.put error)

theorem process_submission_request_respects {max_attempts : Nat} {config : Config} {height : Int}
    {evt : Event} {answers : Answers} (hstatus : evt.fk_status = .TS)
    (hattempts : evt.submission_attempts ≤ max_attempts) :
    (process_submission_request config height evt answers).Respects max_attempts (encode evt) := by
  have herror : Issues max_attempts (encode evt)
      (set_evt_status_to_error { evt with status_info := some answers.traceback }) :=
    issues_error rfl (by simp [hstatus]) hattempts
  unfold process_submission_request
  split
  · trivial
  · trivial
  · trivial
  · exact ⟨herror, respects_raise⟩
  · exact ⟨issues_submitted rfl hstatus hattempts rfl, respects_put herror⟩

/-- What is sent is the report of the event. -/
theorem mem_sends {config : Config} {height : Int} {evt : Event} {answers : Answers} {send : Send}
    (hsend : send ∈ sends config height evt answers) :
    send.request_id = evt.request_id ∧ send.fk_type = evt.fk_type ∧
      send.audit_state = evt.audit_state ∧ send.compressed_report = evt.compressed_report ∧
      send.height = height := by
  unfold sends at hsend
  split at hsend
  · cases hsend
  · next send' outcome hsubmission =>
    obtain rfl := List.mem_singleton.mp hsend
    rw [submission] at hsubmission
    obtain ⟨is_verified, _, hrest⟩ := bind_eq_ok_iff.mp hsubmission
    obtain ⟨outcome', _, hpair⟩ := bind_eq_ok_iff.mp hrest
    obtain ⟨rfl, _⟩ := Prod.mk.inj (pure_eq_ok_iff.mp hpair)
    exact ⟨rfl, rfl, rfl, rfl, rfl⟩

end qsp.submit_report_thread
