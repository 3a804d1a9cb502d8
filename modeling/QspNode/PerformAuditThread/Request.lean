import QspNode.Evt.Callback

open qsp.evt

namespace qsp.perform_audit_thread

/-- What `PerformAuditThread.audit` returns when it produces a report. -/
structure AuditResult where
  audit_state : Int
  audit_uri : String
  audit_hash : String
  full_report : String
  compressed_report : String
  deriving DecidableEq, Repr

/-- `__process_audit_request`, given the outcome of the audit, the block number
    and the text of a traceback. The manager has no `set_evt_to_error`: without a
    result the callback ends in the last `except` clause. -/
def process_audit_request (evt : Event) (audit : Except PyException (Option AuditResult))
    (block_number : Except PyException Int) (traceback : String) : Action :=
  let error := set_evt_status_to_error { evt with status_info := some traceback }
  match audit, block_number with
  | .error (.KeyError _), _ | .ok (some _), .error (.KeyError _) => .skip
  | .error _, _ | .ok none, _ | .ok (some _), .error _ => .put error .raise
  | .ok (some audit_result), .ok block_number =>
    .put
      (set_evt_status_to_be_submitted
        { evt with
          audit_uri := some audit_result.audit_uri
          audit_hash := some audit_result.audit_hash
          audit_state := some audit_result.audit_state
          full_report := some audit_result.full_report
          compressed_report := some audit_result.compressed_report
          submission_block_nbr := some block_number
          status_info := some "Successfully generated report" })
      (.put error)

theorem process_audit_request_respects {max_attempts : Nat} {evt : Event}
    {audit : Except PyException (Option AuditResult)} {block_number : Except PyException Int}
    {traceback : String} (hstatus : evt.fk_status = .AS) (hattempts : evt.submission_attempts < max_attempts) :
    (process_audit_request evt audit block_number traceback).Respects max_attempts (encode evt) := by
  have herror : Issues max_attempts (encode evt)
      (set_evt_status_to_error { evt with status_info := some traceback }) :=
    issues_error rfl (by simp [hstatus]) (Nat.le_of_lt hattempts)
  unfold process_audit_request
  split
  · trivial
  · trivial
  · exact ⟨herror, respects_raise⟩
  · exact ⟨herror, respects_raise⟩
  · exact ⟨herror, respects_raise⟩
  · exact ⟨issues_to_be_submitted rfl (Or.inl hstatus) hattempts (absurd hstatus), respects_put herror⟩

end qsp.perform_audit_thread
