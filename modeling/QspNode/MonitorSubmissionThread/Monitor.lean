import QspNode.Config
import QspNode.Evt.Callback

open qsp.evt

namespace qsp.monitor_submission_thread

def MAX_SUBMISSION_ATTEMPTS : Nat := 3

/-- What the calls of `__monitor_submission_timeout` answer, with the texts of
    an exception and of an event in its messages. -/
structure Answers where
  isAuditFinished : Except PyException Bool
  block_number : Except PyException Unit
  error_text : String
  evt_text : String

/-- The statement of the last `except` clause. -/
def unexpected_error (evt : Event) (answers : Answers) : Write :=
  let evt := { evt with
    status_info := some ("Unexpected error when monitoring submission and timeout: " ++
      answers.error_text ++ ". " ++ "Audit event is " ++ answers.evt_text) }
  if MAX_SUBMISSION_ATTEMPTS < evt.submission_attempts + 1 then set_evt_status_to_error evt
  else set_evt_status_to_be_submitted evt

/-- The exception handlers of `__monitor_submission_timeout`. -/
def handle (evt : Event) (answers : Answers) : PyException → Action
  | .KeyError key =>
    .put
      (set_evt_status_to_error
        { evt with
          status_info := some ("KeyError when monitoring submission and timeout: '" ++ key ++ "'") })
      .raise
  | _ => .put (unexpected_error evt answers) .raise

/-- The branch for an audit that is finished. -/
def finished (config : Config) (current_block : Int) (evt : Event) (answers : Answers) : Action :=
  match evt.submission_block_nbr with
  | none => handle evt answers (.Exception "unsupported operand type(s) for -: 'int' and 'NoneType'")
  | some submission_block =>
    if current_block - submission_block < config.n_blocks_confirmation then .skip
    else
      .put (set_evt_status_to_done { evt with status_info := some "Report successfully submitted" })
        (.put (unexpected_error evt answers))

/-- The branch for an audit that is not finished. -/
def unfinished (current_block timeout_limit_blocks : Int) (evt : Event) (answers : Answers) : Action :=
  if current_block < evt.assigned_block_nbr + timeout_limit_blocks then
    if MAX_SUBMISSION_ATTEMPTS < evt.submission_attempts + 1 then
      .put
        (set_evt_status_to_error
          { evt with
            status_info := some ("Reached maximum number of submission attempts (" ++
              str MAX_SUBMISSION_ATTEMPTS ++ ")") })
        (.put (unexpected_error evt answers))
    else
      let evt := { evt with
        status_info := some ("Attempting to resubmit report " ++ str evt.request_id ++ " (retry = " ++
          str (evt.submission_attempts + 1) ++ ")")
        tx_hash := none }
      .put (set_evt_status_to_be_submitted evt) (.put (unexpected_error evt answers))
  else
    .put
      (set_evt_status_to_error
        { evt with
          status_info := some ("Submission of audit report outside completion window (" ++
            str timeout_limit_blocks ++ " blocks)") })
      (.put (unexpected_error evt answers))

/-- `__monitor_submission_timeout` at a height of the chain. -/
def monitor_submission_timeout (config : Config) (timeout_limit_blocks height : Int) (evt : Event)
    (answers : Answers) : Action :=
  match answers.isAuditFinished, answers.block_number with
  | .error e, _ | .ok _, .error e => handle evt answers e
  | .ok true, .ok _ => finished config height evt answers
  | .ok false, .ok _ => unfinished height timeout_limit_blocks evt answers

section
variable {config : Config} {evt evt' : Event} {answers : Answers}

theorem unexpected_error_issues (hid : evt'.request_id = evt.request_id) (hstatus : evt.fk_status = .SB)
    (hattempts : evt.submission_attempts ≤ MAX_SUBMISSION_ATTEMPTS)
    (hsame : evt'.submission_attempts = evt.submission_attempts) (hreport : evt'.report = evt.report) :
    Issues MAX_SUBMISSION_ATTEMPTS (encode evt) (unexpected_error evt' answers) := by
  simp only [unexpected_error]
  split
  · exact issues_error hid (by simp [hstatus]) hattempts
  · next hroom =>
    refine issues_to_be_submitted hid (Or.inr hstatus) ?_ (fun _ => hreport)
    simp only [hsame] at hroom
    omega

theorem handle_respects {e : PyException} (hstatus : evt.fk_status = .SB)
    (hattempts : evt.submission_attempts ≤ MAX_SUBMISSION_ATTEMPTS) :
    (handle evt answers e).Respects MAX_SUBMISSION_ATTEMPTS (encode evt) := by
  unfold handle
  split
  · exact ⟨issues_error rfl (by simp [hstatus]) hattempts, respects_raise⟩
  · exact ⟨unexpected_error_issues rfl hstatus hattempts rfl rfl, respects_raise⟩

theorem finished_respects {current_block : Int} (hstatus : evt.fk_status = .SB)
    (hattempts : evt.submission_attempts ≤ MAX_SUBMISSION_ATTEMPTS) :
    (finished config current_block evt answers).Respects MAX_SUBMISSION_ATTEMPTS (encode evt) := by
  unfold finished
  split
  · exact handle_respects hstatus hattempts
  · split
    · trivial
    · exact ⟨issues_done rfl hstatus hattempts,
        respects_put (unexpected_error_issues rfl hstatus hattempts rfl rfl)⟩

theorem unfinished_respects {current_block timeout_limit_blocks : Int} (hstatus : evt.fk_status = .SB)
    (hattempts : evt.submission_attempts ≤ MAX_SUBMISSION_ATTEMPTS) :
    (unfinished current_block timeout_limit_blocks evt answers).Respects MAX_SUBMISSION_ATTEMPTS
      (encode evt) := by
  have hfinal : evt.fk_status ≠ .DN ∧ evt.fk_status ≠ .ER := by simp [hstatus]
  have hunexpected : Issues MAX_SUBMISSION_ATTEMPTS (encode evt) (unexpected_error evt answers) :=
    unexpected_error_issues rfl hstatus hattempts rfl rfl
  unfold unfinished
  split
  · split
    · exact ⟨issues_error rfl hfinal hattempts, respects_put hunexpected⟩
    · next hroom =>
      exact ⟨issues_to_be_submitted rfl (Or.inr hstatus) (by omega) (fun _ => rfl),
        respects_put (unexpected_error_issues rfl hstatus hattempts rfl rfl)⟩
  · exact ⟨issues_error rfl hfinal hattempts, respects_put hunexpected⟩

theorem monitor_submission_timeout_respects {timeout_limit_blocks height : Int}
    (hstatus : evt.fk_status = .SB) (hattempts : evt.submission_attempts ≤ MAX_SUBMISSION_ATTEMPTS) :
    (monitor_submission_timeout config timeout_limit_blocks height evt answers).Respects
      MAX_SUBMISSION_ATTEMPTS (encode evt) := by
  unfold monitor_submission_timeout
  split
  · exact handle_respects hstatus hattempts
  · exact handle_respects hstatus hattempts
  · exact finished_respects hstatus hattempts
  · exact unfinished_respects hstatus hattempts

theorem unexpected_error_ne_done {status_info : Option String} {request_id : Int} :
    unexpected_error evt answers ≠ .set_evt_status_to_done status_info request_id := by
  simp only [unexpected_error]
  split <;> simp [set_evt_status_to_error, set_evt_status_to_be_submitted]

theorem handle_ne_done {e : PyException} {w : Write} {full : Recovery} {status_info : Option String}
    {request_id : Int} (haction : handle evt answers e = .put w full)
    (hdone : w = .set_evt_status_to_done status_info request_id ∨
      full = .put (.set_evt_status_to_done status_info request_id)) : False := by
  unfold handle at haction
  split at haction
  · obtain ⟨rfl, rfl⟩ := Action.put.inj haction
    rcases hdone with hdone | hdone <;> cases hdone
  · obtain ⟨rfl, rfl⟩ := Action.put.inj haction
    rcases hdone with hdone | hdone
    · exact unexpected_error_ne_done hdone
    · cases hdone

theorem unfinished_ne_done {current_block timeout_limit_blocks : Int} {w : Write} {full : Recovery}
    {status_info : Option String} {request_id : Int}
    (haction : unfinished current_block timeout_limit_blocks evt answers = .put w full)
    (hdone : w = .set_evt_status_to_done status_info request_id ∨
      full = .put (.set_evt_status_to_done status_info request_id)) : False := by
  unfold unfinished at haction
  split at haction
  · split at haction
    all_goals
      obtain ⟨rfl, rfl⟩ := Action.put.inj haction
      rcases hdone with hdone | hdone
      · cases hdone
      · exact unexpected_error_ne_done (Recovery.put.inj hdone)
  · obtain ⟨rfl, rfl⟩ := Action.put.inj haction
    rcases hdone with hdone | hdone
    · cases hdone
    · exact unexpected_error_ne_done (Recovery.put.inj hdone)

/-- An event is only declared done when the contract says that its audit is
    finished and its submission block is deep enough. -/
theorem monitor_submission_timeout_done {timeout_limit_blocks height : Int} {w : Write} {full : Recovery}
    {status_info : Option String} {request_id : Int}
    (haction : monitor_submission_timeout config timeout_limit_blocks height evt answers = .put w full)
    (hdone : w = .set_evt_status_to_done status_info request_id ∨
      full = .put (.set_evt_status_to_done status_info request_id)) :
    request_id = evt.request_id ∧ answers.isAuditFinished = .ok true ∧ answers.block_number = .ok () ∧
      ∃ submission_block, evt.submission_block_nbr = some submission_block ∧
        submission_block + config.n_blocks_confirmation ≤ height := by
  unfold monitor_submission_timeout at haction
  split at haction
  · exact (handle_ne_done haction hdone).elim
  · exact (handle_ne_done haction hdone).elim
  · next hfinished hnumber =>
    unfold finished at haction
    split at haction
    · exact (handle_ne_done haction hdone).elim
    · next submission_block hblock =>
      split at haction
      · cases haction
      · next hdeep =>
        obtain ⟨rfl, rfl⟩ := Action.put.inj haction
        refine ⟨?_, hfinished, hnumber, submission_block, hblock, by omega⟩
        rcases hdone with hdone | hdone
        · exact (Write.set_evt_status_to_done.inj hdone).2.symm
        · exact (unexpected_error_ne_done (Recovery.put.inj hdone)).elim
  · exact (unfinished_ne_done haction hdone).elim

end

end qsp.monitor_submission_thread
