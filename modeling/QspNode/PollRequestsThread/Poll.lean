import QspNode.Evt.Store
import QspNode.Utils.Eth.Tx

open qsp.evt

namespace qsp.poll_requests_thread

/-- The tuple that `myMostRecentAssignedAudit` answers. -/
structure MostRecentAudit where
  request_id : Int
  requestor : String
  uri : String
  price : Int
  assignment_block_number : Int
  deriving DecidableEq, Repr

/-- The tuple that `getNextPoliceAssignment` answers. -/
structure PoliceAssignment where
  has_assignment : Bool
  request_id : Int
  price : Int
  uri : String
  assignment_block_number : Int
  deriving DecidableEq, Repr

/-- What one half of a poll has read from the contract. -/
inductive Assignment where
  | audit (most_recent : MostRecentAudit)
  | police (probe : PoliceAssignment)
  deriving DecidableEq, Repr

def Assignment.request_id : Assignment → Int
  | .audit most_recent => most_recent.request_id
  | .police probe => probe.request_id

/-- The event that `__add_evt_to_db` saves for an assignment. -/
def Assignment.evt (config : Config) : Assignment → NewEvt
  | .audit most_recent =>
    { request_id := most_recent.request_id
      requestor := most_recent.requestor
      contract_uri := most_recent.uri
      evt_name := "LogAuditAssigned"
      assigned_block_nbr := most_recent.assignment_block_number
      status_info := "Audit Assigned"
      fk_type := .AU
      price := most_recent.price }
  | .police probe =>
    { request_id := probe.request_id
      requestor := config.audit_contract_address
      contract_uri := probe.uri
      evt_name := "LogAuditAssigned"
      assigned_block_nbr := probe.assignment_block_number
      status_info := "Audit Assigned"
      fk_type := .PC
      price := probe.price }

/-- Where the polling thread is. The audit half of a poll saves what was
    assigned and goes on to bid; the police half follows. -/
inductive Pc where
  | idle
  | polling_audit (current_block : Int)
  | asking (assignment : Assignment) (current_block : Int)
  | selecting (assignment : Assignment) (current_block : Int)
  | saving (assignment : Assignment) (current_block : Int)
  | failing (assignment : Assignment) (current_block : Int)
  | bidding (current_block : Int)
  | sending (i nonce : Nat) (current_block : Int)
  | waiting (i nonce : Nat) (current_block : Int)
  | polling_police (current_block : Int)
  deriving DecidableEq, Repr

/-- Where the thread continues once an assignment is dealt with. -/
def Assignment.proceed (current_block : Int) : Assignment → Pc
  | .audit _ => .bidding current_block
  | .police _ => .idle

/-- Where the thread continues when a half of the poll ends in an exception. -/
def Assignment.abandon (current_block : Int) : Assignment → Pc
  | .audit _ => .polling_police current_block
  | .police _ => .idle

/-- `__poll_audit_request` up to the query of the database. -/
def poll_audit_request (config : Config) (is_police_officer : Bool) (current_block : Int) :
    Except PyException MostRecentAudit → Pc
  | .error _ => .polling_police current_block
  | .ok most_recent =>
    if is_police_officer ∧ ¬ config.enable_police_audit_polling then .polling_police current_block
    else if most_recent.assignment_block_number ≠ 0 ∧
        current_block < most_recent.assignment_block_number + config.n_blocks_confirmation then
      .polling_police current_block
    else if most_recent.request_id ≠ 0 then .asking (.audit most_recent) current_block
    else .bidding current_block

/-- `__poll_police_request` up to the query of the database. -/
def poll_police_request (is_police_officer : Bool) (current_block : Int) :
    Except PyException PoliceAssignment → Pc
  | .error _ => .idle
  | .ok probe => if is_police_officer then .asking (.police probe) current_block else .idle

/-- `is_request_processed` on the rows of the request. -/
def is_request_processed : List Row → Except PyException Bool
  | [] => .ok false
  | row :: _ =>
    match decode row with
    | none => .error (.ValueError "invalid literal for int() with base 10")
    | some _ => .ok true

/-- The half of the poll after the query of the database. -/
def processed (config : Config) (assignment : Assignment) (current_block : Int) (rows : List Row) : Pc :=
  match is_request_processed rows, assignment with
  | .error _, _ => assignment.abandon current_block
  | .ok true, _ => assignment.proceed current_block
  | .ok false, .audit _ => .saving assignment current_block
  | .ok false, .police probe =>
    if ¬ probe.has_assignment then .idle
    else if current_block < probe.assignment_block_number + config.n_blocks_confirmation then .idle
    else .saving assignment current_block

/-- The rows of a request reach the thread that waits for them; a failed query
    answers with a text that has no columns. -/
def Pc.answered (config : Config) (fails : Bool) (rows : List Row) : Pc → Pc
  | .selecting assignment current_block =>
    if fails then assignment.abandon current_block
    else processed config assignment current_block rows
  | pc => pc

/-- What the calls before a bid answer. -/
structure BidAnswers where
  anyRequestAvailable : Except PyException Int
  assignedRequestCount : Except PyException Int
  getTransactionCount : Except PyException Nat

def AVAILABLE_AUDIT_STATE_READY : Int := 1

/-- `__poll_audit_request` after the query of the database, up to the bid. -/
def bid (config : Config) (answers : BidAnswers) (current_block : Int) : Pc :=
  match answers.anyRequestAvailable, answers.assignedRequestCount, answers.getTransactionCount with
  | .ok any_request_available, .ok pending_requests_count, .ok nonce =>
    if any_request_available ≠ AVAILABLE_AUDIT_STATE_READY then .polling_police current_block
    else if config.max_assigned_requests ≤ pending_requests_count then .polling_police current_block
    else .sending 0 nonce current_block
  | _, _, _ => .polling_police current_block

/-- The attempts of `send_signed_transaction`. -/
def attempts : Nat := 10

/-- An attempt to send the bid is over, or waits for the receipt. -/
def attempted (config : Config) (i nonce : Nat) (answers : tx.Answers) (current_block : Int) : Pc :=
  match tx.send_attempt config true attempts i nonce answers with
  | none => .waiting i nonce current_block
  | some (.done _) => .polling_police current_block
  | some (.retry nonce) => .sending (i + 1) nonce current_block

/-- The statement the thread is about to queue. -/
def Pc.statements (config : Config) : Pc → List Write
  | .saving assignment _ => [.add_evt_to_be_assigned (assignment.evt config)]
  | .failing assignment _ => [set_evt_status_to_error (assignment.evt config).event]
  | _ => []

/-- The request whose rows the thread waits for. -/
def Pc.awaited : Pc → Option Int
  | .selecting assignment _ => some assignment.request_id
  | _ => none

/-- The assignment is deep enough in the chain to be saved. -/
def Assignment.Confirmed (config : Config) (current_block : Int) : Assignment → Prop
  | .audit most_recent =>
    most_recent.assignment_block_number = 0 ∨
      most_recent.assignment_block_number + config.n_blocks_confirmation ≤ current_block
  | .police probe =>
    probe.has_assignment = true ∧
      probe.assignment_block_number + config.n_blocks_confirmation ≤ current_block

section
variable {config : Config} {assignment : Assignment} {current_block : Int} {pc : Pc}

theorem evt_request_id : (assignment.evt config).request_id = assignment.request_id := by
  cases assignment <;> rfl

@[simp]
theorem statements_proceed : (assignment.proceed current_block).statements config = [] := by
  cases assignment <;> rfl

@[simp]
theorem awaited_proceed : (assignment.proceed current_block).awaited = none := by
  cases assignment <;> rfl

@[simp]
theorem statements_abandon : (assignment.abandon current_block).statements config = [] := by
  cases assignment <;> rfl

@[simp]
theorem awaited_abandon : (assignment.abandon current_block).awaited = none := by
  cases assignment <;> rfl

end

end qsp.poll_requests_thread
