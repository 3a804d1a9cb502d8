import Mathlib.Logic.Function.Basic
import QspNode.Lib.Fifo
import QspNode.MonitorSubmissionThread.Monitor
import QspNode.PerformAuditThread.Request
import QspNode.PollRequestsThread.Poll
import QspNode.SubmitReportThread.Submission

open lib.fifo qsp.evt

namespace qsp.audit

/-- The loops that run a callback on each row of a status: the timeout of stale
    requests on start and the three threads of the pipeline. -/
inductive Stage where
  | timeout
  | perform
  | submit
  | monitor
  deriving DecidableEq, Repr

/-- The clients of the database. -/
inductive Client where
  | poll
  | stage (stage : Stage)
  deriving DecidableEq, Repr

inductive Query where
  | events_with_status (status : Status)
  | event_by_request_id (request_id : Int)
  deriving DecidableEq, Repr

def Query.rows (table : List Row) : Query → List Row
  | .events_with_status status => table.filter (fun row => row.fk_status = status)
  | .event_by_request_id request_id => table.filter (fun row => row.request_id = request_id)

/-- What a stage is doing: it works through the rows it has read, waits for the
    rows of a status, is about to queue a statement, or has ended with an
    exception. -/
inductive Activity where
  | running (rows : List Row)
  | waiting (status : Status)
  | writing (w : Write) (full : Recovery) (rows : List Row)
  | dead
  deriving DecidableEq, Repr

def Action.activity (rows : List Row) : Action → Activity
  | .skip => .running rows
  | .put w full => .writing w full rows

/-- An assignment that a poll found worth a query of the database. -/
structure Poll where
  current_block : Int
  assignment : poll_requests_thread.Assignment
  deriving DecidableEq, Repr

/-- The node and its database. The lists `polls` and `sends` record, newest
    first, what the contract answered and which reports were sent. -/
structure Node where
  table : List Row
  queue : List (Client × Request Write Query)
  activity : Stage → Activity
  poll : poll_requests_thread.Pc
  is_police_officer_cached : Option Bool
  stale_queries : List Status
  first_valid_block : Int
  timeout_limit_blocks : Int
  started : Bool
  height : Int
  current_block : Int
  last_block_number : Int
  polls : List Poll
  sends : List submit_report_thread.Send

def max_queue_size : Nat := 10000

def Node.has_room (s : Node) : Bool := s.queue.length < max_queue_size

def Node.enqueue (client : Client) (request : Request Write Query) (s : Node) : Node :=
  { s with queue := s.queue ++ [(client, request)] }

def Node.set (p : Stage) (activity : Activity) (s : Node) : Node :=
  { s with activity := Function.update s.activity p activity }

/-- The callback of `__timeout_stale_requests`. -/
def timeout_event (first_valid_block : Int) (evt : Event) : Action :=
  if evt.assigned_block_nbr ≤ first_valid_block then
    .put (set_evt_status_to_error { evt with status_info := some "Submission timeout" }) .ignore
  else .skip

/-- The statuses whose rows `__timeout_stale_requests` goes through. -/
def stale_statuses : List Status := [.AS, .TS]

/-- The node starts anew on what the database holds. -/
def Node.restart (config : Config) (s : Node) : Node :=
  { s with
    queue := []
    activity := fun _ => .running []
    poll := .idle
    is_police_officer_cached := none
    stale_queries := stale_statuses
    first_valid_block :=
      s.height - config.submission_timeout_limit_blocks + config.block_discard_on_restart
    timeout_limit_blocks := 0
    started := false
    current_block := 0
    last_block_number := 0 }

/-- A node that starts with an empty database. -/
def init (config : Config) (height : Int) : Node :=
  Node.restart config
    { table := []
      queue := []
      activity := fun _ => .running []
      poll := .idle
      is_police_officer_cached := none
      stale_queries := []
      first_valid_block := 0
      timeout_limit_blocks := 0
      started := false
      height
      current_block := 0
      last_block_number := 0
      polls := []
      sends := [] }

/-- A stage that is done with its rows queries for those of a status. -/
def begin_select (p : Stage) (status : Status) (s : Node) : Option Node :=
  match s.activity p with
  | .running [] =>
    some (
      if s.has_room then
        (s.enqueue (.stage p) (.read (.events_with_status status))).set p (.waiting status)
      else s.set p .dead)
  | _ => none

/-- One round of the loop of `__process_evt_with_status`, with the reports that
    its callback sends. -/
def process_next (p : Stage) (callback : Event → Action) (sends : Event → List submit_report_thread.Send)
    (s : Node) : Option Node :=
  match s.activity p with
  | .running (row :: rows) =>
    some (
      match decode row with
      | none => s.set p .dead
      | some evt => { s.set p (Action.activity rows (callback evt)) with sends := sends evt ++ s.sends })
  | _ => none

/-- `queue.put` of the statement of a callback. -/
def put (p : Stage) (s : Node) : Option Node :=
  match s.activity p with
  | .writing w full rows =>
    some (
      if s.has_room then (s.enqueue (.stage p) (.write w)).set p (.running rows)
      else
        s.set p (
          match full with
          | .raise => .dead
          | .ignore => .running rows
          | .put w => .writing w .raise rows))
  | _ => none

/-- The worker serves the next request; one that fails changes nothing, and a
    stage does not survive a failed query. -/
def execute (config : Config) (fails : Bool) (s : Node) : Option Node :=
  match s.queue with
  | [] => none
  | (_, .write w) :: queue => some { s with queue, table := if fails then s.table else w.exec s.table }
  | (.stage p, .read query) :: queue =>
    some (({ s with queue } : Node).set p (if fails then .dead else .running (query.rows s.table)))
  | (.poll, .read query) :: queue =>
    some { s with queue, poll := s.poll.answered config fails (query.rows s.table) }

/-- `queue.put` of the polling thread. -/
def poll_put (config : Config) (s : Node) : Option Node :=
  match s.poll with
  | .asking assignment current_block =>
    some (
      if s.has_room then
        { s.enqueue .poll (.read (.event_by_request_id assignment.request_id)) with
          poll := .selecting assignment current_block }
      else { s with poll := assignment.abandon current_block })
  | .saving assignment current_block =>
    some (
      if s.has_room then
        { s.enqueue .poll (.write (.add_evt_to_be_assigned (assignment.evt config))) with
          poll := assignment.proceed current_block }
      else { s with poll := .failing assignment current_block })
  | .failing assignment current_block =>
    some (
      if s.has_room then
        { s.enqueue .poll (.write (set_evt_status_to_error (assignment.evt config).event)) with
          poll := assignment.proceed current_block }
      else { s with poll := assignment.abandon current_block })
  | _ => none

/-- The polling thread reaches a query for an assignment, or goes on without. -/
def Node.poll_to (pc : poll_requests_thread.Pc) (s : Node) : Node :=
  match pc with
  | .asking assignment current_block =>
    { s with poll := pc, polls := { current_block, assignment } :: s.polls }
  | _ => { s with poll := pc }

inductive Label where
  | mine (blocks : Nat)
  | block_mined
  | execute (fails : Bool)
  | select_stale
  | select_incoming
  | select_to_be_submitted
  | select_monitored (timeout_limit_blocks : Except PyException Int)
  | timeout
  | perform (audit : Except PyException (Option perform_audit_thread.AuditResult))
      (block_number : Except PyException Unit) (traceback : String)
  | submit (answers : submit_report_thread.Answers)
  | monitor (answers : monitor_submission_thread.Answers)
  | put (p : Stage)
  | poll_begin
  | poll_audit (is_police_officer : Bool) (answer : Except PyException poll_requests_thread.MostRecentAudit)
  | poll_police (answer : Except PyException poll_requests_thread.PoliceAssignment)
  | poll_put
  | poll_bid (answers : poll_requests_thread.BidAnswers)
  | poll_attempt (answers : tx.Answers)
  | start_threads
  | restart

/-- One step of the node, its database worker or the chain. -/
def step (config : Config) (s : Node) : Label → Option Node
  | .mine blocks => some { s with height := s.height + blocks }
  | .block_mined => some { s with current_block := max s.current_block s.height }
  | .execute fails => execute config fails s
  | .select_stale =>
    match s.stale_queries with
    | [] => none
    | status :: stale_queries => begin_select .timeout status { s with stale_queries }
  | .select_incoming => if s.started then begin_select .perform .AS s else none
  | .select_to_be_submitted => if s.started then begin_select .submit .TS s else none
  | .select_monitored timeout_limit_blocks =>
    if s.started ∧ s.activity .monitor = .running [] then
      match timeout_limit_blocks with
      | .error _ => some (s.set .monitor .dead)
      | .ok timeout_limit_blocks => begin_select .monitor .SB { s with timeout_limit_blocks }
    else none
  | .timeout => process_next .timeout (timeout_event s.first_valid_block) (fun _ => []) s
  | .perform audit block_number traceback =>
    process_next .perform
      (fun evt => perform_audit_thread.process_audit_request evt audit
        (block_number.map (fun _ => s.height)) traceback)
      (fun _ => []) s
  | .submit answers =>
    process_next .submit
      (fun evt => submit_report_thread.process_submission_request config s.height evt answers)
      (fun evt => submit_report_thread.sends config s.height evt answers) s
  | .monitor answers =>
    process_next .monitor
      (fun evt => monitor_submission_thread.monitor_submission_timeout config s.timeout_limit_blocks
        s.height evt answers)
      (fun _ => []) s
  | .put p => put p s
  | .poll_begin =>
    if s.started ∧ s.poll = .idle ∧ s.last_block_number ≠ s.current_block then
      some { s with last_block_number := s.current_block, poll := .polling_audit s.current_block }
    else none
  | .poll_audit is_police_officer answer =>
    match s.poll with
    | .polling_audit current_block =>
      let is_police_officer := s.is_police_officer_cached.getD is_police_officer
      some (
        { s with is_police_officer_cached := some is_police_officer }.poll_to
          (poll_requests_thread.poll_audit_request config is_police_officer current_block answer))
    | _ => none
  | .poll_police answer =>
    match s.poll with
    | .polling_police current_block =>
      some (s.poll_to
        (poll_requests_thread.poll_police_request (s.is_police_officer_cached.getD false) current_block
          answer))
    | _ => none
  | .poll_put => poll_put config s
  | .poll_bid answers =>
    match s.poll with
    | .bidding current_block => some { s with poll := poll_requests_thread.bid config answers current_block }
    | _ => none
  | .poll_attempt answers =>
    match s.poll with
    | .sending i nonce current_block =>
      some { s with
        poll :=
          if answers.accepted then .waiting i nonce current_block
          else poll_requests_thread.attempted config i nonce answers current_block }
    | .waiting i nonce current_block =>
      if answers.accepted then
        some { s with poll := poll_requests_thread.attempted config i nonce answers current_block }
      else none
    | _ => none
  | .start_threads =>
    if ¬ s.started ∧ s.stale_queries = [] ∧ s.activity .timeout = .running [] then
      some { s with started := true }
    else none
  | .restart => some (s.restart config)

end qsp.audit
