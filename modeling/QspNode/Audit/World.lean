import QspNode.Audit.Node

open lib.fifo qsp.evt qsp.poll_requests_thread

namespace qsp.audit

/-- A request as a mined `getNextAuditRequest` transaction assigns it. -/
structure AssignedRequest where
  request_id : Int
  requestor : String
  uri : String
  price : Int
  deriving DecidableEq, Repr

/-- The node and the chain. The requests assigned to the node come newest first,
    the bids that are accepted and not mined by their nonces; `seen` is what was
    assigned when the polling thread last read the contract. -/
structure World where
  node : Node
  assigned : List MostRecentAudit
  pending : List Nat
  seen : List MostRecentAudit

/-- The answer of `myMostRecentAssignedAudit` when nothing was assigned. -/
def no_audit : MostRecentAudit :=
  { request_id := 0
    requestor := "0x0000000000000000000000000000000000000000"
    uri := ""
    price := 0
    assignment_block_number := 0 }

def most_recent_assigned_audit (assigned : List MostRecentAudit) : MostRecentAudit :=
  assigned.head?.getD no_audit

inductive WorldLabel where
  | node (label : Label)
  | mine_bid (blocks nonce : Nat) (request : Option AssignedRequest)

/-- How the provider refuses a transaction whose nonce is taken by one that is
    pending. -/
def refused (answers : tx.Answers) : Bool :=
  match answers.buildTransaction, answers.sendRawTransaction with
  | .error _, _ => true
  | .ok _, .error (.ValueError message) =>
    tx.mentions message "known transaction" ||
      tx.mentions message "replacement transaction underpriced"
  | .ok _, _ => false

/-- The answers of a step are those of the chain: the contract answers with the
    latest assignment, and a pending bid bars its nonce and has no receipt. -/
def World.answers (w : World) : Label → Bool
  | .poll_audit _ (.ok most_recent) => most_recent = most_recent_assigned_audit w.assigned
  | .poll_attempt answers =>
    match w.node.poll with
    | .sending _ nonce _ => !w.pending.contains nonce || refused answers
    | .waiting _ nonce _ =>
      !w.pending.contains nonce || answers.waitForTransactionReceipt.toOption.isNone
    | _ => true
  | _ => true

/-- The pending bids after a step of the node. -/
def World.pending_after (w : World) (label : Label) : List Nat :=
  match label, w.node.poll with
  | .poll_attempt answers, .sending _ nonce _ =>
    if answers.accepted then nonce :: w.pending else w.pending
  | _, _ => w.pending

def World.seen_after (w : World) : Label → List MostRecentAudit
  | .poll_audit _ _ => w.assigned
  | _ => w.seen

/-- A step of the node, or a bid that is mined after some blocks and assigns at
    most one request. -/
def World.step (config : Config) (w : World) : WorldLabel → Option World
  | .node label =>
    if w.answers label then
      (audit.step config w.node label).map (fun node =>
        { w with node, pending := w.pending_after label, seen := w.seen_after label })
    else none
  | .mine_bid blocks nonce request =>
    if nonce ∈ w.pending ∧ request.all (fun request => request.request_id ≠ 0) then
      let height := w.node.height + blocks
      some { w with
        node := { w.node with height }
        pending := w.pending.erase nonce
        assigned := (request.map (fun request =>
          { request_id := request.request_id
            requestor := request.requestor
            uri := request.uri
            price := request.price
            assignment_block_number := height })).toList ++ w.assigned }
    else none

/-- A new node, before anything was assigned to it. -/
def World.init (config : Config) (height : Int) : World :=
  { node := audit.init config height, assigned := [], pending := [], seen := [] }

/-- A bid is accepted only when no other is pending, nothing was assigned since
    the poll read the contract and its insert is executed; inserts find room in
    the queue and do not fail. -/
def World.bids_alone (w : World) : WorldLabel → Bool
  | .node (.execute true) =>
    match w.node.queue with
    | (.poll, .write _) :: _ => false
    | _ => true
  | .node .poll_put =>
    match w.node.poll with
    | .saving _ _ => w.node.has_room
    | _ => true
  | .node (.poll_attempt answers) =>
    match w.node.poll with
    | .sending _ _ _ =>
      !answers.accepted ||
        (w.pending = [] ∧ w.seen = w.assigned ∧ writes .poll w.node.queue = [])
    | _ => true
  | _ => true

end qsp.audit
