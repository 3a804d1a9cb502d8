import Mathlib.Data.List.Infix
import QspNode.Config
import QspNode.Exceptions

namespace qsp.tx

/-- What the provider answers during one attempt of `__send_signed_transaction`.
    Building covers signing; `rounds` holds the answers to the block number and
    the receipt query of each round of the confirmation wait. -/
structure Answers where
  buildTransaction : Except PyException Unit
  sendRawTransaction : Except PyException String
  waitForTransactionReceipt : Except PyException Unit
  start_block : Except PyException Int
  current_block : Except PyException Int
  rounds : List (Except PyException Int × Except PyException (Option Int))
  getTransactionCount : Except PyException Nat

/-- The loop of `__wait_for_confirmed_transaction_receipt`; `none` when the
    answers end before the loop does. -/
def confirmation_loop (n_blocks_confirmation start_block : Int) :
    (current_block : Int) → List (Except PyException Int × Except PyException (Option Int)) →
      Option (Except PyException Unit)
  | current_block, [] =>
    if current_block - start_block ≤ n_blocks_confirmation * 3 then none
    else some (.error .TransactionNotConfirmedException)
  | current_block, (block_number, receipt) :: rounds =>
    if current_block - start_block ≤ n_blocks_confirmation * 3 then
      match block_number, receipt with
      | .error e, _ | .ok _, .error e => some (.error e)
      | .ok current_block, .ok none =>
        confirmation_loop n_blocks_confirmation start_block current_block rounds
      | .ok current_block, .ok (some tx_block_number) =>
        if n_blocks_confirmation ≤ current_block - tx_block_number then some (.ok ())
        else confirmation_loop n_blocks_confirmation start_block current_block rounds
    else some (.error .TransactionNotConfirmedException)

/-- `__wait_for_confirmed_transaction_receipt`. -/
def wait_for_confirmed_transaction_receipt (config : Config) (answers : Answers) :
    Option (Except PyException Unit) :=
  match answers.start_block, answers.current_block with
  | .error e, _ | .ok _, .error e => some (.error e)
  | .ok start_block, .ok current_block =>
    confirmation_loop config.n_blocks_confirmation start_block current_block answers.rounds

/-- The `try` block of one attempt: the hash it returns or the exception it
    ends in, `none` when it waits without end. -/
def try_block (config : Config) (wait_for_transaction_receipt : Bool) (answers : Answers) :
    Option (Except PyException String) :=
  match answers.buildTransaction, answers.sendRawTransaction with
  | .error e, _ | .ok _, .error e => some (.error e)
  | .ok _, .ok tx_hash =>
    if wait_for_transaction_receipt then
      match answers.waitForTransactionReceipt with
      | .error e => some (.error e)
      | .ok _ =>
        if config.n_blocks_confirmation > 0 then
          (wait_for_confirmed_transaction_receipt config answers).map
            (fun confirmed => confirmed.map (fun _ => tx_hash))
        else some (.ok tx_hash)
    else some (.ok tx_hash)

/-- The provider takes the transaction of the attempt. -/
def Answers.accepted (answers : Answers) : Bool :=
  match answers.buildTransaction, answers.sendRawTransaction with
  | .ok _, .ok _ => true
  | _, _ => false

/-- How an attempt leaves the loop body. -/
inductive Next where
  | done (result : Except PyException String)
  | retry (nonce : Nat)

/-- Python's `text in repr(e)`. -/
def mentions (message text : String) : Bool := text.toList <:+: message.toList

/-- The `except` clauses of the loop. The clause for a nonce that is too low
    asks the provider once more, for its log message. -/
def handle (attempts i nonce : Nat) (answers : Answers) : PyException → Next
  | .ValueError message =>
    if i = attempts - 1 then .done (.error (.ValueError message))
    else if mentions message "replacement transaction underpriced" then .retry (nonce + 1)
    else if mentions message "nonce too low" then
      match answers.getTransactionCount with
      | .error e => .done (.error e)
      | .ok _ => .retry (nonce + 1)
    else if mentions message "known transaction" then
      .done (.error (.DeduplicationException message))
    else .retry nonce
  | e => .done (.error e)

def send_attempt (config : Config) (wait_for_transaction_receipt : Bool) (attempts i nonce : Nat)
    (answers : Answers) : Option Next :=
  (try_block config wait_for_transaction_receipt answers).map (fun result =>
    match result with
    | .ok tx_hash => .done (.ok tx_hash)
    | .error e => handle attempts i nonce answers e)

/-- What a call leaves behind: the nonces under which the provider accepted its
    transaction, and its result unless it waits without end. A loop without
    attempts returns nothing. -/
structure Outcome where
  accepted : List Nat
  result : Option (Except PyException (Option String))
  deriving DecidableEq

/-- The loop of `__send_signed_transaction` from attempt `i` on. -/
def send_loop (config : Config) (wait_for_transaction_receipt : Bool) (attempts : Nat)
    (answers : Nat → Answers) : (remaining i nonce : Nat) → Outcome
  | 0, _, _ => { accepted := [], result := some (.ok none) }
  | remaining + 1, i, nonce =>
    let accepted := if (answers i).accepted then [nonce] else []
    match send_attempt config wait_for_transaction_receipt attempts i nonce (answers i) with
    | none => { accepted, result := none }
    | some (.done result) => { accepted, result := some (result.map some) }
    | some (.retry nonce) =>
      let rest := send_loop config wait_for_transaction_receipt attempts answers remaining (i + 1) nonce
      { accepted := accepted ++ rest.accepted, result := rest.result }

/-- `__send_signed_transaction` with a local private key; the answers of the
    provider are given for each attempt. -/
def send_signed_transaction (config : Config) (nonce attempts : Nat)
    (wait_for_transaction_receipt : Bool) (answers : Nat → Answers) : Outcome :=
  send_loop config wait_for_transaction_receipt attempts answers attempts 0 nonce

end qsp.tx
