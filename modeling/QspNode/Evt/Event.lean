import QspNode.Lib.PythonInt

namespace qsp.evt

/-- The rows of the tables `evt_status` and `audit_type`. -/
inductive Status where
  | AS
  | TS
  | SB
  | DN
  | ER
  deriving DecidableEq, Repr

inductive EvtType where
  | AU
  | PC
  deriving DecidableEq, Repr

/-- A row of `audit_evt`. Its numeric text columns hold strings in the database
    and integers in the events that the threads work on. -/
structure Evt (ν : Type) where
  request_id : Int
  requestor : String
  contract_uri : String
  evt_name : String
  assigned_block_nbr : ν
  submission_block_nbr : Option ν
  fk_status : Status
  fk_type : EvtType
  price : ν
  status_info : Option String
  tx_hash : Option String
  submission_attempts : Nat
  is_persisted : Bool
  audit_uri : Option String
  audit_hash : Option String
  audit_state : Option Int
  full_report : Option String
  compressed_report : Option String
  deriving DecidableEq, Repr

abbrev Row := Evt String
abbrev Event := Evt Int

def is_audit {ν : Type} (evt : Evt ν) : Bool := evt.fk_type = .AU
def is_police_check {ν : Type} (evt : Evt ν) : Bool := evt.fk_type = .PC

/-- Rewrites the numeric columns and keeps the others. -/
def Evt.traverse {ν μ : Type} (f : ν → Option μ) (evt : Evt ν) : Option (Evt μ) := do
  let assigned_block_nbr ← f evt.assigned_block_nbr
  let submission_block_nbr ← evt.submission_block_nbr.elim (some none) (fun n => (f n).map some)
  let price ← f evt.price
  return {
    request_id := evt.request_id
    requestor := evt.requestor
    contract_uri := evt.contract_uri
    evt_name := evt.evt_name
    assigned_block_nbr
    submission_block_nbr
    fk_status := evt.fk_status
    fk_type := evt.fk_type
    price
    status_info := evt.status_info
    tx_hash := evt.tx_hash
    submission_attempts := evt.submission_attempts
    is_persisted := evt.is_persisted
    audit_uri := evt.audit_uri
    audit_hash := evt.audit_hash
    audit_state := evt.audit_state
    full_report := evt.full_report
    compressed_report := evt.compressed_report }

def str (n : Int) : String := String.ofList (lib.python.str n)

def int (s : String) : Option Int := lib.python.int 10 s.toList

/-- `EventPoolManager.__encode`. -/
def encode (evt : Event) : Row :=
  { request_id := evt.request_id
    requestor := evt.requestor
    contract_uri := evt.contract_uri
    evt_name := evt.evt_name
    assigned_block_nbr := str evt.assigned_block_nbr
    submission_block_nbr := evt.submission_block_nbr.map str
    fk_status := evt.fk_status
    fk_type := evt.fk_type
    price := str evt.price
    status_info := evt.status_info
    tx_hash := evt.tx_hash
    submission_attempts := evt.submission_attempts
    is_persisted := evt.is_persisted
    audit_uri := evt.audit_uri
    audit_hash := evt.audit_hash
    audit_state := evt.audit_state
    full_report := evt.full_report
    compressed_report := evt.compressed_report }

/-- `EventPoolManager.__decode`; `none` when a numeric column is no integer. -/
def decode (row : Row) : Option Event := row.traverse int

theorem int_str (n : Int) : int (str n) = some n := by
  rw [int, str, String.toList_ofList, lib.python.int_str]

/-- What the manager stores it reads back. -/
theorem decode_encode (evt : Event) : decode (encode evt) = some evt := by
  obtain ⟨_, _, _, _, _, submission_block_nbr, _, _, _, _, _, _, _, _, _, _, _, _⟩ := evt
  cases submission_block_nbr <;>
    simp [decode, encode, Evt.traverse, int_str]

theorem decode_columns {row : Row} {evt : Event} (hdecode : decode row = some evt) :
    evt.request_id = row.request_id ∧ evt.fk_type = row.fk_type ∧
      int row.assigned_block_nbr = some evt.assigned_block_nbr := by
  rw [decode, Evt.traverse] at hdecode
  simp only [Option.bind_eq_bind, Option.bind_eq_some_iff, Option.pure_def, Option.some.injEq] at hdecode
  obtain ⟨_, hblock, _, _, _, _, rfl⟩ := hdecode
  exact ⟨rfl, rfl, hblock⟩

/-- An event that has just been assigned, as the polling thread saves it. -/
structure NewEvt where
  request_id : Int
  requestor : String
  contract_uri : String
  evt_name : String
  assigned_block_nbr : Int
  status_info : String
  fk_type : EvtType
  price : Int
  deriving DecidableEq, Repr

/-- The event of a fresh row: `add_evt_to_be_assigned` leaves the other columns
    to their defaults. -/
def NewEvt.event (evt : NewEvt) : Event :=
  { request_id := evt.request_id
    requestor := evt.requestor
    contract_uri := evt.contract_uri
    evt_name := evt.evt_name
    assigned_block_nbr := evt.assigned_block_nbr
    submission_block_nbr := none
    fk_status := .AS
    fk_type := evt.fk_type
    price := evt.price
    status_info := some evt.status_info
    tx_hash := none
    submission_attempts := 0
    is_persisted := false
    audit_uri := none
    audit_hash := none
    audit_state := none
    full_report := none
    compressed_report := none }

end qsp.evt
