import QspNode.Evt.Event
import QspNode.Lib.Table

namespace qsp.evt

/-- The statements that write to `audit_evt`, with the values they bind. -/
inductive Write where
  | add_evt_to_be_assigned (evt : NewEvt)
  | set_evt_status_to_be_submitted (values : Row)
  | set_evt_status_to_submitted (values : Row)
  | set_evt_status_to_done (status_info : Option String) (request_id : Int)
  | set_evt_status_to_error (status_info : Option String) (request_id : Int)
  deriving DecidableEq, Repr

def Write.request_id : Write → Int
  | .add_evt_to_be_assigned evt => evt.request_id
  | .set_evt_status_to_be_submitted values => values.request_id
  | .set_evt_status_to_submitted values => values.request_id
  | .set_evt_status_to_done _ request_id => request_id
  | .set_evt_status_to_error _ request_id => request_id

/-- What an update makes of a row with its request id. -/
def Write.on : Write → Row → Row
  | .add_evt_to_be_assigned _, row => row
  | .set_evt_status_to_be_submitted values, row =>
    if row.fk_status = .AS ∨ row.fk_status = .TS ∨ row.fk_status = .SB then
      { row with
        fk_status := .TS
        status_info := values.status_info
        tx_hash := values.tx_hash
        audit_uri := values.audit_uri
        audit_hash := values.audit_hash
        audit_state := values.audit_state
        full_report := values.full_report
        compressed_report := values.compressed_report
        submission_block_nbr := values.submission_block_nbr
        submission_attempts := row.submission_attempts + 1 }
    else row
  | .set_evt_status_to_submitted values, row =>
    if row.fk_status = .TS then
      { row with
        fk_status := .SB
        tx_hash := values.tx_hash
        status_info := values.status_info
        audit_uri := values.audit_uri
        audit_hash := values.audit_hash
        audit_state := values.audit_state }
    else row
  | .set_evt_status_to_done status_info _, row =>
    if row.fk_status = .AS ∨ row.fk_status = .TS ∨ row.fk_status = .SB then
      { row with fk_status := .DN, status_info, is_persisted := true }
    else row
  | .set_evt_status_to_error status_info _, row => { row with fk_status := .ER, status_info }

/-- Executes a statement; an insert violates the primary key when a row of the
    same request and type exists. -/
def Write.exec (w : Write) (table : List Row) : List Row :=
  match w with
  | .add_evt_to_be_assigned evt =>
    if table.any (fun row => row.request_id = evt.request_id ∧ row.fk_type = evt.fk_type) then table
    else table ++ [encode evt.event]
  | w => lib.table.update Evt.request_id w.request_id w.on table

/-- Executes statements one after the other. -/
def exec_all (ws : List Write) (table : List Row) : List Row := ws.foldl (fun t w => w.exec t) table

@[simp]
theorem exec_all_append (ws ws' : List Write) (table : List Row) :
    exec_all (ws ++ ws') table = exec_all ws' (exec_all ws table) := List.foldl_append

/-- `EventPoolManager.set_evt_status_to_be_submitted`. -/
def set_evt_status_to_be_submitted (evt : Event) : Write :=
  .set_evt_status_to_be_submitted (encode evt)

/-- `EventPoolManager.set_evt_status_to_submitted`. -/
def set_evt_status_to_submitted (evt : Event) : Write := .set_evt_status_to_submitted (encode evt)

/-- `EventPoolManager.set_evt_status_to_done`. -/
def set_evt_status_to_done (evt : Event) : Write :=
  .set_evt_status_to_done evt.status_info evt.request_id

/-- `EventPoolManager.set_evt_status_to_error`. -/
def set_evt_status_to_error (evt : Event) : Write :=
  .set_evt_status_to_error evt.status_info evt.request_id

/-- The columns that identify an event and say what was requested. -/
def Evt.identity {ν : Type} (evt : Evt ν) : Int × String × String × String × ν × EvtType × ν :=
  (evt.request_id, evt.requestor, evt.contract_uri, evt.evt_name, evt.assigned_block_nbr, evt.fk_type,
    evt.price)

/-- The columns of the report. -/
def Evt.report {ν : Type} (evt : Evt ν) :
    Option String × Option String × Option String × Option String × Option Int × Option ν :=
  (evt.compressed_report, evt.full_report, evt.audit_uri, evt.audit_hash, evt.audit_state,
    evt.submission_block_nbr)

theorem request_of_identity {ν : Type} {evt evt' : Evt ν} (hidentity : evt'.identity = evt.identity) :
    evt'.request_id = evt.request_id ∧ evt'.fk_type = evt.fk_type := by
  simp only [Evt.identity, Prod.mk.injEq] at hidentity
  exact ⟨hidentity.1, hidentity.2.2.2.2.2.1⟩

theorem columns_of_report {ν : Type} {evt evt' : Evt ν} (hreport : evt'.report = evt.report) :
    evt'.compressed_report = evt.compressed_report ∧ evt'.audit_state = evt.audit_state ∧
      evt'.submission_block_nbr = evt.submission_block_nbr := by
  simp only [Evt.report, Prod.mk.injEq] at hreport
  exact ⟨hreport.1, hreport.2.2.2.2⟩

/-- No update touches what was requested. -/
theorem identity_on (w : Write) (row : Row) : (w.on row).identity = row.identity := by
  cases w with
  | add_evt_to_be_assigned evt => rfl
  | set_evt_status_to_error status_info request_id => rfl
  | _ =>
    simp only [Write.on]
    split <;> rfl

theorem request_id_on (w : Write) (row : Row) : (w.on row).request_id = row.request_id :=
  congrArg Prod.fst (identity_on w row)

/-- An insert for a request that has no row yet succeeds. -/
theorem exec_add_evt {evt : NewEvt} {table : List Row}
    (hnew : evt.request_id ∉ table.map Evt.request_id) :
    (Write.add_evt_to_be_assigned evt).exec table = table ++ [encode evt.event] := by
  have hnone : table.any (fun row => row.request_id = evt.request_id ∧ row.fk_type = evt.fk_type) =
      false := by
    rw [List.any_eq_false]
    intro row hrow hsame
    exact hnew (List.mem_map.mpr ⟨row, hrow, (of_decide_eq_true hsame).1⟩)
  rw [Write.exec, hnone]
  rfl

theorem exec_update {w : Write} (hupdate : ∀ evt, w ≠ .add_evt_to_be_assigned evt) (table : List Row) :
    w.exec table = lib.table.update Evt.request_id w.request_id w.on table := by
  cases w with
  | add_evt_to_be_assigned evt => exact absurd rfl (hupdate evt)
  | _ => rfl

end qsp.evt
