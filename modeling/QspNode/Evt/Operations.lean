import QspNode.Evt.Store

namespace qsp.evt

/-- The primary key of `audit_evt`. -/
def Evt.key {ν : Type} (evt : Evt ν) : Int × EvtType := (evt.request_id, evt.fk_type)

theorem key_on (w : Write) (row : Row) : (w.on row).key = row.key := by
  obtain ⟨hid, htype⟩ := request_of_identity (identity_on w row)
  rw [Evt.key, Evt.key, hid, htype]

/-- What a statement does to the table: an insert of a new key appends a row,
    any other insert does nothing, and an update changes the rows of its
    request. -/
theorem exec_cases (w : Write) (table : List Row) :
    (∃ evt : NewEvt, (encode evt.event).key ∉ table.map Evt.key ∧
        w.exec table = table ++ [encode evt.event]) ∨
      w.exec table = lib.table.update Evt.request_id w.request_id w.on table := by
  cases w with
  | add_evt_to_be_assigned evt =>
    rw [Write.exec]
    by_cases hexists : table.any (fun row => row.request_id = evt.request_id ∧ row.fk_type = evt.fk_type)
    · have hid : ∀ row : Row, (Write.add_evt_to_be_assigned evt).on row = row := fun _ => rfl
      right
      rw [if_pos hexists, lib.table.update]
      simp [hid]
    · left
      refine ⟨evt, ?_, if_neg hexists⟩
      intro hmem
      obtain ⟨row, hrow, hkey⟩ := List.mem_map.mp hmem
      apply hexists
      rw [List.any_eq_true]
      refine ⟨row, hrow, decide_eq_true ?_⟩
      rw [Evt.key, Evt.key, Prod.mk.injEq] at hkey
      exact hkey
  | _ => exact Or.inr rfl

theorem nodup_keys_exec {table : List Row} (hkeys : (table.map Evt.key).Nodup) (w : Write) :
    ((w.exec table).map Evt.key).Nodup := by
  rcases exec_cases w table with ⟨evt, hnew, hexec⟩ | hexec
  · rw [hexec, List.map_append, List.map_singleton]
    apply hkeys.append (List.nodup_singleton _)
    rwa [List.disjoint_singleton]
  · have hmap : (w.exec table).map Evt.key = table.map Evt.key := by
      rw [hexec, lib.table.update, List.map_map]
      apply List.map_congr_left
      intro row _
      simp only [Function.comp_apply]
      split
      · exact key_on w row
      · rfl
    rwa [hmap]

theorem nodup_keys_exec_all {table : List Row} (hkeys : (table.map Evt.key).Nodup) (ws : List Write) :
    ((exec_all ws table).map Evt.key).Nodup := by
  induction ws generalizing table with
  | nil => exact hkeys
  | cons w ws ih => exact ih (nodup_keys_exec hkeys w)

/-- Every row that is done or failed is still there in the same status. -/
def KeepsFinal (table table' : List Row) : Prop :=
  ∀ row ∈ table, row.fk_status = .DN ∨ row.fk_status = .ER →
    ∃ row' ∈ table', row'.key = row.key ∧ row'.fk_status = row.fk_status

theorem KeepsFinal.trans {t u v : List Row} (htu : KeepsFinal t u) (huv : KeepsFinal u v) :
    KeepsFinal t v := by
  intro row hrow hfinal
  obtain ⟨row', hrow', hkey, hstatus⟩ := htu row hrow hfinal
  obtain ⟨row'', hrow'', hkey', hstatus'⟩ := huv row' hrow' (hstatus ▸ hfinal)
  exact ⟨row'', hrow'', hkey'.trans hkey, hstatus'.trans hstatus⟩

/-- The statement declares an error for a request with a row that is done. -/
def ErrsDone (table : List Row) : Write → Prop
  | .set_evt_status_to_error _ request_id =>
    ∃ row ∈ table, row.request_id = request_id ∧ row.fk_status = .DN
  | _ => False

/-- The guards of the updates exclude final rows, but the update to the error
    status has none. -/
theorem fk_status_on {w : Write} {row : Row} (hfinal : row.fk_status = .DN ∨ row.fk_status = .ER)
    (hdone : row.fk_status = .DN → ∀ status_info, w ≠ .set_evt_status_to_error status_info row.request_id)
    (hid : w.request_id = row.request_id) : (w.on row).fk_status = row.fk_status := by
  cases w with
  | add_evt_to_be_assigned evt => rfl
  | set_evt_status_to_error status_info request_id =>
    rcases hfinal with hfinal | hfinal
    · obtain rfl : request_id = row.request_id := hid
      exact absurd rfl (hdone hfinal status_info)
    · exact hfinal.symm
  | _ =>
    simp only [Write.on]
    rcases hfinal with hfinal | hfinal <;> simp [hfinal]

theorem keepsFinal_exec_iff {table : List Row} (hkeys : (table.map Evt.key).Nodup) (w : Write) :
    KeepsFinal table (w.exec table) ↔ ¬ ErrsDone table w := by
  constructor
  · intro hkeeps herrs
    cases w with
    | set_evt_status_to_error status_info request_id =>
      obtain ⟨row, hrow, hid, hdone⟩ := herrs
      obtain ⟨row', hrow', hkey, hstatus⟩ := hkeeps row hrow (Or.inl hdone)
      have hon := lib.table.mem_update_of_eq
        (f := (Write.set_evt_status_to_error status_info request_id).on) hrow hid
      have hsame := lib.table.eq_of_key_eq (nodup_keys_exec hkeys _) hrow' hon
        (hkey.trans (key_on _ row).symm)
      rw [hsame, hdone] at hstatus
      cases hstatus
    | _ => exact herrs
  · intro hnot row hrow hfinal
    rcases exec_cases w table with ⟨evt, _, hexec⟩ | hexec
    · rw [hexec]
      exact ⟨row, List.mem_append_left _ hrow, rfl, rfl⟩
    · rw [hexec]
      by_cases hid : row.request_id = w.request_id
      · refine ⟨_, lib.table.mem_update_of_eq hrow hid, key_on w row, fk_status_on hfinal ?_ hid.symm⟩
        rintro hdone status_info rfl
        exact hnot ⟨row, hrow, rfl, hdone⟩
      · exact ⟨row, lib.table.mem_update_of_ne hrow hid, rfl, rfl⟩

/-- In a sequence of statements no final status ever changes, exactly when none
    of them declares an error for a request with a row that is done. -/
theorem final_statuses_kept_iff {table : List Row} (hkeys : (table.map Evt.key).Nodup)
    (ws : List Write) :
    (∀ before between after, ws = before ++ between ++ after →
        KeepsFinal (exec_all before table) (exec_all (before ++ between) table)) ↔
      ∀ before w after, ws = before ++ w :: after → ¬ ErrsDone (exec_all before table) w := by
  constructor
  · intro hkeeps before w after hws
    rw [← keepsFinal_exec_iff (nodup_keys_exec_all hkeys before) w]
    have hstep := hkeeps before [w] after (by simp [hws])
    rwa [exec_all_append] at hstep
  · intro hnot before between after hws
    induction between using List.reverseRecOn generalizing after with
    | nil =>
      intro row hrow _
      exact ⟨row, by simpa using hrow, rfl, rfl⟩
    | append_singleton between w ih =>
      have hfirst := ih (w :: after) (by simp [hws])
      rw [← List.append_assoc, exec_all_append (before ++ between)]
      apply hfirst.trans
      have hkeys' := nodup_keys_exec_all hkeys (before ++ between)
      exact (keepsFinal_exec_iff hkeys' w).mpr (hnot (before ++ between) w after (by simp [hws]))

/-- A request that is assigned to be audited or to be checked. -/
def sample_evt (fk_type : EvtType) : NewEvt :=
  { request_id := 7
    requestor := "0x1"
    contract_uri := "https://contract"
    evt_name := "LogAuditAssigned"
    assigned_block_nbr := 100
    status_info := "Audit Assigned"
    fk_type
    price := 10 }

/-- The statements of an audit that is done. -/
def completed : List Write :=
  [.add_evt_to_be_assigned (sample_evt .AU), set_evt_status_to_be_submitted (sample_evt .AU).event,
    set_evt_status_to_submitted (sample_evt .AU).event, set_evt_status_to_done (sample_evt .AU).event]

theorem final_statuses_kept_completed :
    (∀ before between after, completed = before ++ between ++ after →
        KeepsFinal (exec_all before []) (exec_all (before ++ between) [])) ↔
      ∀ before w after, completed = before ++ w :: after → ¬ ErrsDone (exec_all before []) w := by
  have hkeys : (([] : List Row).map Evt.key).Nodup := List.nodup_nil
  exact final_statuses_kept_iff hkeys completed

instance (table table' : List Row) : Decidable (KeepsFinal table table') :=
  inferInstanceAs (Decidable (∀ row ∈ table, row.fk_status = .DN ∨ row.fk_status = .ER →
    ∃ row' ∈ table', row'.key = row.key ∧ row'.fk_status = row.fk_status))

/-- A late error moves an audit that is done. -/
theorem final_status_overwritten :
    (exec_all completed []).map Evt.fk_status = [.DN] ∧
      ¬ KeepsFinal (exec_all completed [])
        (exec_all (completed ++ [set_evt_status_to_error (sample_evt .AU).event]) []) := by
  decide +kernel

/-- The updates of an event's status. -/
inductive StatusUpdate where
  | to_be_submitted
  | to_submitted
  | to_done
  | to_error
  deriving DecidableEq, Repr

def StatusUpdate.write (update : StatusUpdate) (evt : Event) : Write :=
  match update with
  | .to_be_submitted => set_evt_status_to_be_submitted evt
  | .to_submitted => set_evt_status_to_submitted evt
  | .to_done => set_evt_status_to_done evt
  | .to_error => set_evt_status_to_error evt

/-- The rows of the request that an update leaves alone because of their status.
    The update to the error status only rewrites what is there already. -/
def StatusUpdate.Spares (update : StatusUpdate) (evt : Event) (row : Row) : Prop :=
  match update with
  | .to_be_submitted | .to_done => row.fk_status = .DN ∨ row.fk_status = .ER
  | .to_submitted => row.fk_status ≠ .TS
  | .to_error => row.fk_status = .ER ∧ row.status_info = evt.status_info

theorem StatusUpdate.exec_write (update : StatusUpdate) (evt : Event) (table : List Row) :
    (update.write evt).exec table =
      lib.table.update Evt.request_id evt.request_id (update.write evt).on table := by
  cases update <;> rfl

theorem StatusUpdate.on_eq_self_iff (update : StatusUpdate) (evt : Event) (row : Row) :
    (update.write evt).on row = row ↔ update.Spares evt row := by
  have hguard : row.fk_status = .DN ∨ row.fk_status = .ER ↔
      ¬ (row.fk_status = .AS ∨ row.fk_status = .TS ∨ row.fk_status = .SB) := by
    cases row.fk_status <;> simp
  cases update with
  | to_be_submitted =>
    rw [Spares, hguard, write, set_evt_status_to_be_submitted, Write.on]
    split
    · next hopen =>
      refine iff_of_false ?_ (not_not_intro hopen)
      intro heq
      have hattempts := congrArg Evt.submission_attempts heq
      exact absurd hattempts (Nat.succ_ne_self _)
    · next hclosed => exact iff_of_true rfl hclosed
  | to_submitted =>
    rw [Spares, write, set_evt_status_to_submitted, Write.on]
    split
    · next hopen =>
      refine iff_of_false ?_ (not_not_intro hopen)
      intro heq
      have hstatus := congrArg Evt.fk_status heq
      rw [hopen] at hstatus
      cases hstatus
    · next hclosed => exact iff_of_true rfl hclosed
  | to_done =>
    rw [Spares, hguard, write, set_evt_status_to_done, Write.on]
    split
    · next hopen =>
      refine iff_of_false ?_ (not_not_intro hopen)
      intro heq
      have hstatus := congrArg Evt.fk_status heq
      rw [← hstatus] at hopen
      simp at hopen
    · next hclosed => exact iff_of_true rfl hclosed
  | to_error =>
    rw [Spares, write, set_evt_status_to_error, Write.on]
    constructor
    · intro heq
      exact ⟨(congrArg Evt.fk_status heq).symm, (congrArg Evt.status_info heq).symm⟩
    · rintro ⟨hstatus, hinfo⟩
      rw [← hstatus, ← hinfo]

/-- An update of an event leaves every row but the event's own as it was,
    exactly when it spares the other row of the request, if there is one: the
    updates select rows by the request alone. -/
theorem status_update_frame_iff (update : StatusUpdate) (evt : Event) (table : List Row) :
    ((update.write evt).exec table).filter (fun row => row.key ≠ evt.key) =
        table.filter (fun row => row.key ≠ evt.key) ↔
      ∀ row ∈ table, row.request_id = evt.request_id → row.fk_type ≠ evt.fk_type →
        update.Spares evt row := by
  rw [update.exec_write, lib.table.filter_update_eq_iff (fun row => by rw [key_on])]
  apply forall₂_congr
  intro row _
  rw [update.on_eq_self_iff]
  apply imp_congr_right
  intro hid
  rw [decide_eq_true_iff, Evt.key, Evt.key, hid, ne_eq, Prod.mk.injEq, eq_self_iff_true, true_and]

/-- Completing the audit completes the police check of the request as well. -/
theorem status_update_touches_police_check :
    ([encode (sample_evt .AU).event, encode (sample_evt .PC).event].map Evt.key).Nodup ∧
      decode (encode (sample_evt .AU).event) = some (sample_evt .AU).event ∧
      ((StatusUpdate.to_done.write (sample_evt .AU).event).exec
          [encode (sample_evt .AU).event, encode (sample_evt .PC).event]).filter
          (fun row => row.key ≠ (sample_evt .AU).event.key) ≠
        [encode (sample_evt .AU).event, encode (sample_evt .PC).event].filter
          (fun row => row.key ≠ (sample_evt .AU).event.key) := by
  refine ⟨by decide, decode_encode _, ?_⟩
  decide +kernel

end qsp.evt
