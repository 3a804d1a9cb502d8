import QspNode.Lib.PythonStr
import QspNode.PerformAuditThread.Request
import QspNode.PerformAuditThread.Validity
import QspNode.ReportProcessing.Domain
import QspNode.ReportProcessing.RoundTrip

open lib.python qsp.evt qsp.report qsp.report_processing

namespace qsp.perform_audit_thread

/-- An entry of `errors` in the output of the compiler; a missing key is `none`. -/
structure CompilerMessage where
  severity : Option String
  formattedMessage : Option String

/-- How `compile_standard` ends. `ContractsNotFound`, `SolcError` and any other
    exception with a text but `KeyError` are recorded alike. -/
inductive Compilation where
  | output (errors : List CompilerMessage)
  | key_error
  | error (text : String)

/-- The loop of `check_compilation`; a missing key raises a `KeyError`, which is
    only logged. -/
def compilation_loop (rename : String → String) (warnings errors : List String) :
    List CompilerMessage → List String × List String
  | [] => (warnings, errors)
  | err :: rest =>
    match err.severity, err.formattedMessage with
    | some severity, some message =>
      if severity = "warning" then compilation_loop rename (warnings ++ [rename message]) errors rest
      else compilation_loop rename warnings (errors ++ [rename message]) rest
    | _, _ => (warnings, errors)

/-- `check_compilation`, given what the compiler does with the contract. -/
def check_compilation (temp_file_name original_file_name : String) :
    Compilation → List String × List String
  | .output errors =>
    compilation_loop (fun message => replace message temp_file_name original_file_name) [] [] errors
  | .key_error => ([], [])
  | .error text => ([], [text])

/-- The report of an audit. The fields that the schema only gives a type stand
    beside the others. Of the keys that an analyzer's entry has besides, it is kept
    whether they pass the schema. -/
structure FullReport where
  report : Report
  others_valid : Bool
  timestamp : Int
  contract_uri : String
  request_id : Int
  compilation_errors : Option (List String)
  compilation_warnings : Option (List String)

/-- How `upload_report` ends: with the address of the report, or with a
    dictionary that `json.dumps` may not be able to print. -/
inductive Upload where
  | stored (url : String)
  | failed (json : Except PyException String)

/-- What `audit` reads of the configuration. -/
structure AuditConfig where
  account : String
  node_version : String
  analyzers : List Analyzer
  report_encoder : ReportEncoder
  digest : String → String
  dumps : Option Nat → FullReport → String
  upload_report : String → String → Except PyException Upload

/-- The arguments of `audit`, with what its calls return: the text of the fetched
    file, what the compiler does with it, the state in which the loops over the
    analyzers end, whether the keys of their JSON that `Report` leaves out pass the
    schema, and how the upload of the contract ends. -/
structure AuditInput where
  requestor : String
  uri : String
  request_id : Int
  report_type : String
  temp_file_name : String
  original_file_name : String
  contract : Except PyException String
  compilation : Compilation
  collected : State
  others_valid : Bool
  timestamp : Int
  upload_contract : Except PyException Bool

/-- The header that the reports of `get_audit_report_from_analyzers` and
    `__create_err_result` share. -/
def AuditConfig.header (config : AuditConfig) (input : AuditInput) (contract : String)
    (audit_state : Int) (status : String) (analyzers_reports : Option (List AnalyzerReport)) :
    FullReport :=
  { report :=
      { requestor := some input.requestor
        auditor := some config.account
        version := some config.node_version
        audit_state := some audit_state
        status := some status
        contract_hash := some (config.digest contract)
        analyzers_reports }
    others_valid := true
    timestamp := input.timestamp
    contract_uri := input.uri
    request_id := input.request_id
    compilation_errors := none
    compilation_warnings := none }

/-- `__create_err_result`. -/
def AuditConfig.create_err_result (config : AuditConfig) (input : AuditInput) (contract : String)
    (errors warnings : List String) : FullReport :=
  { config.header input contract AUDIT_STATE_ERROR AUDIT_STATUS_ERROR none with
    compilation_errors := if errors.length ≠ 0 then some errors else none
    compilation_warnings := if warnings.length ≠ 0 then some warnings else none }

/-- `get_audit_report_from_analyzers` when its loops have ended. -/
def AuditConfig.get_audit_report_from_analyzers (config : AuditConfig) (input : AuditInput)
    (contract : String) : FullReport :=
  let collected := audit_report config.analyzers input.collected
  { config.header input contract collected.audit_state collected.status collected.analyzers_reports with
    others_valid := input.others_valid }

/-- `get_full_report`, for a contract that could be fetched. -/
def AuditConfig.get_full_report (config : AuditConfig) (input : AuditInput) (contract : String) :
    FullReport :=
  let (warnings, errors) :=
    check_compilation input.temp_file_name input.original_file_name input.compilation
  if errors.length ≠ 0 then config.create_err_result input contract errors warnings
  else
    let audit_report := config.get_audit_report_from_analyzers input contract
    if warnings.length ≠ 0 then { audit_report with compilation_warnings := some warnings }
    else audit_report

/-- `validate_json`. -/
def FullReport.validate (audit_report : FullReport) : Except PyException Report :=
  if audit_report.others_valid then schema.validate_json audit_report.report
  else .error (.Exception "JSON could not be validated")

/-- `PerformAuditThread.audit`. A contract that is not uploaded is only logged. -/
def AuditConfig.audit (config : AuditConfig) (input : AuditInput) : Except PyException AuditResult := do
  let contract ← input.contract
  let audit_report := config.get_full_report input contract
  let _ ← audit_report.validate
  let compressed_report ← config.report_encoder.compress_report audit_report.report
  let audit_report_str := config.dumps (some 2) audit_report
  let audit_hash := config.digest audit_report_str
  match ← config.upload_report audit_report_str audit_hash with
  | .failed json =>
    throw (.Exception s!"Error uploading {input.report_type} report: {← json}")
  | .stored audit_uri =>
    let _ ← input.upload_contract
    let audit_state ← subscript "audit_state" audit_report.report.audit_state
    return {
      audit_state
      audit_uri
      audit_hash
      full_report := config.dumps none audit_report
      compressed_report }

section
variable {rename : String → String} {messages : List CompilerMessage} {warnings errors : List String}

/-- What the compiler's messages are split into, up to the first that lacks a key. -/
theorem compilation_loop_eq :
    compilation_loop rename warnings errors messages =
      (let complete := (messages.takeWhile (fun err => err.severity.isSome && err.formattedMessage.isSome))
       (warnings ++ (complete.filter (fun err => err.severity = some "warning")).filterMap (fun err =>
          err.formattedMessage.map rename),
        errors ++ (complete.filter (fun err => err.severity ≠ some "warning")).filterMap (fun err =>
          err.formattedMessage.map rename))) := by
  induction messages generalizing warnings errors with
  | nil => simp [compilation_loop]
  | cons err messages ih =>
    obtain ⟨severity, message⟩ := err
    cases severity with
    | none => simp [compilation_loop]
    | some severity =>
      cases message with
      | none => simp [compilation_loop]
      | some message =>
        by_cases hwarning : severity = "warning"
        · simp [compilation_loop, ih, hwarning]
        · simp [compilation_loop, ih, hwarning]

end

/-- The contract does not compile: the compiler raises, or reports something
    other than a warning before an entry that lacks a key. -/
def Compilation.Fails : Compilation → Prop
  | .output errors => ∃ err ∈ errors.takeWhile (fun err =>
      err.severity.isSome && err.formattedMessage.isSome), err.severity ≠ some "warning"
  | .key_error => False
  | .error _ => True

theorem check_compilation_errors (temp_file_name original_file_name : String)
    (compilation : Compilation) :
    (check_compilation temp_file_name original_file_name compilation).2 ≠ [] ↔ compilation.Fails := by
  cases compilation with
  | key_error => simp [check_compilation, Compilation.Fails]
  | error text => simp [check_compilation, Compilation.Fails]
  | output errors =>
    simp only [check_compilation, compilation_loop_eq, Compilation.Fails, List.nil_append, ne_eq,
      List.eq_nil_iff_forall_not_mem, List.mem_filterMap, List.mem_filter, not_forall, not_not]
    constructor
    · rintro ⟨text, err, ⟨hmem, herror⟩, _⟩
      exact ⟨err, hmem, by simpa using herror⟩
    · rintro ⟨err, hmem, herror⟩
      have hcomplete := List.mem_takeWhile_imp hmem
      obtain ⟨message, hmessage⟩ := Option.isSome_iff_exists.mp (Bool.and_eq_true_iff.mp hcomplete).2
      exact ⟨_, err, ⟨hmem, by simpa using herror⟩, by rw [hmessage]; rfl⟩

/-- The digits that `hexdigest` prints. -/
def HexDigest (s : String) : Prop :=
  s.toList.length = 64 ∧ ∀ c ∈ s.toList, ('0' ≤ c ∧ c ≤ '9') ∨ ('a' ≤ c ∧ c ≤ 'f')

/-- The version has the three numbers that the header of a compressed report has
    room for. -/
def VersionFits (version : String) : Prop :=
  ∃ major minor patch, version_numbers version = some [major, minor, patch] ∧
    (0 ≤ major ∧ major ≤ 15) ∧ (0 ≤ minor ∧ minor ≤ 15) ∧ (0 ≤ patch ∧ patch ≤ 63)

/-- The entries of the analyzers, which a contract that does not compile has none of. -/
def AuditConfig.entries (config : AuditConfig) (input : AuditInput) : List AnalyzerReport :=
  (audit_report config.analyzers input.collected).analyzers_reports.getD []

section
variable {config : AuditConfig} {input : AuditInput} {contract : String} {result : AuditResult}

theorem report_of_fails (hfails : input.compilation.Fails) :
    (config.get_full_report input contract).report =
      (config.header input contract AUDIT_STATE_ERROR AUDIT_STATUS_ERROR none).report := by
  have herrors := (check_compilation_errors input.temp_file_name input.original_file_name _).mpr hfails
  rw [AuditConfig.get_full_report]
  simp only [List.length_eq_zero_iff, ne_eq, herrors, not_false_eq_true, if_true]
  rfl

theorem report_of_compiles (hcompiles : ¬ input.compilation.Fails) :
    (config.get_full_report input contract).report =
      (config.get_audit_report_from_analyzers input contract).report := by
  have herrors : (check_compilation input.temp_file_name input.original_file_name
      input.compilation).2 = [] := by
    by_contra hne
    exact hcompiles ((check_compilation_errors _ _ _).mp hne)
  rw [AuditConfig.get_full_report]
  simp only [List.length_eq_zero_iff, ne_eq, herrors, not_true_eq_false, if_false]
  split <;> rfl

/-- What `audit` has done when it returns. -/
theorem audit_eq_ok_iff :
    config.audit input = .ok result ↔
      ∃ contract compressed_report audit_uri uploaded audit_state,
        input.contract = .ok contract ∧
        ((config.get_full_report input contract).others_valid = true ∧
          schema.report_valid (config.get_full_report input contract).report = true) ∧
        config.report_encoder.compress_report (config.get_full_report input contract).report =
          .ok compressed_report ∧
        config.upload_report (config.dumps (some 2) (config.get_full_report input contract))
          (config.digest (config.dumps (some 2) (config.get_full_report input contract))) =
            .ok (.stored audit_uri) ∧
        input.upload_contract = .ok uploaded ∧
        (config.get_full_report input contract).report.audit_state = some audit_state ∧
        result =
          { audit_state
            audit_uri
            audit_hash := config.digest (config.dumps (some 2) (config.get_full_report input contract))
            full_report := config.dumps none (config.get_full_report input contract)
            compressed_report } := by
  unfold AuditConfig.audit FullReport.validate schema.validate_json
  simp only [bind_eq_ok_iff]
  constructor
  · rintro ⟨contract, hcontract, report, hvalid, compressed_report, hcompress, upload, hupload, hrest⟩
    split_ifs at hvalid with hothers hreport
    · cases upload with
      | failed json => cases json <;> cases hrest
      | stored audit_uri =>
        obtain ⟨uploaded, huploaded, hrest⟩ := bind_eq_ok_iff.mp hrest
        obtain ⟨audit_state, hstate, hresult⟩ := bind_eq_ok_iff.mp hrest
        exact ⟨contract, compressed_report, audit_uri, uploaded, audit_state, hcontract, ⟨hothers, hreport⟩,
          hcompress, hupload, huploaded, subscript_eq_ok_iff.mp hstate, (Except.ok.inj hresult).symm⟩
  · rintro ⟨contract, compressed_report, audit_uri, uploaded, audit_state, hcontract, hvalid, hcompress,
      hupload, huploaded, hstate, rfl⟩
    refine ⟨contract, hcontract, _, (if_pos hvalid.1).trans (if_pos hvalid.2), compressed_report, hcompress,
      _, hupload, ?_⟩
    exact bind_eq_ok_iff.mpr ⟨uploaded, huploaded,
      bind_eq_ok_iff.mpr ⟨audit_state, subscript_eq_ok_iff.mpr hstate, rfl⟩⟩

theorem is_hex_digit_of_hexdigest {c : Char} (hc : ('0' ≤ c ∧ c ≤ '9') ∨ ('a' ≤ c ∧ c ≤ 'f')) :
    is_hex_digit c = true := by
  simp only [is_hex_digit, Bool.or_eq_true, Bool.and_eq_true, decide_eq_true_eq]
  tauto

theorem HexDigest.ascii {s : String} (hdigest : HexDigest s) : is_ascii s := by
  intro c hc
  rcases hdigest.2 c hc with ⟨_, hle⟩ | ⟨_, hle⟩
  · exact Nat.lt_of_le_of_lt (show c.toNat ≤ 57 from hle) (by decide)
  · exact Nat.lt_of_le_of_lt (show c.toNat ≤ 102 from hle) (by decide)

theorem HexDigest.pattern {s : String} (hdigest : HexDigest s) : schema.hash_pattern s = true := by
  have hlast : s.toList.getLast? ≠ some '\n' := by
    intro hlast
    have hmem := hdigest.2 _ (List.mem_of_getLast? hlast)
    revert hmem
    decide
  simp only [schema.hash_pattern, schema.hex_pattern, if_neg hlast, Bool.and_eq_true, decide_eq_true_eq,
    List.all_eq_true]
  exact ⟨hdigest.1, fun c hc => is_hex_digit_of_hexdigest (hdigest.2 c hc)⟩

theorem audit_state_of_analyzers :
    ((audit_report config.analyzers input.collected).audit_state,
        (audit_report config.analyzers input.collected).status) =
      if (∃ entry ∈ config.entries input, entry.status = some "success") ∧
          ∀ entry ∈ config.entries input, entry.status ≠ some "error" then (4, "success")
      else (5, "error") := by
  have hentries : config.entries input = List.zipWith fail_safe config.analyzers
      ((List.range config.analyzers.length).map input.collected.local_reports) :=
    lib.loops.getD_nonempty _
  rw [hentries, ← result_loop_label]
  rfl

/-- The contract compiles, an analyzer has succeeded on it and none has failed. -/
def AuditConfig.Succeeds (config : AuditConfig) (input : AuditInput) : Prop :=
  ¬ input.compilation.Fails ∧ (∃ entry ∈ config.entries input, entry.status = some "success") ∧
    ∀ entry ∈ config.entries input, entry.status ≠ some "error"

theorem report_labels (contract : String) :
    ((config.get_full_report input contract).report.audit_state = some 4 ∧
        (config.get_full_report input contract).report.status = some "success" ∧
        config.Succeeds input) ∨
      ((config.get_full_report input contract).report.audit_state = some 5 ∧
        (config.get_full_report input contract).report.status = some "error" ∧
        ¬ config.Succeeds input) := by
  by_cases hfails : input.compilation.Fails
  · rw [report_of_fails hfails]
    exact Or.inr ⟨rfl, rfl, fun hsucceeds => hsucceeds.1 hfails⟩
  · rw [report_of_compiles hfails]
    have hlabel := @audit_state_of_analyzers config input
    split at hlabel
    · next hsucceeds =>
      exact Or.inl ⟨congrArg some (congrArg Prod.fst hlabel), congrArg some (congrArg Prod.snd hlabel),
        hfails, hsucceeds⟩
    · next hnot =>
      exact Or.inr ⟨congrArg some (congrArg Prod.fst hlabel), congrArg some (congrArg Prod.snd hlabel),
        fun hsucceeds => hnot hsucceeds.2⟩

theorem report_contract_hash (contract : String) :
    (config.get_full_report input contract).report.contract_hash = some (config.digest contract) := by
  by_cases hfails : input.compilation.Fails
  · rw [report_of_fails hfails]
    rfl
  · rw [report_of_compiles hfails]
    rfl

/-- Only what the analyzers add has keys that the format leaves out. -/
theorem report_others_valid_iff (contract : String) :
    (config.get_full_report input contract).others_valid = true ↔
      (¬ input.compilation.Fails → input.others_valid = true) := by
  have herrors := check_compilation_errors input.temp_file_name input.original_file_name input.compilation
  rw [AuditConfig.get_full_report]
  by_cases hfails : input.compilation.Fails
  · simp only [List.length_eq_zero_iff, ne_eq, herrors.mpr hfails, not_false_eq_true, if_true, hfails,
      not_true_eq_false, false_implies, iff_true]
    rfl
  · have hnone := not_not.mp (mt herrors.mp hfails)
    simp only [List.length_eq_zero_iff, ne_eq, hnone, not_true_eq_false, if_false, hfails,
      not_false_eq_true, forall_const]
    split <;> rfl

theorem report_hash_ascii (hdigest : ∀ text, HexDigest (config.digest text)) (contract : String) :
    ∀ hash, (config.get_full_report input contract).report.contract_hash = some hash → is_ascii hash := by
  intro hash heq
  rw [report_contract_hash] at heq
  obtain rfl := Option.some.inj heq
  exact (hdigest contract).ascii

/-- The row that an audit leaves to the submission thread: its compressed report
    decodes to the report of the audit, and its state says whether the audit has
    succeeded. -/
structure Delivers (config : AuditConfig) (input : AuditInput) (values : Row) : Prop where
  decodes : ∃ contract h decoded, input.contract = .ok contract ∧ values.compressed_report = some h ∧
    (∀ spelling ∈ [h, lower h], config.report_encoder.decode_report spelling = .ok decoded) ∧
    RoundTrips (config.get_full_report input contract).report decoded ∧
    decoded.audit_state = values.audit_state ∧
    decoded.contract_hash = some (upper (config.digest contract))
  labelled : values.audit_state = some 4 ∧ config.Succeeds input ∨
    values.audit_state = some 5 ∧ ¬ config.Succeeds input

theorem put_of_audit {evt : Event} {audit : Except PyException (Option AuditResult)}
    {block_number : Except PyException Int} {traceback : String} {values : Row}
    {full : Recovery}
    (hput : process_audit_request evt audit block_number traceback =
      .put (.set_evt_status_to_be_submitted values) full) :
    ∃ result, audit = .ok (some result) ∧ values.audit_state = some result.audit_state ∧
      values.compressed_report = some result.compressed_report ∧
      values.full_report = some result.full_report := by
  unfold process_audit_request at hput
  split at hput
  · cases hput
  · cases hput
  · cases hput
  · cases hput
  · cases hput
  · next result block =>
    obtain ⟨hwrite, _⟩ := Action.put.inj hput
    obtain rfl := Write.set_evt_status_to_be_submitted.inj hwrite
    exact ⟨result, rfl, rfl, rfl, rfl⟩

/-- From the analyzers to the row: what `__process_audit_request` hands to the
    submission thread is the compressed form of what the audit has found. -/
theorem audit_delivers (hdigest : ∀ text, HexDigest (config.digest text)) {evt : Event}
    {block_number : Except PyException Int} {traceback : String} {values : Row}
    {full : Recovery}
    (hput : process_audit_request evt ((config.audit input).map some) block_number traceback =
      .put (.set_evt_status_to_be_submitted values) full) :
    Delivers config input values := by
  obtain ⟨result, hresult, hstate, hcompressed, _⟩ := put_of_audit hput
  obtain ⟨result', haudit, rfl⟩ : ∃ result', config.audit input = .ok result' ∧ result' = result := by
    cases haudit : config.audit input with
    | error e => rw [haudit] at hresult; cases hresult
    | ok result' => rw [haudit] at hresult; exact ⟨result', rfl, by cases hresult; rfl⟩
  obtain ⟨contract, compressed_report, _, _, audit_state, hcontract, _, hcompress, _, _, haudit_state, rfl⟩ :=
    audit_eq_ok_iff.mp haudit
  rw [ReportEncoder.compress_report_eq_ok_iff, ReportEncoder.compress_eq_ok_iff] at hcompress
  obtain ⟨major, minor, patch, state_bit, status_bit, ds, fs, hcompresses, hhex⟩ := hcompress
  have htrips := (roundTrips_iff _ hcompresses).mpr (report_hash_ascii hdigest contract)
  refine ⟨⟨contract, compressed_report, _, hcontract, hcompressed,
    config.report_encoder.decode_report_compressed hcompresses hhex, htrips, ?_, ?_⟩, ?_⟩
  · rw [htrips.audit_state, hstate, haudit_state]
  · rw [htrips.contract_hash, report_contract_hash]
    rfl
  · rcases report_labels contract with ⟨hsuccess, _, hsucceeds⟩ | ⟨herror, _, hfails⟩
    · exact Or.inl ⟨hstate.trans (haudit_state.symm.trans hsuccess), hsucceeds⟩
    · exact Or.inr ⟨hstate.trans (haudit_state.symm.trans herror), hfails⟩

theorem exists_compressed_iff (encoder : ReportEncoder) {report : Report}
    (hascii : ∀ hash, report.contract_hash = some hash → is_ascii hash) :
    (∃ h, encoder.compress_report report = .ok h) ↔ encoder.Accepts report := by
  simp only [ReportEncoder.compress_report_eq_ok_iff, ReportEncoder.compress_eq_ok_iff,
    ReportEncoder.accepts_iff _ hascii]
  constructor
  · rintro ⟨h, major, minor, patch, state_bit, status_bit, ds, fs, hcompresses, _⟩
    exact ⟨major, minor, patch, state_bit, status_bit, ds, fs, hcompresses⟩
  · rintro ⟨major, minor, patch, state_bit, status_bit, ds, fs, hcompresses⟩
    obtain ⟨cs, hcs⟩ := hcompresses.exists_hex
    exact ⟨String.ofList cs, major, minor, patch, state_bit, status_bit, ds, fs, hcompresses,
      by rw [hcs, String.toList_ofList]⟩

/-- The encoder has a record for every finding of the analyzers. -/
def AuditConfig.FindingsFit (config : AuditConfig) (input : AuditInput) : Prop :=
  ∀ a ∈ config.entries input, ∀ v ∈ a.potential_vulnerabilities.getD [],
    ∃ instances, v.instances = some instances ∧
      ∀ i ∈ instances, config.report_encoder.AcceptsInstance v.type i

theorem report_accepts_iff (hdigest : ∀ text, HexDigest (config.digest text)) (contract : String) :
    config.report_encoder.Accepts (config.get_full_report input contract).report ↔
      VersionFits config.node_version ∧
        (¬ input.compilation.Fails → config.FindingsFit input) := by
  have hversion : (config.get_full_report input contract).report.version = some config.node_version := by
    by_cases hfails : input.compilation.Fails
    · rw [report_of_fails hfails]
      rfl
    · rw [report_of_compiles hfails]
      rfl
  have hreports : ¬ input.compilation.Fails →
      (config.get_full_report input contract).report.analyzers_reports.getD [] = config.entries input :=
    fun hcompiles => by rw [report_of_compiles hcompiles]; rfl
  constructor
  · rintro ⟨⟨version, major, minor, patch, heq, hnumbers⟩, _, _, _, hinstances⟩
    rw [hversion] at heq
    obtain rfl := Option.some.inj heq
    refine ⟨⟨major, minor, patch, hnumbers⟩, fun hcompiles => ?_⟩
    rwa [hreports hcompiles] at hinstances
  · rintro ⟨⟨major, minor, patch, hnumbers⟩, hfit⟩
    have hlabels := @report_labels config input contract
    refine
      { version := ⟨_, major, minor, patch, hversion, hnumbers⟩
        audit_state := hlabels.imp (fun h => h.1) (fun h => h.1)
        status := hlabels.imp (fun h => h.2.1) (fun h => h.2.1)
        contract_hash := ⟨_, report_contract_hash contract, (hdigest contract).1,
          fun c hc => is_hex_digit_of_hexdigest ((hdigest contract).2 c hc)⟩
        instances := ?_ }
    by_cases hfails : input.compilation.Fails
    · rw [report_of_fails hfails]
      simp [AuditConfig.header]
    · rw [hreports hfails]
      exact hfit hfails

/-- The addresses of a report and the entries of the analyzers are what the schema has
    to check. -/
theorem report_valid_iff (hdigest : ∀ text, HexDigest (config.digest text)) (contract : String) :
    schema.report_valid (config.get_full_report input contract).report = true ↔
      (schema.address_pattern input.requestor = true ∧ schema.address_pattern config.account = true) ∧
        (¬ input.compilation.Fails → schema.items schema.analyzer_report_valid
          (audit_report config.analyzers input.collected).analyzers_reports = true) := by
  have hpattern := (hdigest contract).pattern
  by_cases hfails : input.compilation.Fails
  · rw [report_of_fails hfails]
    simp [schema.report_valid, AuditConfig.header, schema.required, schema.minimum, schema.maximum,
      schema.enum, schema.items, AUDIT_STATE_ERROR, AUDIT_STATUS_ERROR, hpattern, hfails]
  · rcases @report_labels config input contract with ⟨hstate, hstatus, _⟩ |
      ⟨hstate, hstatus, _⟩
    all_goals
      rw [report_of_compiles hfails] at hstate hstatus ⊢
      simp only [schema.report_valid, hstate, hstatus]
      simp [AuditConfig.get_audit_report_from_analyzers, AuditConfig.header, schema.required,
        schema.minimum, schema.maximum, schema.enum, hpattern, hfails]

/-- The contract is fetched, the report on it is stored, and uploading the contract
    raises nothing. -/
def AuditConfig.Publishes (config : AuditConfig) (input : AuditInput) : Prop :=
  ∃ contract audit_uri uploaded, input.contract = .ok contract ∧
    config.upload_report (config.dumps (some 2) (config.get_full_report input contract))
      (config.digest (config.dumps (some 2) (config.get_full_report input contract))) =
        .ok (.stored audit_uri) ∧
    input.upload_contract = .ok uploaded

/-- An audit yields a report exactly when what it has found is valid, fits the
    compressed format and can be published. -/
theorem exists_result_iff (hdigest : ∀ text, HexDigest (config.digest text)) :
    (∃ result, config.audit input = .ok result) ↔
      (schema.address_pattern input.requestor = true ∧ schema.address_pattern config.account = true) ∧
        VersionFits config.node_version ∧
        (¬ input.compilation.Fails →
          schema.items schema.analyzer_report_valid
            (audit_report config.analyzers input.collected).analyzers_reports = true ∧
          config.FindingsFit input ∧ input.others_valid = true) ∧
        config.Publishes input := by
  constructor
  · rintro ⟨result, haudit⟩
    obtain ⟨contract, h, audit_uri, uploaded, _, hcontract, ⟨hothers, hvalid⟩, hcompress, hupload, huploaded,
      _⟩ := audit_eq_ok_iff.mp haudit
    obtain ⟨haddresses, hentries⟩ := (report_valid_iff hdigest contract).mp hvalid
    obtain ⟨hversion, hfit⟩ := (report_accepts_iff hdigest contract).mp
      ((exists_compressed_iff _ (report_hash_ascii hdigest contract)).mp ⟨h, hcompress⟩)
    refine ⟨haddresses, hversion, fun hcompiles => ⟨hentries hcompiles, hfit hcompiles, ?_⟩,
      contract, audit_uri, uploaded, hcontract, hupload, huploaded⟩
    exact (report_others_valid_iff contract).mp hothers hcompiles
  · rintro ⟨haddresses, hversion, hrest, contract, audit_uri, uploaded, hcontract, hupload, huploaded⟩
    obtain ⟨h, hcompress⟩ := (exists_compressed_iff _ (report_hash_ascii hdigest contract)).mpr
      ((report_accepts_iff hdigest contract).mpr ⟨hversion, fun hcompiles => (hrest hcompiles).2.1⟩)
    have hvalid := (report_valid_iff hdigest contract).mpr
      ⟨haddresses, fun hcompiles => (hrest hcompiles).1⟩
    have hothers : (config.get_full_report input contract).others_valid = true :=
      (report_others_valid_iff contract).mpr fun hcompiles => (hrest hcompiles).2.2
    obtain ⟨audit_state, hstate⟩ : ∃ audit_state,
        (config.get_full_report input contract).report.audit_state = some audit_state :=
      (report_labels contract).elim (fun h => ⟨4, h.1⟩) (fun h => ⟨5, h.1⟩)
    exact ⟨_, audit_eq_ok_iff.mpr ⟨contract, h, audit_uri, uploaded, audit_state, hcontract,
      ⟨hothers, hvalid⟩, hcompress, hupload, huploaded, hstate, rfl⟩⟩

/-- Whatever the interleaving of the analyzers, an audit yields a report exactly when
    the addresses are valid, the node's version fits the compressed format, of a
    contract that compiles the entries are valid and their findings fit the format as
    well, and the contract is fetched and the report stored. -/
theorem audit_yields_report_iff (hdigest : ∀ text, HexDigest (config.digest text)) {labels : List Label}
    (hrun : lib.transition.run (step config.analyzers) State.init labels = some input.collected)
    (hdone : input.collected.pc = .done) :
    (∃ result, config.audit input = .ok result) ↔
      (schema.address_pattern input.requestor = true ∧ schema.address_pattern config.account = true) ∧
        VersionFits config.node_version ∧
        (¬ input.compilation.Fails →
          (EntriesConform config.analyzers (config.entries input) ∧
            ∀ entry ∈ config.entries input,
              schema.items schema.vulnerability_valid entry.potential_vulnerabilities = true) ∧
          config.FindingsFit input ∧ input.others_valid = true) ∧
        config.Publishes input := by
  rw [exists_result_iff hdigest, collected_entries_valid_iff hrun hdone]
  rfl

end

def address : String := String.ofList ("0x".toList ++ List.replicate 40 'a')

/-- A node with one analyzer, whose reports are uploaded. -/
def uploading_config : AuditConfig :=
  { account := address
    node_version := "2.0.1"
    analyzers := [securify]
    report_encoder
    digest := fun _ => sample_hash 'a'
    dumps := fun _ _ => "\x7b\x7d"
    upload_report := fun _ _ => .ok (.stored "https://reports/1") }

/-- The analyzer finds what the sample report lists. -/
def securify_report : WrapperReport :=
  { report :=
      { empty_report with
        status := some "success"
        potential_vulnerabilities :=
          (((sample_report "").analyzers_reports.getD []).map (fun a =>
            a.potential_vulnerabilities.getD [])).head? }
    status_known := by decide }

def checked_run : List Label :=
  [.collector 1, .check 0 (.returned securify_report), .write 0, .finish 0, .collector 1, .collector 1,
    .collector 1, .collector 1, .collector 1, .collector 1]

def checked : State := (lib.transition.run (step [securify]) State.init checked_run).get (by rfl)

def checked_input : AuditInput :=
  { requestor := address
    uri := "https://contracts/Token.sol"
    request_id := 7
    report_type := "audit"
    temp_file_name := "tmp1"
    original_file_name := "Token.sol"
    contract := .ok "contract Token \x7b\x7d"
    compilation := .output [{ severity := some "warning", formattedMessage := some "tmp1: unused" }]
    collected := checked
    others_valid := true
    timestamp := 1
    upload_contract := .ok true }

def assigned_row : NewEvt :=
  { request_id := 7
    requestor := address
    contract_uri := "https://contracts/Token.sol"
    evt_name := "LogAuditAssigned"
    assigned_block_nbr := 100
    status_info := "Audit Assigned"
    fk_type := .AU
    price := 10 }

theorem hexDigest_sample : HexDigest (sample_hash 'a') := by
  rw [HexDigest, sample_hash, String.toList_ofList]
  refine ⟨List.length_replicate, fun c hc => ?_⟩
  rw [List.eq_of_mem_replicate hc]
  decide

def stored_row : Row :=
  encode { assigned_row.event with
    audit_uri := some "https://reports/1"
    audit_hash := some (sample_hash 'a')
    audit_state := some 4
    full_report := some "\x7b\x7d"
    compressed_report := some (sample_compressed 'A')
    submission_block_nbr := some 120
    status_info := some "Successfully generated report" }

theorem audit_delivers_checked : Delivers uploading_config checked_input stored_row :=
  @audit_delivers uploading_config checked_input (fun _ => hexDigest_sample) assigned_row.event (.ok 120) ""
    stored_row (.put (set_evt_status_to_error { assigned_row.event with status_info := some "" }))
    (by decide +kernel)

theorem run_checked : lib.transition.run (step [securify]) State.init checked_run = some checked :=
  (Option.some_get _).symm

theorem audit_yields_report_checked :
    VersionFits uploading_config.node_version ∧
      (¬ checked_input.compilation.Fails → uploading_config.FindingsFit checked_input) := by
  have haudit : uploading_config.audit checked_input = .ok
      { audit_state := 4
        audit_uri := "https://reports/1"
        audit_hash := sample_hash 'a'
        full_report := "\x7b\x7d"
        compressed_report := sample_compressed 'A' } := by decide +kernel
  obtain ⟨_, hversion, hfit, _⟩ := (@audit_yields_report_iff uploading_config checked_input
    (fun _ => hexDigest_sample) checked_run run_checked rfl).mp ⟨_, haudit⟩
  exact ⟨hversion, fun hcompiles => (hfit hcompiles).2.1⟩

end qsp.perform_audit_thread
