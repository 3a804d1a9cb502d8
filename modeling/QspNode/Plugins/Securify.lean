import QspNode.Lib.Loops
import QspNode.Lib.PythonStr
import QspNode.Lib.Table
import QspNode.ReportProcessing.Encoder

open lib.loops lib.python qsp.report_processing

namespace qsp.securify

/-- The lines that Securify reports for one check of a contract. -/
structure CheckResult where
  violations : List Int
  warnings : List Int
  conflicts : List Int

/-- The output of Securify: its contracts, each with its checks. -/
abbrev Log := List (String × List (String × CheckResult))

/-- The names in `resources/vulnerabilities.json` with their types. -/
def vulnerabilities_json : List (String × String) :=
  [("MissingInputValidation", "missing_input_validation"),
    ("LockedEther", "locked_ether"),
    ("UnrestrictedWrite", "unprotected_state_manipulation"),
    ("UnrestrictedEtherFlow", "unprotected_ether_withdrawal"),
    ("UnhandledException", "unchecked_call_return_value"),
    ("DAO", "reentrancy"),
    ("DAOConstantGas", "reentrancy"),
    ("TODReceiver", "transaction_order_dependency"),
    ("TODTransfer", "transaction_order_dependency"),
    ("TODAmount", "transaction_order_dependency"),
    ("MissingInputValidationTP", "missing_input_validation_true_positive"),
    ("LockedEtherTP", "locked_ether_true_positive"),
    ("UnrestrictedWriteTP", "unprotected_state_manipulation_true_positive"),
    ("UnrestrictedEtherFlowTP", "unprotected_ether_withdrawal_true_positive"),
    ("UnhandledExceptionTP", "unchecked_call_return_value_true_positive"),
    ("DAOTP", "reentrancy_true_positive"),
    ("DAOConstantGasTP", "reentrancy_true_positive"),
    ("TODReceiverTP", "transaction_order_dependency_true_positive"),
    ("TODTransferTP", "transaction_order_dependency_true_positive"),
    ("TODAmountTP", "transaction_order_dependency_true_positive"),
    ("SecurifyBug", "securify_bug"),
    ("Unknown", "other")]

/-- A detected vulnerability; an instance is a line and a reference. -/
structure Issue where
  file_name : String
  contract : Option String
  title : String
  description : String
  instances : List (Int × Nat)

structure Instance where
  ref_id : Nat
  start_line : Int
  deriving DecidableEq

structure Vulnerability where
  type : String
  file : String
  description : String
  contract : Option String
  instances : List Instance
  deriving DecidableEq

structure FinalReport where
  status : String
  potential_vulnerabilities : Option (List Vulnerability)
  deriving DecidableEq

def qsp_type (vulnerability_mapping : List (String × String)) (title : String) : String :=
  (vulnerability_mapping.lookup (strip title)).getD "other"

/-- `Issue.as_vulnerability`. Its first parameter is hidden by the variable of
    the comprehension. -/
def Issue.as_vulnerability (issue : Issue) (vulnerability_mapping : List (String × String)) :
    Vulnerability :=
  { type := qsp_type vulnerability_mapping issue.title
    file := issue.file_name
    description := issue.description
    contract := issue.contract
    instances := issue.instances.map (fun (lineno, ref_id) => { ref_id, start_line := lineno }) }

/-- The loop over the lines of one category. -/
def add_instances (issue : Issue) (issue_reference : Nat) : List Int → Issue × Nat
  | [] => (issue, issue_reference)
  | line :: lines =>
    add_instances { issue with instances := issue.instances ++ [(line + 1, issue_reference)] }
      (issue_reference + 1) lines

/-- The variables of `main` that its loops work on. -/
structure Progress where
  issue_reference : Nat
  potential_vulnerabilities : List Vulnerability

/-- One round of the loop over the checks of a contract. -/
def convert_check (vulnerability_mapping : List (String × String)) (file_name contract_name : String)
    (progress : Progress) (check : String × CheckResult) : Progress :=
  let (vulnerability_check, vulnerability_data) := check
  let qsp_issue (title : String) : Issue :=
    { file_name
      contract := some contract_name
      title
      description := vulnerability_check
      instances := [] }
  let (violation, issue_reference) :=
    add_instances (qsp_issue (vulnerability_check ++ "TP")) progress.issue_reference
      vulnerability_data.violations
  let (warning, issue_reference) :=
    add_instances (qsp_issue vulnerability_check) issue_reference vulnerability_data.warnings
  let (bug, issue_reference) :=
    add_instances (qsp_issue "SecurifyBug") issue_reference vulnerability_data.conflicts
  { issue_reference
    potential_vulnerabilities := progress.potential_vulnerabilities ++
      ([violation, bug, warning].filter (fun issue => issue.instances.length > 0)).map
        (fun issue => issue.as_vulnerability vulnerability_mapping) }

def file_name (contract : String) : String := slice contract (rfind contract '/' + 1) (rfind contract ':')

def contract_name (contract : String) : String := slice_from contract (rfind contract ':' + 1)

/-- One round of the loop over the contracts. -/
def convert_contract (vulnerability_mapping : List (String × String)) (progress : Progress)
    (entry : String × List (String × CheckResult)) : Progress :=
  let (contract, results) := entry
  results.foldl (convert_check vulnerability_mapping (file_name contract) (contract_name contract)) progress

/-- `main`, from the log to the report that it prints. -/
def main (report_dict : Log) : FinalReport :=
  let progress := report_dict.foldl (convert_contract vulnerabilities_json)
    { issue_reference := 0, potential_vulnerabilities := [] }
  { status := "success"
    potential_vulnerabilities :=
      if progress.potential_vulnerabilities.length > 0 then some progress.potential_vulnerabilities
      else none }

/-- What the three lists of a check mean. -/
inductive Category where
  | violation
  | warning
  | conflict
  deriving DecidableEq

/-- A line that Securify reports. -/
structure Finding where
  contract : String
  check : String
  category : Category
  line : Int

def CheckResult.findings (contract check : String) (result : CheckResult) : List Finding :=
  result.violations.map (fun line => { contract, check, category := .violation, line }) ++
    result.warnings.map (fun line => { contract, check, category := .warning, line }) ++
      result.conflicts.map (fun line => { contract, check, category := .conflict, line })

/-- All lines of a log, by contract, check and category. -/
def findings (report_dict : Log) : List Finding :=
  report_dict.flatMap (fun entry =>
    entry.2.flatMap (fun check => check.2.findings entry.1 check.1))

/-- The name that a finding is looked up by. -/
def Finding.title (f : Finding) : String :=
  match f.category with
  | .violation => f.check ++ "TP"
  | .warning => f.check
  | .conflict => "SecurifyBug"

/-- An instance of the report, with the vulnerability that it is listed under. -/
structure Entry where
  type : String
  file : String
  description : String
  contract : Option String
  ref_id : Nat
  start_line : Int
  deriving DecidableEq

def Vulnerability.entries (v : Vulnerability) : List Entry :=
  v.instances.map (fun i =>
    { type := v.type
      file := v.file
      description := v.description
      contract := v.contract
      ref_id := i.ref_id
      start_line := i.start_line })

/-- How a finding is to be reported. -/
def Finding.entry (f : Finding) (ref_id : Nat) : Entry :=
  { type := qsp_type vulnerabilities_json f.title
    file := file_name f.contract
    description := f.check
    contract := some (contract_name f.contract)
    ref_id
    start_line := f.line + 1 }

theorem qsp_type_known (title : String) :
    qsp_type vulnerabilities_json title ∈ vulnerability_types_json := by
  rw [qsp_type]
  cases hlookup : vulnerabilities_json.lookup (strip title) with
  | none => decide
  | some type =>
    have hall : ∀ entry ∈ vulnerabilities_json, entry.2 ∈ vulnerability_types_json := by decide
    exact lib.table.of_lookup_eq_some hall hlookup

theorem add_instances_eq (issue : Issue) (issue_reference : Nat) (lines : List Int) :
    add_instances issue issue_reference lines =
      ({ issue with
          instances := issue.instances ++
            (lines.zipIdx issue_reference).map (fun p => (p.1 + 1, p.2)) },
        issue_reference + lines.length) := by
  induction lines generalizing issue issue_reference with
  | nil => simp [add_instances]
  | cons line lines ih =>
    rw [add_instances, ih]
    simp [Nat.add_comm, Nat.add_left_comm]

/-- The issues that are left out have nothing to report. -/
theorem entries_reported (vulnerability_mapping : List (String × String)) (issues : List Issue) :
    ((issues.filter (fun issue => issue.instances.length > 0)).map
        (fun issue => issue.as_vulnerability vulnerability_mapping)).flatMap Vulnerability.entries =
      issues.flatMap (fun issue => (issue.as_vulnerability vulnerability_mapping).entries) := by
  induction issues with
  | nil => rfl
  | cons issue issues ih =>
    rw [List.filter_cons]
    split
    · rw [List.map_cons, List.flatMap_cons, ih, List.flatMap_cons]
    · next hempty =>
      have hnone : issue.instances = [] := by simpa using hempty
      rw [ih, List.flatMap_cons]
      simp [Vulnerability.entries, Issue.as_vulnerability, hnone]

/-- The lines of one category, as they are reported under a title. -/
theorem entries_of_category (contract check : String) (category : Category) (lines : List Int)
    (issue_reference : Nat) (title : String)
    (htitle : ∀ line, Finding.title { contract, check, category, line } = title) :
    (Issue.as_vulnerability
        { file_name := file_name contract
          contract := some (contract_name contract)
          title
          description := check
          instances := (lines.zipIdx issue_reference).map (fun p => (p.1 + 1, p.2)) }
        vulnerabilities_json).entries =
      ((lines.map (fun line => ({ contract, check, category, line } : Finding))).zipIdx
        issue_reference).map (fun p => p.1.entry p.2) := by
  rw [List.zipIdx_map, List.map_map, Vulnerability.entries, Issue.as_vulnerability, List.map_map,
    List.map_map]
  apply List.map_congr_left
  intro p _
  simp [Finding.entry, htitle]

/-- The report lists the conflicts of a check before its warnings, which were
    numbered first. -/
theorem entries_of_check (contract check : String) (result : CheckResult) (issue_reference : Nat) :
    let issue (title : String) (lines : List Int) (issue_reference : Nat) : Issue :=
      { file_name := file_name contract
        contract := some (contract_name contract)
        title
        description := check
        instances := (lines.zipIdx issue_reference).map (fun p => (p.1 + 1, p.2)) }
    ([issue (check ++ "TP") result.violations issue_reference,
        issue "SecurifyBug" result.conflicts
          (issue_reference + result.violations.length + result.warnings.length),
        issue check result.warnings (issue_reference + result.violations.length)].flatMap
      (fun issue => (issue.as_vulnerability vulnerabilities_json).entries)).Perm
      (((result.findings contract check).zipIdx issue_reference).map (fun p => p.1.entry p.2)) := by
  simp only [List.flatMap_cons, List.flatMap_nil, List.append_nil, CheckResult.findings,
    List.zipIdx_append, List.map_append, List.length_append, List.length_map]
  rw [entries_of_category contract check .violation _ _ _ (fun _ => rfl),
    entries_of_category contract check .conflict _ _ _ (fun _ => rfl),
    entries_of_category contract check .warning _ _ _ (fun _ => rfl), List.append_assoc, Nat.add_assoc]
  exact List.Perm.append_left _ List.perm_append_comm

/-- The loops have reported some findings so far, with known types. -/
structure Converted (fs : List Finding) (progress : Progress) : Prop where
  numbered : Numbered Finding.entry fs progress.issue_reference
    (progress.potential_vulnerabilities.flatMap Vulnerability.entries)
  known : ∀ v ∈ progress.potential_vulnerabilities, v.type ∈ vulnerability_types_json

theorem convert_check_converted {fs : List Finding} {progress : Progress} (contract : String)
    (check : String × CheckResult) (hconverted : Converted fs progress) :
    Converted (fs ++ check.2.findings contract check.1)
      (convert_check vulnerabilities_json (file_name contract) (contract_name contract) progress
        check) := by
  simp only [convert_check, add_instances_eq, List.nil_append]
  constructor
  · have hnumbered := hconverted.numbered.extend
      (entries_of_check contract check.1 check.2 progress.issue_reference)
    rw [List.flatMap_append, entries_reported]
    simpa [CheckResult.findings, Nat.add_assoc] using hnumbered
  · intro v hv
    rcases List.mem_append.mp hv with hv | hv
    · exact hconverted.known v hv
    · obtain ⟨issue, _, rfl⟩ := List.mem_map.mp hv
      exact qsp_type_known issue.title

theorem convert_contract_converted {fs : List Finding} {progress : Progress}
    (entry : String × List (String × CheckResult)) (hconverted : Converted fs progress) :
    Converted (fs ++ entry.2.flatMap (fun check => check.2.findings entry.1 check.1))
      (convert_contract vulnerabilities_json progress entry) :=
  foldl_extends (motive := Converted)
    (fun _ _ check hprefix => convert_check_converted entry.1 check hprefix) hconverted entry.2

theorem main_converted (report_dict : Log) :
    Converted (findings report_dict)
      (report_dict.foldl (convert_contract vulnerabilities_json)
        { issue_reference := 0, potential_vulnerabilities := [] }) := by
  have hconverted := foldl_extends (motive := Converted)
    (fun _ _ entry hprefix => convert_contract_converted entry hprefix)
    (⟨numbered_nil, by simp⟩ : Converted [] { issue_reference := 0, potential_vulnerabilities := [] })
    report_dict
  rwa [List.nil_append] at hconverted

theorem types_encoded : ∀ type ∈ vulnerability_types_json,
    (report_encoder.vulnerability_types type).isSome := by
  decide +kernel

/-- Every line that Securify reports becomes one instance, numbered in the order
    of the log, under a type that the report encoder knows. -/
theorem findings_conserved (report_dict : Log) :
    let vulnerabilities := (main report_dict).potential_vulnerabilities.getD []
    (vulnerabilities.flatMap Vulnerability.entries).Perm
      ((findings report_dict).zipIdx.map (fun p => p.1.entry p.2)) ∧
    ((vulnerabilities.flatMap Vulnerability.entries).map Entry.ref_id).Perm
      (List.range (findings report_dict).length) ∧
    ∀ v ∈ vulnerabilities, v.type ∈ vulnerability_types_json ∧
      (report_encoder.vulnerability_types v.type).isSome := by
  obtain ⟨hnumbered, hknown⟩ := main_converted report_dict
  rw [main, getD_nonempty]
  refine ⟨hnumbered.emitted, hnumbered.numbers (fun _ _ => rfl), ?_⟩
  intro v hv
  exact ⟨hknown v hv, types_encoded v.type (hknown v hv)⟩

/-- A check with all three kinds of lines, and one that Securify has added
    since. -/
example :
    ((main
        [("/shared/token.sol:Token",
          [("DAO", { violations := [4], warnings := [8], conflicts := [9] }),
            ("New", { violations := [], warnings := [2], conflicts := [] })])]).potential_vulnerabilities.getD
        []).flatMap (fun v => v.instances.map (fun i => (v.type, i.ref_id, i.start_line))) =
      [("reentrancy_true_positive", 0, 5), ("securify_bug", 2, 10), ("reentrancy", 1, 9),
        ("other", 3, 3)] := by
  decide +kernel

end qsp.securify
