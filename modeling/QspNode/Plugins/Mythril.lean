import QspNode.Exceptions
import QspNode.Lib.Loops
import QspNode.Lib.PythonStr
import QspNode.Lib.Table
import QspNode.ReportProcessing.Encoder

open lib.loops lib.python qsp.report_processing

namespace qsp.mythril

/-- A JSON value as `json.loads` reads it. Of a number with a fraction or an
    exponent only its text is kept. -/
inductive Json where
  | null
  | bool (b : Bool)
  | int (n : Int)
  | float (text : String)
  | str (s : String)
  | arr (items : List Json)
  | obj (entries : List (String × Json))

def Json.type_name : Json → String
  | .null => "NoneType"
  | .bool _ => "bool"
  | .int _ => "int"
  | .float _ => "float"
  | .str _ => "str"
  | .arr _ => "list"
  | .obj _ => "dict"

abbrev Dictionary := List (String × Json)

/-- The names in `resources/vulnerabilities.json` with their types. -/
def vulnerabilities_json : List (String × String) :=
  [("Call data forwarded with delegatecall()", "delegate_call_to_untrusted_contract"),
    ("Dependence on predictable environment variable", "dependence_on_environment_variable"),
    ("Call to a user-supplied address", "delegate_call_to_untrusted_contract"),
    ("Use of tx.origin", "tx_origin_usage"),
    ("Ether send", "unprotected_ether_withdrawal"),
    ("Exception state", "exception_state"),
    ("Message call to external contract", "call_to_external_contract"),
    ("State change after external call", "reentrancy"),
    ("Integer Overflow", "integer_overflow"),
    ("Integer Underflow", "integer_underflow"),
    ("Multiple Calls", "multiple_calls"),
    ("Unchecked SUICIDE", "unprotected_self_destruct"),
    ("Transaction order dependence", "transaction_order_dependency"),
    ("Unchecked CALL return value", "unchecked_call_return_value"),
    ("Unknown", "other")]

/-- The attributes that an instance of `MythrilIssue` has of its own. -/
structure MythrilIssue where
  attributes : String → Option Json

def MythrilIssue.get (issue : MythrilIssue) (name : String) : Json :=
  (issue.attributes name).getD .null

/-- `MythrilIssue(None, None, None, None)`. -/
def MythrilIssue.init : MythrilIssue :=
  { attributes := fun name =>
      [("title", .null), ("contract", .null), ("function", .null), ("address", .null),
        ("description", .str ""), ("type", .str "Informational"), ("debug", .str ""),
        ("file_name", .null), ("code", .null), ("lineno", .null)].lookup name }

/-- `MythrilIssue.from_dict`. The keys of the dictionary are passed as keyword
    arguments. -/
def from_dict (original_file_name : String) (dictionary : Dictionary) : Except PyException MythrilIssue :=
  match dictionary.lookup "original_file_name" with
  | some _ =>
    .error (.TypeError "from_dict() got multiple values for argument 'original_file_name'")
  | none =>
    .ok
      { attributes := fun name =>
          if name = "file_name" then some (.str original_file_name)
          else (dictionary.lookup name).or (MythrilIssue.init.attributes name) }

structure Instance where
  ref_id : Nat
  start_line : Json

structure Vulnerability where
  type : String
  file : Json
  description : Json
  contract : Option Json
  instances : List Instance

structure FinalReport where
  status : String
  potential_vulnerabilities : Option (List Vulnerability)

def qsp_type (vulnerability_mapping : List (String × String)) (title : String) : String :=
  match vulnerability_mapping.lookup (strip title) with
  | some type => type
  | none =>
    if contains title "to a user-supplied address" then "delegate_call_to_untrusted_contract" else "other"

/-- `MythrilIssue.as_vulnerability`. An attribute of its name hides the method. -/
def MythrilIssue.as_vulnerability (issue : MythrilIssue) (ref_id : Nat)
    (vulnerability_mapping : List (String × String)) : Except PyException Vulnerability :=
  match issue.attributes "as_vulnerability" with
  | some value => .error (.TypeError ("'" ++ value.type_name ++ "' object is not callable"))
  | none =>
    match issue.get "title" with
    | .str title =>
      .ok
        { type := qsp_type vulnerability_mapping title
          file := issue.get "file_name"
          description := issue.get "description"
          contract :=
            match issue.get "contract" with
            | .null => none
            | contract_name => some contract_name
          instances := [{ ref_id, start_line := issue.get "lineno" }] }
    | value =>
      .error (.AttributeError ("'" ++ value.type_name ++ "' object has no attribute 'strip'"))

/-- The log of a run; `success` is read as `report_dict['success']`. -/
structure Log where
  success : Bool
  issues : List Dictionary

/-- The loop of `main`. -/
def convert (original_file_name : String) (issue_reference : Nat) :
    List Dictionary → Except PyException (List Vulnerability)
  | [] => pure []
  | issue :: issues => do
    let mythril_issue ← from_dict original_file_name issue
    let vulnerability ← mythril_issue.as_vulnerability issue_reference vulnerabilities_json
    let potential_vulnerabilities ← convert original_file_name (issue_reference + 1) issues
    pure (vulnerability :: potential_vulnerabilities)

/-- `main`, from the log to the report that it prints. -/
def main (original_file_name : String) (report_dict : Log) : Except PyException FinalReport := do
  let potential_vulnerabilities ←
    if report_dict.success then convert original_file_name 0 report_dict.issues else pure []
  pure
    { status := "success"
      potential_vulnerabilities :=
        if potential_vulnerabilities.length > 0 then some potential_vulnerabilities else none }

/-- The schema's `"type": "string"` with a `maxLength`. -/
def string_valid (maxLength : Nat) : Json → Bool
  | .str s => s.length ≤ maxLength
  | _ => false

/-- The schema's `"type": "integer"` with a `minimum`. -/
def integer_valid (minimum : Int) : Json → Bool
  | .int n => minimum ≤ n
  | _ => false

/-- The items of `potential_vulnerabilities` in `analyzer_integration.json`. -/
def vulnerability_valid (v : Vulnerability) : Bool :=
  string_valid 1000 (.str v.type) && string_valid 1000 v.file && v.contract.all (string_valid 1000) &&
    v.instances.all (fun i => integer_valid 0 (.int i.ref_id) && integer_valid 0 i.start_line)

/-- An issue with a string as title and as description; what else it has is
    left open. -/
structure Issue where
  dictionary : Dictionary
  title : String
  description : String
  has_title : dictionary.lookup "title" = some (.str title)
  has_description : dictionary.lookup "description" = some (.str description)

/-- The report of a successful run has one vulnerability for each issue in
    order, with a known type, and is valid. -/
def Conforms (original_file_name : String) (issues : List Issue) : Prop :=
  ∃ report, main original_file_name { success := true, issues := issues.map Issue.dictionary } = .ok report ∧
    let vulnerabilities := report.potential_vulnerabilities.getD []
    vulnerabilities.map (fun v => (v.description, v.instances.map Instance.ref_id)) =
        issues.zipIdx.map (fun p => (.str p.1.description, [p.2])) ∧
      ∀ v ∈ vulnerabilities, v.type ∈ vulnerability_types_json ∧ vulnerability_valid v

/-- An issue that is converted to a valid vulnerability. -/
structure Issue.Convertible (original_file_name : String) (issue : Issue) : Prop where
  no_argument : issue.dictionary.lookup "original_file_name" = none
  no_method : issue.dictionary.lookup "as_vulnerability" = none
  short_file : original_file_name.length ≤ 1000
  has_line : ∃ n, issue.dictionary.lookup "lineno" = some (.int n) ∧ 0 ≤ n
  short_contract : ∀ contract, issue.dictionary.lookup "contract" = some contract →
    contract = .null ∨ ∃ s, contract = .str s ∧ s.length ≤ 1000

def contract_of (contract : Option Json) : Option Json :=
  match contract.getD .null with
  | .null => none
  | contract_name => some contract_name

/-- What becomes of an issue that hides nothing of the class. -/
def Issue.vulnerability (original_file_name : String) (issue : Issue) (ref_id : Nat) : Vulnerability :=
  { type := qsp_type vulnerabilities_json issue.title
    file := .str original_file_name
    description := .str issue.description
    contract := contract_of (issue.dictionary.lookup "contract")
    instances := [{ ref_id, start_line := (issue.dictionary.lookup "lineno").getD .null }] }

/-- The attributes of an issue are the keys of its dictionary, over those of a
    new instance. -/
theorem attributes_of_from_dict {original_file_name : String} {dictionary : Dictionary}
    {issue : MythrilIssue} (hdict : from_dict original_file_name dictionary = .ok issue) (name : String) :
    issue.attributes name =
      if name = "file_name" then some (.str original_file_name)
      else (dictionary.lookup name).or (MythrilIssue.init.attributes name) := by
  unfold from_dict at hdict
  split at hdict
  · cases hdict
  · obtain rfl := Except.ok.inj hdict
    rfl

theorem get_of_from_dict {original_file_name : String} {dictionary : Dictionary} {issue : MythrilIssue}
    (hdict : from_dict original_file_name dictionary = .ok issue) {name : String} {value : Json}
    (hname : name ≠ "file_name") (hinit : MythrilIssue.init.attributes name = some value) :
    issue.get name = (dictionary.lookup name).getD value := by
  rw [MythrilIssue.get, attributes_of_from_dict hdict, if_neg hname, hinit]
  cases dictionary.lookup name <;> rfl

theorem convert_issue_eq_ok_iff {original_file_name : String} {issue : Issue} {ref_id : Nat}
    {v : Vulnerability} :
    (∃ mythril_issue, from_dict original_file_name issue.dictionary = .ok mythril_issue ∧
        mythril_issue.as_vulnerability ref_id vulnerabilities_json = .ok v) ↔
      (issue.dictionary.lookup "original_file_name" = none ∧
        issue.dictionary.lookup "as_vulnerability" = none) ∧
      v = issue.vulnerability original_file_name ref_id := by
  cases hargument : issue.dictionary.lookup "original_file_name" with
  | some value => simp [from_dict, hargument]
  | none =>
    obtain ⟨mythril_issue, hdict⟩ : ∃ mythril_issue,
        from_dict original_file_name issue.dictionary = .ok mythril_issue := by
      rw [from_dict, hargument]
      exact ⟨_, rfl⟩
    have hmethod : mythril_issue.attributes "as_vulnerability" =
        issue.dictionary.lookup "as_vulnerability" := by
      rw [attributes_of_from_dict hdict]
      exact Option.or_none
    have hfile : mythril_issue.get "file_name" = .str original_file_name := by
      rw [MythrilIssue.get, attributes_of_from_dict hdict]
      rfl
    have htitle : mythril_issue.get "title" = .str issue.title := by
      rw [get_of_from_dict hdict (by decide) rfl, issue.has_title]
      rfl
    have hdescription : mythril_issue.get "description" = .str issue.description := by
      rw [get_of_from_dict hdict (by decide) rfl, issue.has_description]
      rfl
    have hcontract := get_of_from_dict hdict (show "contract" ≠ "file_name" by decide) rfl
    have hlineno := get_of_from_dict hdict (show "lineno" ≠ "file_name" by decide) rfl
    rw [hdict]
    simp only [Except.ok.injEq, exists_eq_left', true_and]
    rw [MythrilIssue.as_vulnerability, hmethod, hfile, htitle, hdescription, hcontract, hlineno]
    cases issue.dictionary.lookup "as_vulnerability" with
    | some value => simp
    | none => simp [Issue.vulnerability, contract_of, eq_comm]

/-- The loop numbers the issues from its reference on. -/
theorem convert_eq_ok_iff {original_file_name : String} {issue_reference : Nat} {issues : List Issue}
    {vulnerabilities : List Vulnerability} :
    convert original_file_name issue_reference (issues.map Issue.dictionary) = .ok vulnerabilities ↔
      (∀ issue ∈ issues, issue.dictionary.lookup "original_file_name" = none ∧
        issue.dictionary.lookup "as_vulnerability" = none) ∧
      vulnerabilities =
        (issues.zipIdx issue_reference).map (fun p => p.1.vulnerability original_file_name p.2) := by
  induction issues generalizing issue_reference vulnerabilities with
  | nil =>
    rw [List.map_nil, convert, pure_eq_ok_iff]
    simp only [List.not_mem_nil, false_implies, implies_true, List.zipIdx_nil, List.map_nil, true_and]
    exact eq_comm
  | cons issue issues ih =>
    simp only [List.map_cons, convert, bind_eq_ok_iff, pure_eq_ok_iff, ih, List.forall_mem_cons,
      List.zipIdx_cons]
    constructor
    · intro hconvert
      obtain ⟨mythril_issue, hdict, v, hvulnerability, vs, ⟨hrest, rfl⟩, rfl⟩ := hconvert
      obtain ⟨hfirst, rfl⟩ := convert_issue_eq_ok_iff.mp ⟨mythril_issue, hdict, hvulnerability⟩
      exact ⟨⟨hfirst, hrest⟩, rfl⟩
    · intro hconvert
      obtain ⟨⟨hfirst, hrest⟩, rfl⟩ := hconvert
      obtain ⟨mythril_issue, hdict, hvulnerability⟩ := convert_issue_eq_ok_iff.mpr ⟨hfirst, rfl⟩
      exact ⟨mythril_issue, hdict, _, hvulnerability, _, ⟨hrest, rfl⟩, rfl⟩

theorem qsp_type_known (title : String) :
    qsp_type vulnerabilities_json title ∈ vulnerability_types_json := by
  unfold qsp_type
  split
  · next type hlookup => exact lib.table.of_lookup_eq_some (by decide) hlookup
  · split <;> decide

theorem known_type_short {type : String} (hknown : type ∈ vulnerability_types_json) :
    type.length ≤ 1000 := by
  have hall : ∀ type ∈ vulnerability_types_json, type.length ≤ 1000 := by decide +kernel
  exact hall type hknown

theorem contract_valid_iff (contract : Option Json) :
    (contract_of contract).all (string_valid 1000) ↔ ∀ c, contract = some c →
      c = .null ∨ ∃ s, c = .str s ∧ s.length ≤ 1000 := by
  cases contract with
  | none => simp [contract_of]
  | some c => cases c <;> simp [contract_of, string_valid]

theorem line_valid_iff (lineno : Option Json) :
    integer_valid 0 (lineno.getD .null) ↔ ∃ n, lineno = some (.int n) ∧ 0 ≤ n := by
  cases lineno with
  | none => simp [integer_valid]
  | some value => cases value <;> simp [integer_valid]

/-- Only the title is always mapped to something valid. -/
theorem vulnerability_valid_iff {original_file_name : String} {issue : Issue} {ref_id : Nat} :
    vulnerability_valid (issue.vulnerability original_file_name ref_id) ↔
      original_file_name.length ≤ 1000 ∧
      (∀ contract, issue.dictionary.lookup "contract" = some contract →
        contract = .null ∨ ∃ s, contract = .str s ∧ s.length ≤ 1000) ∧
      ∃ n, issue.dictionary.lookup "lineno" = some (.int n) ∧ 0 ≤ n := by
  have htype := known_type_short (qsp_type_known issue.title)
  rw [← contract_valid_iff, ← line_valid_iff]
  simp only [vulnerability_valid, Issue.vulnerability, string_valid, integer_valid, htype, decide_true,
    List.all_cons, List.all_nil, Bool.and_true, Bool.true_and, Int.natCast_nonneg, Bool.and_eq_true,
    decide_eq_true_eq, and_assoc]

/-- A report is valid exactly when every issue has a line and a file and
    contract that are short enough, and hides nothing of the class. -/
theorem conforms_iff (original_file_name : String) (issues : List Issue) :
    Conforms original_file_name issues ↔
      ∀ issue ∈ issues, issue.Convertible original_file_name := by
  simp only [Conforms, main, if_true, bind_eq_ok_iff, pure_eq_ok_iff, convert_eq_ok_iff]
  constructor
  · intro hconforms issue hissue
    obtain ⟨report, ⟨vulnerabilities, ⟨hfree, rfl⟩, rfl⟩, _, hvalid⟩ := hconforms
    rw [getD_nonempty] at hvalid
    obtain ⟨i, hi⟩ := List.mem_iff_getElem?.mp hissue
    have hmem : issue.vulnerability original_file_name i ∈
        issues.zipIdx.map (fun p => p.1.vulnerability original_file_name p.2) :=
      List.mem_map.mpr ⟨(issue, i), List.mk_mem_zipIdx_iff_getElem?.mpr hi, rfl⟩
    obtain ⟨hshort, hcontract, hline⟩ := vulnerability_valid_iff.mp (hvalid _ hmem).2
    obtain ⟨hargument, hmethod⟩ := hfree _ hissue
    exact
      { no_argument := hargument
        no_method := hmethod
        short_file := hshort
        has_line := hline
        short_contract := hcontract }
  · intro hall
    refine ⟨_, ⟨_, ⟨fun issue hissue => ⟨(hall issue hissue).no_argument, (hall issue hissue).no_method⟩,
      rfl⟩, rfl⟩, ?_, ?_⟩
    · rw [getD_nonempty, List.map_map]
      rfl
    · rw [getD_nonempty]
      intro v hv
      obtain ⟨p, hp, rfl⟩ := List.mem_map.mp hv
      have hissue := hall p.1 (List.fst_mem_of_mem_zipIdx hp)
      have hvalid : vulnerability_valid (p.1.vulnerability original_file_name p.2) :=
        vulnerability_valid_iff.mpr ⟨hissue.short_file, hissue.short_contract, hissue.has_line⟩
      refine ⟨?_, hvalid⟩
      simp only [Issue.vulnerability]
      exact qsp_type_known p.1.title

/-- An issue of the bytecode, which no line of the source belongs to. -/
def issue_without_line : Issue :=
  { dictionary := [("title", .str "Exception state"), ("description", .str "A reachable exception.")]
    title := "Exception state"
    description := "A reachable exception."
    has_title := rfl
    has_description := rfl }

/-- Its vulnerability starts at the line `null`. -/
theorem issue_without_line_rejected :
    (∃ v, main "token.sol" { success := true, issues := [issue_without_line.dictionary] } =
        .ok { status := "success", potential_vulnerabilities := some [v] } ∧
      v.type = "exception_state" ∧ v.instances = [{ ref_id := 0, start_line := .null }] ∧
      vulnerability_valid v = false) ∧
    ¬ Conforms "token.sol" [issue_without_line] := by
  have hmain : main "token.sol" { success := true, issues := [issue_without_line.dictionary] } =
      .ok
        { status := "success"
          potential_vulnerabilities := some [issue_without_line.vulnerability "token.sol" 0] } := rfl
  have hinvalid : vulnerability_valid (issue_without_line.vulnerability "token.sol" 0) = false := rfl
  refine ⟨⟨_, hmain, rfl, rfl, hinvalid⟩, ?_⟩
  intro hconforms
  obtain ⟨report, hreport, _, hvalid⟩ := hconforms
  obtain rfl := Except.ok.inj (hmain.symm.trans hreport)
  have hfirst := (hvalid _ List.mem_cons_self).2
  rw [hinvalid] at hfirst
  cases hfirst

end qsp.mythril
