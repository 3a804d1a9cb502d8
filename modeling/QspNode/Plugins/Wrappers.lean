import QspNode.PerformAuditThread.Analyzers
import QspNode.Plugins.Mythril
import QspNode.Plugins.Oyente
import QspNode.Plugins.Securify
import QspNode.ReportProcessing.Domain
import QspNode.Schema

open lib.loops qsp.config qsp.mythril qsp.perform_audit_thread qsp.report_processing

namespace qsp.wrappers

/-- The lines of a file, or the text of the exception that reading it raises. -/
abbrev File := Except String (List String)

/-- What a report of status `error` says. -/
structure ErrorReport where
  errors : Option (List String)
  warnings : Option (List String)
  trace : Option (List String)

/-- `print_report` of the `mk_error_report` scripts. -/
def print_report (errors warnings trace : List String) : ErrorReport :=
  { errors := if errors.length > 0 then some errors else none
    warnings := if warnings.length > 0 then some warnings else none
    trace := if trace.length > 0 then some trace else none }

/-- A `try` block of `mk_error_report`: what it reads, and the errors after it. -/
def read_lines (errors : List String) : File → List String × List String
  | .ok lines => (lines, errors)
  | .error text => ([], errors ++ [text])

/-- `main` of Oyente's `mk_error_report`, which reads the errors first. -/
def oyente_mk_error_report (errors_file warnings_file trace_file : File) : ErrorReport :=
  let errors := match errors_file with
    | .ok lines => lines
    | .error text => [text]
  let (warnings, errors) := read_lines errors warnings_file
  let (trace, errors) := read_lines errors trace_file
  print_report errors warnings trace

/-- `main` of the `mk_error_report` that Mythril and Securify have. The lines of the
    errors file replace what reading the trace has raised. -/
def mk_error_report (errors_file trace_file : File) : ErrorReport :=
  let (trace, errors) := read_lines [] trace_file
  let errors := match errors_file with
    | .ok lines => lines
    | .error text => errors ++ [text]
  print_report errors [] trace

/-- A vulnerability of a printed report. Its contract is a key that the node only
    validates. -/
structure Vulnerability where
  report : qsp.report.Vulnerability
  contract : Option Json

def of_oyente (v : oyente.Vulnerability) : Vulnerability :=
  { report :=
      { type := some v.type
        file := some v.file
        instances := some (v.instances.map (fun i =>
          { ref_id := some i.ref_id, start_line := some i.start_line, end_line := some i.end_line })) }
    contract := some (.str v.contract) }

/-- A value of another type counts as missing. The schema rejects both. -/
def as_int : Json → Option Int
  | .int n => some n
  | _ => none

def as_str : Json → Option String
  | .str s => some s
  | _ => none

def of_mythril (v : mythril.Vulnerability) : Vulnerability :=
  { report :=
      { type := some v.type
        file := as_str v.file
        instances := some (v.instances.map (fun i =>
          { ref_id := some i.ref_id, start_line := as_int i.start_line, end_line := none })) }
    contract := v.contract }

def of_securify (v : securify.Vulnerability) : Vulnerability :=
  { report :=
      { type := some v.type
        file := some v.file
        instances := some (v.instances.map (fun i =>
          { ref_id := some i.ref_id, start_line := some i.start_line, end_line := none })) }
    contract := v.contract.map .str }

/-- What a report of status `success` says. Only Oyente's has warnings and coverages. -/
structure SuccessReport where
  warnings : Option (List String)
  coverages : Option (List oyente.Coverage)
  potential_vulnerabilities : Option (List Vulnerability)

/-- The JSON that a `run` script prints. -/
inductive Document where
  | success (report : SuccessReport)
  | error (report : ErrorReport)

/-- What the `run` scripts do before they start the analyzer: whether there is a
    file `.once`, and whether `once`, `pre_run` and the copy of the contract succeed. -/
structure Setup where
  once_done : Bool
  once : Bool
  pre_run : Bool
  copied : Bool

def Setup.succeeds (setup : Setup) : Bool := (setup.once_done || setup.once) && setup.pre_run && setup.copied

/-- What the analyzer leaves, as the script and `mk_success_report` read it: the
    lines that Oyente marks and its report files, Mythril's log with whether it has
    a line `"success": true`, Securify's exit status and its log. -/
inductive Results where
  | oyente (errors warnings : List String) (reports : List (String × Except PyException oyente.OyenteReport))
  | mythril (marked : Bool) (report_dict : Except PyException (Bool × List mythril.Issue))
  | securify (exits_ok : Bool) (report_dict : Except PyException securify.Log)

/-- A run of a `run` script. The log and the trace are those of the moment when an
    error is reported. -/
structure Execution where
  original_file_name : String
  setup : Setup
  results : Results
  log_output : File
  trace_output : File

/-- `report_errors`. -/
def Execution.report_errors (e : Execution) : ErrorReport :=
  match e.results with
  | .oyente _ _ _ => oyente_mk_error_report e.log_output (.ok []) e.trace_output
  | .mythril _ _ | .securify _ _ => mk_error_report e.log_output e.trace_output

/-- Loading Oyente's report files. -/
def load_reports (reports : List (String × Except PyException oyente.OyenteReport)) :
    Except PyException (List (String × oyente.OyenteReport)) :=
  collect (fun entry => do
    let report ← entry.2
    return [(entry.1, report)]) reports

/-- The `mk_success_report` scripts. -/
def Execution.mk_success_report (e : Execution) : Except PyException SuccessReport :=
  match e.results with
  | .oyente _ warnings reports => do
    let report ← oyente.main e.original_file_name warnings (← load_reports reports)
    return {
      warnings := report.warnings
      coverages := report.coverages
      potential_vulnerabilities := report.potential_vulnerabilities.map (List.map of_oyente) }
  | .mythril _ report_dict => do
    let (success, issues) ← report_dict
    let report ← mythril.main e.original_file_name { success, issues := issues.map Issue.dictionary }
    return {
      warnings := none
      coverages := none
      potential_vulnerabilities := report.potential_vulnerabilities.map (List.map of_mythril) }
  | .securify _ report_dict => do
    let report := securify.main (← report_dict)
    return {
      warnings := none
      coverages := none
      potential_vulnerabilities := report.potential_vulnerabilities.map (List.map of_securify) }

/-- The end of a `run` script, which prints the report or why there is none. -/
def Execution.finish (e : Execution) : Document × Nat :=
  match e.mk_success_report with
  | .ok report => (.success report, 0)
  | .error _ => (.error e.report_errors, 1)

/-- The `run` scripts: what they print, and their exit status. -/
def Execution.run (e : Execution) : Document × Nat :=
  let failed := (.error e.report_errors, 1)
  if e.setup.succeeds then
    match e.results with
    | .oyente errors warnings reports =>
      -- Trailing line breaks do not count for the shell.
      if reports.length = 0 ∨ ∃ text ∈ errors, text ≠ "" then
        (.error (oyente_mk_error_report (.ok (errors.map (· ++ "\n"))) (.ok (warnings.map (· ++ "\n")))
          e.trace_output), 1)
      else e.finish
    | .mythril marked _ => if marked then e.finish else failed
    | .securify exits_ok _ => if exits_ok then e.finish else failed
  else failed

def Document.coverages : Document → List oyente.Coverage
  | .success report => report.coverages.getD []
  | .error _ => []

def Document.vulnerabilities : Document → List Vulnerability
  | .success report => report.potential_vulnerabilities.getD []
  | .error _ => []

/-- The document as the node reads it. -/
def Document.report : Document → qsp.report.AnalyzerReport
  | .success report =>
    { empty_report with
      status := some "success"
      potential_vulnerabilities := report.potential_vulnerabilities.map (List.map Vulnerability.report) }
  | .error report => { empty_report with status := some "error", errors := report.errors }

section
variable {text : String} {errors_file warnings_file trace_file : File}

theorem print_report_errors (errors warnings trace : List String) :
    (print_report errors warnings trace).errors.getD [] = errors := getD_nonempty errors

/-- Oyente's script reports every file that it fails to read. -/
theorem oyente_reading_error_reported
    (hunread : errors_file = .error text ∨ warnings_file = .error text ∨ trace_file = .error text) :
    text ∈ (oyente_mk_error_report errors_file warnings_file trace_file).errors.getD [] := by
  unfold oyente_mk_error_report
  rw [print_report_errors]
  obtain rfl | rfl | rfl := hunread
  · cases warnings_file <;> cases trace_file <;> simp [read_lines]
  · cases errors_file <;> cases trace_file <;> simp [read_lines]
  · cases errors_file <;> cases warnings_file <;> simp [read_lines]

/-- The other two lose what reading the trace has raised, unless they fail to read
    the errors as well. -/
theorem trace_error_reported_iff (hunread : trace_file = .error text) :
    text ∈ (mk_error_report errors_file trace_file).errors.getD [] ↔
      ∀ lines, errors_file = .ok lines → text ∈ lines := by
  unfold mk_error_report
  rw [print_report_errors, hunread]
  cases errors_file <;> simp [read_lines]

end

/-- The node takes a vulnerability: it is valid, and the compressed format has
    room for it. -/
structure Vulnerability.Accepted (v : Vulnerability) : Prop where
  valid : schema.vulnerability_valid v.report = true
  contract : v.contract.all (string_valid 1000) = true
  fits : ∀ i ∈ v.report.instances.getD [], report_encoder.AcceptsInstance v.report.type i

/-- The schema's `minimum` and `maximum` of a percentage, which NaN passes. -/
def percentage_valid (percentage : Number) : Bool :=
  !percentage.lt (Number.of 0) && !(Number.of 100).lt percentage

/-- The items of `coverages` in `analyzer_integration.json`. -/
def coverage_valid (coverage : oyente.Coverage) : Bool :=
  percentage_valid coverage.percentage && coverage.file.length ≤ 1000 && coverage.contract.length ≤ 1000

/-- The node takes a document with all that it lists. -/
structure Document.Accepted (document : Document) : Prop where
  coverages : ∀ coverage ∈ document.coverages, coverage_valid coverage = true
  vulnerabilities : ∀ v ∈ document.vulnerabilities, v.Accepted

/-- The lines that the compressed format has room for. -/
def LineFits (line : Int) : Prop := 0 ≤ line ∧ line ≤ 32767

instance LineFits.decidable (line : Int) : Decidable (LineFits line) :=
  inferInstanceAs (Decidable (_ ∧ _))

/-- The names, lines and percentages in the analyzer's results that the node has room
    for. -/
def Execution.Within (e : Execution) : Prop :=
  match e.results with
  | .oyente _ _ reports => ∀ loaded, load_reports reports = .ok loaded →
      (∀ entry ∈ loaded, e.original_file_name.length ≤ 1000 ∧ (oyente.contract_of entry.1).length ≤ 1000 ∧
        percentage_valid entry.2.coverage = true) ∧
      ∀ f ∈ oyente.findings loaded, ∀ warning ∈ f.warnings, LineFits (oyente.line_of warning)
  | .mythril _ report_dict => ∀ issues, report_dict = .ok (true, issues) →
      ∀ issue ∈ issues, issue.Convertible e.original_file_name ∧
        ∀ n, issue.dictionary.lookup "lineno" = some (.int n) → LineFits n
  | .securify _ report_dict => ∀ log, report_dict = .ok log →
      ∀ f ∈ securify.findings log, (securify.file_name f.contract).length ≤ 1000 ∧
        (securify.contract_name f.contract).length ≤ 1000 ∧ LineFits (f.line + 1)

/-- The types of the wrappers all have a code, and are short. -/
theorem known_type {type : String} (hknown : type ∈ vulnerability_types_json) :
    (report_encoder.vulnerability_types type).isSome ∧ type.length ≤ 1000 := by
  have hall : ∀ type ∈ vulnerability_types_json,
      (report_encoder.vulnerability_types type).isSome ∧ type.length ≤ 1000 := by decide +kernel
  exact hall type hknown

theorem minimum_natCast (n : Nat) : schema.minimum 0 (some (n : Int)) = true :=
  decide_eq_true (Int.natCast_nonneg n)

/-- What is left to check of a vulnerability of a wrapper. -/
theorem accepted_iff {type : String} {file : Option String} {instances : List qsp.report.Instance}
    {contract : Option Json} (hknown : type ∈ vulnerability_types_json)
    (hinstances : ∀ i ∈ instances, schema.required i.ref_id = true ∧ schema.minimum 0 i.ref_id = true ∧
      (i.end_line = none ∨ i.end_line = i.start_line)) :
    Vulnerability.Accepted
        { report := { type := some type, file, instances := some instances }, contract } ↔
      (∃ name, file = some name ∧ name.length ≤ 1000) ∧ contract.all (string_valid 1000) = true ∧
        ∀ i ∈ instances, ∃ line, i.start_line = some line ∧ LineFits line := by
  obtain ⟨htype, hlength⟩ := known_type hknown
  obtain ⟨id, hid⟩ := Option.isSome_iff_exists.mp htype
  constructor
  · rintro ⟨hvalid, hcontract, hfits⟩
    simp only [schema.vulnerability_valid, Bool.and_eq_true] at hvalid
    obtain ⟨name, rfl⟩ := Option.isSome_iff_exists.mp hvalid.1.1.1.1.2
    refine ⟨⟨name, rfl, of_decide_eq_true hvalid.1.2⟩, hcontract, fun i hi => ?_⟩
    obtain ⟨_, _, line, _, _, hline, hnonneg, hmax, _⟩ := hfits i hi
    exact ⟨line, hline, hnonneg, hmax⟩
  · rintro ⟨⟨name, rfl, hname⟩, hcontract, hlines⟩
    refine ⟨?_, hcontract, fun i hi => ?_⟩
    · have hall : ∀ i ∈ instances, schema.instance_valid i = true := by
        intro i hi
        obtain ⟨hrequired, hminimum, hend⟩ := hinstances i hi
        obtain ⟨line, hline, hnonneg, _⟩ := hlines i hi
        have hlater : schema.minimum 0 i.end_line = true := by
          rcases hend with hend | hend
          · rw [hend]
            rfl
          · rw [hend, hline]
            exact decide_eq_true hnonneg
        rw [schema.instance_valid, hrequired, hminimum, hline, hlater]
        simp [schema.required, schema.minimum, hnonneg]
      simpa [schema.vulnerability_valid, schema.required, schema.maxLength, schema.items, hlength, hname]
        using hall
    · obtain ⟨line, hline, hnonneg, hmax⟩ := hlines i hi
      refine ⟨type, id, line, rfl, hid, hline, hnonneg, hmax, ?_⟩
      exact (hinstances i hi).2.2.imp (fun hend => hend) (fun hend => .inr (.inl (hend.trans hline)))

section
variable {file : String}

theorem oyente_check_accepted_iff (contract : String) (report : oyente.OyenteReport) (count : Nat)
    {check : String × String} (hcheck : check ∈ oyente.vulnerabilities_json) :
    (∀ v ∈ report.vulnerability file contract count check, (of_oyente v).Accepted) ↔
      ∀ f ∈ report.check_findings contract check, file.length ≤ 1000 ∧ f.contract.length ≤ 1000 ∧
        ∀ warning ∈ f.warnings, LineFits (oyente.line_of warning) := by
  have hknown : ∀ check ∈ oyente.vulnerabilities_json, check.2 ∈ vulnerability_types_json := by decide
  rw [oyente.OyenteReport.vulnerability, oyente.OyenteReport.check_findings, List.forall_mem_map]
  cases hshared : report.shared check.1 with
  | nil => simp
  | cons warnings shared =>
    rw [List.forall_mem_singleton, of_oyente, accepted_iff (hknown check hcheck)]
    · simp only [List.forall_mem_flatMap, List.forall_mem_map, oyente.instance_at, Option.some.injEq,
        exists_eq_left', Option.all_some, string_valid, decide_eq_true_eq]
      rw [forall_mem_zipIdx_fst (p := fun unit => ∀ warning ∈ unit, LineFits (oyente.line_of warning))]
      constructor
      · rintro ⟨hfile, hcontract, hlines⟩ unit hunit
        exact ⟨hfile, hcontract, hlines unit hunit⟩
      · intro hall
        obtain ⟨hfile, hcontract, _⟩ := hall warnings (by simp)
        exact ⟨hfile, hcontract, fun unit hunit => (hall unit hunit).2.2⟩
    · intro i hi
      obtain ⟨j, hj, rfl⟩ := List.mem_map.mp hi
      obtain ⟨p, _, hwarning⟩ := List.mem_flatMap.mp hj
      obtain ⟨warning, _, rfl⟩ := List.mem_map.mp hwarning
      exact ⟨rfl, minimum_natCast _, .inr rfl⟩

theorem oyente_accepted_iff {warnings : List String} {reports : List (String × oyente.OyenteReport)}
    {r : oyente.FinalReport} (hmain : oyente.main file warnings reports = .ok r) :
    (∀ v ∈ r.potential_vulnerabilities.getD [], (of_oyente v).Accepted) ↔
      ∀ f ∈ oyente.findings reports, file.length ≤ 1000 ∧ f.contract.length ≤ 1000 ∧
        ∀ warning ∈ f.warnings, LineFits (oyente.line_of warning) := by
  obtain ⟨_, rfl⟩ := (oyente.main_eq_ok_iff file warnings reports r).mp hmain
  rw [getD_nonempty, List.forall_mem_flatMap, oyente.findings, List.forall_mem_flatMap]
  apply emitted_forall_iff
  intro entry _ count
  rw [List.forall_mem_singleton, oyente.OyenteReport.findings, List.forall_mem_flatMap]
  apply emitted_forall_iff
  intro check hcheck count
  exact oyente_check_accepted_iff (oyente.contract_of entry.1) entry.2 count hcheck

theorem coverage_valid_iff (coverage : oyente.Coverage) :
    coverage_valid coverage = true ↔ percentage_valid coverage.percentage = true ∧
      coverage.file.length ≤ 1000 ∧ coverage.contract.length ≤ 1000 := by
  rw [coverage_valid, Bool.and_eq_true, Bool.and_eq_true, decide_eq_true_eq, decide_eq_true_eq, and_assoc]

theorem oyente_coverages_valid_iff {warnings : List String} {reports : List (String × oyente.OyenteReport)}
    {r : oyente.FinalReport} (hmain : oyente.main file warnings reports = .ok r) :
    (∀ coverage ∈ r.coverages.getD [], coverage_valid coverage = true) ↔
      ∀ entry ∈ reports, file.length ≤ 1000 ∧ (oyente.contract_of entry.1).length ≤ 1000 ∧
        percentage_valid entry.2.coverage = true := by
  obtain ⟨_, rfl⟩ := (oyente.main_eq_ok_iff file warnings reports r).mp hmain
  rw [getD_nonempty, oyente.converted_coverages, List.forall_mem_map]
  exact forall₂_congr (fun entry _ => (coverage_valid_iff _).trans and_rotate)

/-- The contracts of the findings are those of the coverages. -/
theorem contract_of_finding {reports : List (String × oyente.OyenteReport)} {f : oyente.Finding}
    (hf : f ∈ oyente.findings reports) : ∃ entry ∈ reports, f.contract = oyente.contract_of entry.1 := by
  obtain ⟨entry, hentry, hf⟩ := List.mem_flatMap.mp hf
  obtain ⟨check, _, hf⟩ := List.mem_flatMap.mp hf
  obtain ⟨warnings, _, rfl⟩ := List.mem_map.mp hf
  exact ⟨entry, hentry, rfl⟩

theorem as_int_getD {lineno : Option Json} {line : Int} :
    as_int (lineno.getD .null) = some line ↔ lineno = some (.int line) := by
  cases lineno with
  | none => simp [as_int]
  | some value => cases value <;> simp [as_int]

theorem mythril_accepted_iff {issues : List mythril.Issue} {r : mythril.FinalReport}
    (hmain : mythril.main file { success := true, issues := issues.map Issue.dictionary } = .ok r) :
    (∀ v ∈ r.potential_vulnerabilities.getD [], (of_mythril v).Accepted) ↔
      ∀ issue ∈ issues, issue.Convertible file ∧
        ∀ n, issue.dictionary.lookup "lineno" = some (.int n) → LineFits n := by
  simp only [mythril.main, if_true, bind_eq_ok_iff, pure_eq_ok_iff, convert_eq_ok_iff] at hmain
  obtain ⟨_, ⟨hfree, rfl⟩, rfl⟩ := hmain
  rw [getD_nonempty, List.forall_mem_map]
  have hissue : ∀ issue ∈ issues, ∀ ref_id, (of_mythril (issue.vulnerability file ref_id)).Accepted ↔
      issue.Convertible file ∧ ∀ n, issue.dictionary.lookup "lineno" = some (.int n) → LineFits n := by
    intro issue hmem ref_id
    dsimp only [of_mythril, Issue.vulnerability]
    rw [accepted_iff (qsp_type_known issue.title)]
    · simp only [as_str, Option.some.injEq, exists_eq_left', contract_valid_iff, List.map_cons, List.map_nil,
        List.forall_mem_singleton, as_int_getD]
      constructor
      · rintro ⟨hfile, hcontract, line, hline, hfits⟩
        exact ⟨⟨(hfree issue hmem).1, (hfree issue hmem).2, hfile, ⟨line, hline, hfits.1⟩, hcontract⟩,
          fun n hn => by cases hline.symm.trans hn; exact hfits⟩
      · rintro ⟨hconvertible, hlines⟩
        obtain ⟨line, hline, _⟩ := hconvertible.has_line
        exact ⟨hconvertible.short_file, hconvertible.short_contract, line, hline, hlines line hline⟩
    · intro i hi
      obtain ⟨j, _, rfl⟩ := List.mem_map.mp hi
      exact ⟨rfl, minimum_natCast _, .inl rfl⟩
  rw [← forall_mem_zipIdx_fst (l := issues) (k := 0)]
  exact forall₂_congr (fun p hp => hissue p.1 (List.fst_mem_of_mem_zipIdx hp) p.2)

/-- `convert_check` leaves out the issues without an instance. -/
theorem securify_instances_ne_nil (report_dict : securify.Log) :
    ∀ v ∈ (report_dict.foldl (securify.convert_contract securify.vulnerabilities_json)
        { issue_reference := 0, potential_vulnerabilities := [] }).potential_vulnerabilities,
      v.instances ≠ [] := by
  refine List.foldlRecOn (motive := fun (progress : securify.Progress) =>
    ∀ v ∈ progress.potential_vulnerabilities, v.instances ≠ []) _ _ (by simp)
    (fun progress hprogress entry _ => ?_)
  refine List.foldlRecOn (motive := fun (progress : securify.Progress) =>
    ∀ v ∈ progress.potential_vulnerabilities, v.instances ≠ []) _ _ hprogress
    (fun progress hprogress check _ => ?_)
  intro v hv
  rcases List.mem_append.mp hv with hv | hv
  · exact hprogress v hv
  · obtain ⟨issue, hissue, rfl⟩ := List.mem_map.mp hv
    have hlength := (List.mem_filter.mp hissue).2
    simpa [securify.Issue.as_vulnerability, List.length_pos_iff] using hlength

theorem securify_accepted_iff (report_dict : securify.Log) :
    (∀ v ∈ (securify.main report_dict).potential_vulnerabilities.getD [], (of_securify v).Accepted) ↔
      ∀ f ∈ securify.findings report_dict, (securify.file_name f.contract).length ≤ 1000 ∧
        (securify.contract_name f.contract).length ≤ 1000 ∧ LineFits (f.line + 1) := by
  obtain ⟨hnumbered, hknown⟩ := securify.main_converted report_dict
  have hne := securify_instances_ne_nil report_dict
  rw [securify.main, getD_nonempty]
  have hvulnerability : ∀ v : securify.Vulnerability, v.type ∈ vulnerability_types_json → v.instances ≠ [] →
      ((of_securify v).Accepted ↔ ∀ entry ∈ v.entries, entry.file.length ≤ 1000 ∧
        (entry.contract.map Json.str).all (string_valid 1000) = true ∧ LineFits entry.start_line) := by
    intro v htype hinstances
    rw [of_securify, accepted_iff htype]
    · simp only [securify.Vulnerability.entries, List.forall_mem_map, Option.some.injEq, exists_eq_left']
      obtain ⟨i, hi⟩ := List.exists_mem_of_ne_nil _ hinstances
      exact ⟨fun h j hj => ⟨h.1, h.2.1, h.2.2 j hj⟩,
        fun h => ⟨(h i hi).1, (h i hi).2.1, fun j hj => (h j hj).2.2⟩⟩
    · intro i hi
      obtain ⟨j, _, rfl⟩ := List.mem_map.mp hi
      exact ⟨rfl, minimum_natCast _, .inl rfl⟩
  rw [forall₂_congr (fun v hv => hvulnerability v (hknown v hv) (hne v hv)), ← List.forall_mem_flatMap]
  simp only [hnumbered.emitted.mem_iff, List.forall_mem_map, securify.Finding.entry, Option.map_some,
    Option.all_some, string_valid, decide_eq_true_eq]
  exact forall_mem_zipIdx_fst (p := fun f : securify.Finding =>
    (securify.file_name f.contract).length ≤ 1000 ∧ (securify.contract_name f.contract).length ≤ 1000 ∧
      LineFits (f.line + 1))

end

section
variable {e : Execution}

theorem getD_map {α β : Type} (f : α → β) (l : Option (List α)) :
    (l.map (List.map f)).getD [] = (l.getD []).map f := by
  cases l <;> rfl

/-- The success report is accepted exactly when the results keep within bounds. -/
theorem mk_success_report_accepted_iff {report : SuccessReport}
    (hreport : e.mk_success_report = .ok report) : (Document.success report).Accepted ↔ e.Within := by
  have haccepted : (Document.success report).Accepted ↔
      (∀ coverage ∈ report.coverages.getD [], coverage_valid coverage = true) ∧
        ∀ v ∈ report.potential_vulnerabilities.getD [], v.Accepted :=
    ⟨fun h => ⟨h.coverages, h.vulnerabilities⟩, fun h => ⟨h.1, h.2⟩⟩
  rw [haccepted]
  unfold Execution.mk_success_report at hreport
  unfold Execution.Within
  cases hresults : e.results with
  | oyente errors warnings reports =>
    simp only [hresults, bind_eq_ok_iff, pure_eq_ok_iff] at hreport
    obtain ⟨loaded, hloaded, r, hmain, rfl⟩ := hreport
    simp only [getD_map, List.forall_mem_map, oyente_accepted_iff hmain, oyente_coverages_valid_iff hmain,
      hloaded, Except.ok.injEq, forall_eq']
    refine and_congr_right (fun hentries => forall₂_congr (fun f hf => ?_))
    obtain ⟨entry, hentry, hcontract⟩ := contract_of_finding hf
    obtain ⟨hfile, hshort, _⟩ := hentries entry hentry
    exact ⟨fun h => h.2.2, fun h => ⟨hfile, hcontract ▸ hshort, h⟩⟩
  | mythril marked report_dict =>
    simp only [hresults, bind_eq_ok_iff, pure_eq_ok_iff] at hreport
    obtain ⟨⟨success, issues⟩, rfl, r, hmain, rfl⟩ := hreport
    cases success with
    | true =>
      simp only [getD_map, List.forall_mem_map, mythril_accepted_iff hmain, Except.ok.injEq, Prod.mk.injEq,
        true_and, forall_eq', Option.getD_none, List.not_mem_nil, false_implies, implies_true]
    | false =>
      simp only [mythril.main, Bool.false_eq_true, if_false, bind_eq_ok_iff, pure_eq_ok_iff] at hmain
      obtain ⟨_, rfl, rfl⟩ := hmain
      simp
  | securify exits_ok report_dict =>
    simp only [hresults, bind_eq_ok_iff, pure_eq_ok_iff] at hreport
    obtain ⟨log, rfl, rfl⟩ := hreport
    simp only [getD_map, List.forall_mem_map, securify_accepted_iff, Except.ok.injEq, forall_eq',
      Option.getD_none, List.not_mem_nil, false_implies, implies_true, true_and]

/-- A script either fails with an error report, or it ends with status 0 and has
    printed the success report. -/
theorem run_cases (e : Execution) :
    (∃ report, e.run = (.error report, 1)) ∨
      ∃ report, e.run = (.success report, 0) ∧ e.mk_success_report = .ok report := by
  have hfinish : (∃ report, e.finish = (.error report, 1)) ∨
      ∃ report, e.finish = (.success report, 0) ∧ e.mk_success_report = .ok report := by
    unfold Execution.finish
    cases e.mk_success_report with
    | ok report => exact .inr ⟨_, rfl, rfl⟩
    | error _ => exact .inl ⟨_, rfl⟩
  unfold Execution.run
  split_ifs with hsetup
  · cases e.results with
    | oyente errors warnings reports =>
      dsimp only
      split_ifs
      · exact .inl ⟨_, rfl⟩
      · exact hfinish
    | mythril marked report_dict =>
      dsimp only
      split_ifs
      · exact hfinish
      · exact .inl ⟨_, rfl⟩
    | securify exits_ok report_dict =>
      dsimp only
      split_ifs
      · exact hfinish
      · exact .inl ⟨_, rfl⟩
  · exact .inl ⟨_, rfl⟩

end

end qsp.wrappers
