import QspNode.Report
import QspNode.ReportProcessing.Hex

open qsp.report qsp.report_processing

namespace qsp.schema

/-- The checks of `analyzer_integration.json` on one field; an absent field
    passes all of them but `required`. -/
def required {α : Type} (field : Option α) : Bool := field.isSome

def minimum (bound : Int) (field : Option Int) : Bool := field.all (fun n => bound ≤ n)

def maximum (bound : Int) (field : Option Int) : Bool := field.all (fun n => n ≤ bound)

def maxLength (bound : Nat) (field : Option String) : Bool := field.all (fun s => s.length ≤ bound)

def enum (values : List String) (field : Option String) : Bool := field.all (fun s => s ∈ values)

def items {α : Type} (check : α → Bool) (field : Option (List α)) : Bool :=
  field.all (fun l => l.all check)

/-- The pattern `^[A-Fa-f0-9]{<n>}$`, whose end may be followed by one line
    break. -/
def hex_pattern (n : Nat) (cs : List Char) : Bool :=
  let body := if cs.getLast? = some '\n' then cs.dropLast else cs
  body.length = n && body.all is_hex_digit

def hash_pattern (s : String) : Bool := hex_pattern 64 s.toList

/-- The pattern `^(0x)?[A-Fa-f0-9]{40}$`. -/
def address_pattern (s : String) : Bool :=
  hex_pattern 40 s.toList ||
    (['0', 'x'].isPrefixOf s.toList && hex_pattern 40 (s.toList.drop 2))

def instance_valid (i : Instance) : Bool :=
  required i.ref_id && required i.start_line &&
    minimum 0 i.ref_id && minimum 0 i.start_line && minimum 0 i.end_line

def vulnerability_valid (v : Vulnerability) : Bool :=
  required v.type && required v.file && required v.instances &&
    maxLength 1000 v.type && maxLength 1000 v.file && items instance_valid v.instances

def analyzer_valid (analyzer : AnalyzerMetadata) : Bool :=
  required analyzer.name && maxLength 50 analyzer.name && maxLength 64 analyzer.version

def analyzer_report_valid (a : AnalyzerReport) : Bool :=
  required a.analyzer && required a.status &&
    minimum 1 a.start_time && minimum 1 a.end_time && a.analyzer.all analyzer_valid &&
    enum ["success", "error", "timeout"] a.status &&
    items vulnerability_valid a.potential_vulnerabilities

def report_valid (r : Report) : Bool :=
  required r.status && minimum 0 r.audit_state && maximum 6 r.audit_state &&
    r.contract_hash.all hash_pattern && r.requestor.all address_pattern &&
    r.auditor.all address_pattern && enum ["success", "error"] r.status &&
    items analyzer_report_valid r.analyzers_reports

/-- `validate_json`. -/
def validate_json (report : Report) : Except PyException Report :=
  if report_valid report then .ok report
  else .error (.Exception "JSON could not be validated")

end qsp.schema
