import QspNode.Config.Value
import QspNode.Lib.Loops
import QspNode.Lib.PythonStr
import QspNode.Lib.PythonInt

open lib.loops lib.positional lib.python qsp.config

namespace qsp.oyente

/-- The report of Oyente for one contract: the warnings of each check, those of
    `money_concurrency` in flows, and what `float` makes of the coverage. -/
structure OyenteReport where
  vulnerabilities : List (String × List String)
  money_concurrency : Option (List (List String))
  evm_code_coverage : Except PyException Number

/-- The names in `resources/vulnerabilities.json` with their types. -/
def vulnerabilities_json : List (String × String) :=
  [("integer_underflow", "integer_underflow"),
    ("integer_overflow", "integer_overflow"),
    ("callstack", "callstack"),
    ("money_concurrency", "transaction_order_dependency"),
    ("time_dependency", "time_dependency"),
    ("reentrancy", "reentrancy"),
    ("parity_multisig_bug_2", "parity_multisig_bug"),
    ("assertion_failure", "exception_state")]

structure Instance where
  ref_id : Nat
  start_line : Int
  end_line : Int
  deriving DecidableEq

structure Vulnerability where
  type : String
  file : String
  contract : String
  instances : List Instance
  deriving DecidableEq

structure Coverage where
  percentage : Number
  file : String
  contract : String
  deriving DecidableEq

structure FinalReport where
  status : String
  warnings : Option (List String)
  coverages : Option (List Coverage)
  potential_vulnerabilities : Option (List Vulnerability)
  deriving DecidableEq

/-- The group `line` of the first match of `(?P<line>[0-9]+):[0-9]+$`. The end may
    be followed by one line break. -/
def search (context : List Char) : Option (List Char) :=
  let body := if context.getLast? = some '\n' then context.dropLast else context
  let column := body.rtakeWhile Char.isDigit
  let rest := body.rdropWhile Char.isDigit
  let line := rest.dropLast.rtakeWhile Char.isDigit
  if rest.getLast? = some ':' ∧ column ≠ [] ∧ line ≠ [] then some line else none

/-- What a warning says before its text, up to one character. -/
def context (vulnerability_instance : String) : List Char :=
  let delim_left := find vulnerability_instance " Warning: " - 1
  (slice vulnerability_instance 0 delim_left).toList

/-- `get_vulnerability_line`. -/
def get_vulnerability_line (vulnerability_instance : String) : Except PyException Int :=
  match search (context vulnerability_instance) with
  | none => .error (.AttributeError "'NoneType' object has no attribute 'group'")
  | some line =>
    match int 10 line with
    | none => .error (.ValueError "invalid literal for int()")
    | some line => .ok line

def instance_at (vulnerability_count : Nat) (line : Int) : Instance :=
  { ref_id := vulnerability_count, start_line := line, end_line := line }

/-- The loops over the flows of `money_concurrency`. -/
def flow_instances (vulnerability_count : Nat) (flows : List (List String)) :
    Except PyException (List Instance) :=
  collect (fun flow => collect (fun warning => do
      let line ← get_vulnerability_line warning
      return [instance_at vulnerability_count line]) flow) flows

/-- The loop over the warnings of any other check. -/
def check_instances (vulnerability_count : Nat) (instances : List String) :
    Except PyException (List Instance × Nat) :=
  collectFrom (fun count warning => do
      let line ← get_vulnerability_line warning
      return ([instance_at count line], count + 1)) vulnerability_count instances

/-- One round of the loop over the checks. -/
def convert_check (solidity_file contract_name : String) (report : OyenteReport)
    (vulnerability_count : Nat) (check : String × String) :
    Except PyException (List Vulnerability × Nat) := do
  let (vulnerability, type) := check
  let vulnerability_report (instances : List Instance) : Vulnerability :=
    { type, file := solidity_file, contract := contract_name, instances }
  if vulnerability = "money_concurrency" then
    let flows ← subscript vulnerability report.money_concurrency
    if flows.length = 0 then return ([], vulnerability_count)
    let instances_found ← flow_instances vulnerability_count flows
    return ([vulnerability_report instances_found], vulnerability_count + 1)
  else
    let instances ← subscript vulnerability (report.vulnerabilities.lookup vulnerability)
    if instances.length = 0 then return ([], vulnerability_count)
    let (instances_found, count) ← check_instances vulnerability_count instances
    return ([vulnerability_report instances_found], count)

/-- `get_potential_vulnerabilities`. -/
def get_potential_vulnerabilities (vulnerability_mapping : List (String × String))
    (solidity_file contract_name : String) (report : OyenteReport) (vulnerability_count : Nat) :
    Except PyException (List Vulnerability × Number × Nat) := do
  let (reports, count) ← collectFrom (convert_check solidity_file contract_name report)
    vulnerability_count vulnerability_mapping
  return (reports, ← report.evm_code_coverage, count)

/-- `report.replace(".json", "").split(":")[1]`, for the name of a report file. -/
def contract_name (report : String) : Except PyException String :=
  match (replace report ".json" "").toList.splitOn ':' with
  | _ :: name :: _ => .ok (String.ofList name)
  | _ => .error (.IndexError "list index out of range")

/-- One round of the loop over the report files. -/
def convert_report (original_file_name : String) (count : Nat) (entry : String × OyenteReport) :
    Except PyException (List (List Vulnerability × Coverage) × Nat) := do
  let (name, report) := entry
  let contract ← contract_name name
  let (vulnerabilities, coverage, new_count) ←
    get_potential_vulnerabilities vulnerabilities_json original_file_name contract report count
  return ([(vulnerabilities, { percentage := coverage, file := original_file_name, contract })], new_count)

/-- `main`, from the report files to the report that it prints. -/
def main (original_file_name : String) (warnings : List String)
    (reports : List (String × OyenteReport)) : Except PyException FinalReport := do
  -- The parser of the arguments asks for at least one report, and ends the script.
  if reports.length = 0 then
    throw (.Exception "error: the following arguments are required: report")
  let (converted, _) ← collectFrom (convert_report original_file_name) 0 reports
  let potential_vulnerabilities := converted.flatMap Prod.fst
  let coverages := converted.map Prod.snd
  return {
    status := "success"
    warnings := if warnings.length > 0 then some warnings else none
    coverages := if coverages.length > 0 then some coverages else none
    potential_vulnerabilities :=
      if potential_vulnerabilities.length > 0 then some potential_vulnerabilities else none }

/-- A text that ends in a line number and a column. -/
structure EndsIn (context line : List Char) (column tail : List Char) : Prop where
  split : ∃ front, context = front ++ line ++ [':'] ++ column ++ tail ∧
    ∀ c, front.getLast? = some c → c.isDigit = false
  line : line ≠ [] ∧ ∀ c ∈ line, c.isDigit = true
  column : column ≠ [] ∧ ∀ c ∈ column, c.isDigit = true
  tail : tail = [] ∨ tail = ['\n']

/-- The number that a text of digits spells. -/
def spelled (line : List Char) : Int := (value 10 (line.map (fun c => c.toNat - '0'.toNat)) : Nat)

/-- The line of a warning that has one. -/
def line_of (warning : String) : Int := (get_vulnerability_line warning).toOption.getD 0

/-- A warning gives its position. -/
def Located (warning : String) : Prop := ∃ line column tail, EndsIn (context warning) line column tail

/-- Warnings of one contract and check that share a reference. -/
structure Finding where
  type : String
  contract : String
  warnings : List String

/-- All flows of `money_concurrency` share a reference, and any other warning has
    one of its own. -/
def OyenteReport.shared (report : OyenteReport) (vulnerability : String) : List (List String) :=
  if vulnerability = "money_concurrency" then
    match report.money_concurrency.getD [] with
    | [] => []
    | flows => [flows.flatten]
  else ((report.vulnerabilities.lookup vulnerability).getD []).map ([·])

def OyenteReport.check_findings (report : OyenteReport) (contract : String) (check : String × String) :
    List Finding :=
  (report.shared check.1).map (fun warnings => { type := check.2, contract, warnings })

def OyenteReport.findings (report : OyenteReport) (contract : String) : List Finding :=
  vulnerabilities_json.flatMap (report.check_findings contract)

/-- A report that lists a check, with warnings that all give their positions. -/
structure OyenteReport.Lists (report : OyenteReport) (vulnerability : String) : Prop where
  present : if vulnerability = "money_concurrency" then report.money_concurrency.isSome = true
    else (report.vulnerabilities.lookup vulnerability).isSome = true
  located : ∀ warnings ∈ report.shared vulnerability, ∀ warning ∈ warnings, Located warning

def contract_of (report : String) : String := (contract_name report).toOption.getD ""

def OyenteReport.coverage (report : OyenteReport) : Number :=
  report.evm_code_coverage.toOption.getD (Number.of 0)

/-- A report file that can be converted: its name has a contract, its coverage is
    a number, and it lists all checks. -/
structure Convertible (entry : String × OyenteReport) : Prop where
  named : ':' ∈ (replace entry.1 ".json" "").toList
  covered : ∃ coverage, entry.2.evm_code_coverage = .ok coverage
  lists : ∀ check ∈ vulnerabilities_json, entry.2.Lists check.1

/-- All findings of the report files, by contract and check. -/
def findings (reports : List (String × OyenteReport)) : List Finding :=
  reports.flatMap (fun entry => entry.2.findings (contract_of entry.1))

/-- An instance of the report, with the vulnerability that it is listed under. -/
structure Entry where
  type : String
  file : String
  contract : String
  ref_id : Nat
  start_line : Int
  end_line : Int
  deriving DecidableEq

def Vulnerability.entries (v : Vulnerability) : List Entry :=
  v.instances.map (fun i =>
    { type := v.type
      file := v.file
      contract := v.contract
      ref_id := i.ref_id
      start_line := i.start_line
      end_line := i.end_line })

/-- How a finding is to be reported. -/
def Finding.entries (file : String) (f : Finding × Nat) : List Entry :=
  f.1.warnings.map (fun warning =>
    { type := f.1.type
      file
      contract := f.1.contract
      ref_id := f.2
      start_line := line_of warning
      end_line := line_of warning })

section
variable {vulnerability_count : Nat} {warning : String} {line : Int}

theorem search_of_endsIn {cs line column tail : List Char} (hends : EndsIn cs line column tail) :
    search cs = some line := by
  obtain ⟨⟨front, rfl, hfront⟩, ⟨hline, hlines⟩, ⟨hcolumn, hcolumns⟩, htail⟩ := hends
  have hbody : (if (front ++ line ++ [':'] ++ column ++ tail).getLast? = some '\n' then
      (front ++ line ++ [':'] ++ column ++ tail).dropLast
      else front ++ line ++ [':'] ++ column ++ tail) = front ++ line ++ [':'] ++ column := by
    rcases htail with rfl | rfl
    · rw [List.append_nil, if_neg]
      intro hlast
      rw [List.getLast?_append_of_ne_nil _ hcolumn] at hlast
      exact absurd (hcolumns _ (List.mem_of_getLast? hlast)) (by decide)
    · rw [if_pos List.getLast?_concat, List.dropLast_concat]
  obtain ⟨hdrop, htake⟩ := @rsplit_eq _ (front ++ line ++ [':']) _ hcolumns
    (fun c hc => by rw [List.getLast?_concat, Option.some.injEq] at hc; subst hc; decide)
  obtain ⟨_, hdigits⟩ := rsplit_eq hlines hfront
  simp only [search, hbody, hdrop, htake, List.getLast?_concat, List.dropLast_concat, hdigits]
  exact if_pos ⟨trivial, hcolumn, hline⟩

theorem endsIn_of_search {cs line : List Char} (hsearch : search cs = some line) :
    ∃ column tail, EndsIn cs line column tail := by
  obtain ⟨body, tail, rfl, htail, hbody⟩ : ∃ body tail, cs = body ++ tail ∧ (tail = [] ∨ tail = ['\n']) ∧
      (if cs.getLast? = some '\n' then cs.dropLast else cs) = body := by
    split
    · next hlast => exact ⟨cs.dropLast, ['\n'], (List.dropLast_append_getLast? _ hlast).symm, Or.inr rfl, rfl⟩
    · exact ⟨cs, [], (List.append_nil cs).symm, Or.inl rfl, rfl⟩
  simp only [search, hbody] at hsearch
  split at hsearch
  · next hfound =>
    obtain ⟨hcolon, hcolumn, hline⟩ := hfound
    obtain rfl := Option.some.inj hsearch
    refine ⟨body.rtakeWhile Char.isDigit, tail,
      ⟨(body.rdropWhile Char.isDigit).dropLast.rdropWhile Char.isDigit, ?_, ?_⟩,
      ⟨hline, fun c => List.mem_rtakeWhile_imp⟩, ⟨hcolumn, fun c => List.mem_rtakeWhile_imp⟩, htail⟩
    · rw [List.rdropWhile_append_rtakeWhile, List.dropLast_append_getLast? _ hcolon,
        List.rdropWhile_append_rtakeWhile]
    · intro c hc
      have hne : (body.rdropWhile Char.isDigit).dropLast.rdropWhile Char.isDigit ≠ [] := by
        intro hnil
        rw [hnil] at hc
        cases hc
      have hlast := List.rdropWhile_last_not _ _ hne
      rw [List.getLast?_eq_some_getLast hne, Option.some.injEq] at hc
      rw [hc] at hlast
      simpa using hlast
  · cases hsearch

theorem int_of_digit_text {line : List Char} (hne : line ≠ []) (hdigits : ∀ c ∈ line, c.isDigit = true) :
    int 10 line = some (spelled line) := by
  apply int_of_digits _ hne
  rw [List.forall₂_map_right_iff, List.forall₂_same]
  intro c hc
  exact digit_of_isDigit (hdigits c hc) (by decide)

theorem get_vulnerability_line_of_endsIn {text column tail : List Char}
    (hends : EndsIn (context warning) text column tail) :
    get_vulnerability_line warning = .ok (spelled text) := by
  have hsearch := search_of_endsIn hends
  have hint := int_of_digit_text hends.line.1 hends.line.2
  unfold get_vulnerability_line
  rw [hsearch]
  dsimp only
  rw [hint]

theorem located_iff : Located warning ↔ ∃ line, get_vulnerability_line warning = .ok line := by
  constructor
  · rintro ⟨text, column, tail, hends⟩
    exact ⟨_, get_vulnerability_line_of_endsIn hends⟩
  · rintro ⟨line, hline⟩
    cases hsearch : search (context warning) with
    | none =>
      unfold get_vulnerability_line at hline
      rw [hsearch] at hline
      cases hline
    | some text => exact ⟨text, endsIn_of_search hsearch⟩

theorem get_vulnerability_line_eq_ok_iff :
    get_vulnerability_line warning = .ok line ↔ Located warning ∧ line = line_of warning := by
  rw [located_iff]
  constructor
  · intro hline
    exact ⟨⟨line, hline⟩, by rw [line_of, hline]; rfl⟩
  · rintro ⟨⟨line', hline⟩, rfl⟩
    rw [line_of, hline]
    rfl

theorem warning_round_iff {α : Type} (make : Int → α) (warning : String) (r : α) :
    (do let line ← get_vulnerability_line warning; return make line) = Except.ok r ↔
      Located warning ∧ r = make (line_of warning) := by
  simp only [bind_eq_ok_iff, pure_eq_ok_iff, get_vulnerability_line_eq_ok_iff]
  constructor
  · rintro ⟨_, ⟨hlocated, rfl⟩, rfl⟩
    exact ⟨hlocated, rfl⟩
  · rintro ⟨hlocated, rfl⟩
    exact ⟨_, ⟨hlocated, rfl⟩, rfl⟩

theorem flow_instances_eq_ok_iff (flows : List (List String)) (instances : List Instance) :
    flow_instances vulnerability_count flows = .ok instances ↔
      (∀ warning ∈ flows.flatten, Located warning) ∧
        instances = flows.flatten.map (fun warning => instance_at vulnerability_count (line_of warning)) := by
  have hflow (flow : List String) (instances : List Instance) :=
    collect_except_eq_ok_iff
      (warning_round_iff (fun line => [instance_at vulnerability_count line])) flow instances
  have hflatten : flows.flatten.map (fun warning => instance_at vulnerability_count (line_of warning)) =
      flows.flatMap (List.flatMap (fun warning => [instance_at vulnerability_count (line_of warning)])) := by
    rw [List.map_flatten, List.flatMap_def]
    simp only [List.map_eq_flatMap]
  rw [flow_instances, collect_except_eq_ok_iff hflow, hflatten]
  simp only [List.mem_flatten]
  constructor
  · rintro ⟨hall, rfl⟩
    exact ⟨fun warning ⟨flow, hflow, hwarning⟩ => hall flow hflow warning hwarning, rfl⟩
  · rintro ⟨hall, rfl⟩
    exact ⟨fun flow hflow warning hwarning => hall warning ⟨flow, hflow, hwarning⟩, rfl⟩

theorem emitted_instances (warnings : List String) :
    emitted (fun count warning => [instance_at count (line_of warning)]) (fun count _ => count + 1)
        vulnerability_count warnings =
      (warnings.zipIdx vulnerability_count).map (fun p => instance_at p.2 (line_of p.1)) := by
  induction warnings generalizing vulnerability_count with
  | nil => rfl
  | cons warning warnings ih => rw [emitted, ih, List.zipIdx_cons, List.map_cons]; rfl

theorem check_instances_eq_ok_iff (warnings : List String) (r : List Instance × Nat) :
    check_instances vulnerability_count warnings = .ok r ↔
      (∀ warning ∈ warnings, Located warning) ∧
        r = ((warnings.zipIdx vulnerability_count).map (fun p => instance_at p.2 (line_of p.1)),
          vulnerability_count + warnings.length) := by
  have hround (count : Nat) (warning : String) (r : List Instance × Nat) :=
    warning_round_iff (fun line => ([instance_at count line], count + 1)) warning r
  have hcount := @foldl_count _ _ (fun count (_ : String) => count + 1) (fun warning => [warning])
    (fun _ _ => rfl) vulnerability_count warnings
  have hcollect := @collectFrom_eq_ok_iff _ _ _ _ _ _
    (fun count warning => [instance_at count (line_of warning)]) (fun count _ => count + 1) hround
    vulnerability_count warnings r
  rw [check_instances, hcollect, emitted_instances, hcount, List.flatMap_singleton']

/-- What a round of the loop over the checks reports. -/
def OyenteReport.vulnerability (report : OyenteReport) (file contract : String)
    (vulnerability_count : Nat) (check : String × String) : List Vulnerability :=
  match report.shared check.1 with
  | [] => []
  | shared =>
    [{ type := check.2
       file
       contract
       instances := (shared.zipIdx vulnerability_count).flatMap (fun p =>
         p.1.map (fun warning => instance_at p.2 (line_of warning))) }]

section
variable {report : OyenteReport}

theorem shared_flows {flows : List (List String)} (hflows : report.money_concurrency = some flows) :
    report.shared "money_concurrency" = if flows.length = 0 then [] else [flows.flatten] := by
  rw [OyenteReport.shared, if_pos rfl, hflows]
  cases flows with
  | nil => rfl
  | cons flow flows => rfl

theorem lists_flows_iff : report.Lists "money_concurrency" ↔
    ∃ flows, report.money_concurrency = some flows ∧ ∀ warning ∈ flows.flatten, Located warning := by
  constructor
  · rintro ⟨hpresent, hlocated⟩
    obtain ⟨flows, hflows⟩ := Option.isSome_iff_exists.mp hpresent
    refine ⟨flows, hflows, ?_⟩
    rw [shared_flows hflows] at hlocated
    cases flows with
    | nil => simp
    | cons flow flows => simpa using hlocated
  · rintro ⟨flows, hflows, hlocated⟩
    refine ⟨by simp [hflows], ?_⟩
    rw [shared_flows hflows]
    cases flows with
    | nil => simp
    | cons flow flows => simpa using hlocated

variable {vulnerability : String} (hother : vulnerability ≠ "money_concurrency")
include hother

theorem shared_warnings {warnings : List String}
    (hwarnings : report.vulnerabilities.lookup vulnerability = some warnings) :
    report.shared vulnerability = warnings.map ([·]) := by
  rw [OyenteReport.shared, if_neg hother, hwarnings, Option.getD_some]

theorem lists_warnings_iff : report.Lists vulnerability ↔
    ∃ warnings, report.vulnerabilities.lookup vulnerability = some warnings ∧
      ∀ warning ∈ warnings, Located warning := by
  constructor
  · rintro ⟨hpresent, hlocated⟩
    rw [if_neg hother] at hpresent
    obtain ⟨warnings, hwarnings⟩ := Option.isSome_iff_exists.mp hpresent
    refine ⟨warnings, hwarnings, ?_⟩
    rw [shared_warnings hother hwarnings] at hlocated
    simpa using hlocated
  · rintro ⟨warnings, hwarnings, hlocated⟩
    refine ⟨by rw [if_neg hother, hwarnings, Option.isSome_some], ?_⟩
    rw [shared_warnings hother hwarnings]
    simpa using hlocated

end

theorem convert_check_eq_ok_iff (file contract : String) (report : OyenteReport)
    (vulnerability_count : Nat) (check : String × String) (r : List Vulnerability × Nat) :
    convert_check file contract report vulnerability_count check = .ok r ↔
      report.Lists check.1 ∧ r = (report.vulnerability file contract vulnerability_count check,
        vulnerability_count + (report.shared check.1).length) := by
  obtain ⟨vulnerability, type⟩ := check
  rw [convert_check, OyenteReport.vulnerability]
  by_cases hmoney : vulnerability = "money_concurrency"
  · simp only [hmoney, if_true, bind_eq_ok_iff, subscript_eq_ok_iff, lists_flows_iff]
    cases hflows : report.money_concurrency with
    | none => simp
    | some flows =>
      rw [shared_flows hflows]
      cases flows with
      | nil => simp [pure, Except.pure, eq_comm]
      | cons flow flows =>
        simp only [Option.some.injEq, exists_eq_left', List.length_cons, Nat.succ_ne_zero, if_false,
          bind_eq_ok_iff, flow_instances_eq_ok_iff, pure_eq_ok_iff]
        constructor
        · rintro ⟨_, ⟨hlocated, rfl⟩, rfl⟩
          exact ⟨hlocated, by simp⟩
        · rintro ⟨hlocated, rfl⟩
          exact ⟨_, ⟨hlocated, rfl⟩, by simp⟩
  · simp only [hmoney, if_false, bind_eq_ok_iff, subscript_eq_ok_iff, lists_warnings_iff hmoney]
    cases hwarnings : report.vulnerabilities.lookup vulnerability with
    | none => simp
    | some warnings =>
      rw [shared_warnings hmoney hwarnings]
      cases warnings with
      | nil => simp [pure, Except.pure, eq_comm]
      | cons warning warnings =>
        simp only [Option.some.injEq, exists_eq_left', List.length_cons, Nat.succ_ne_zero, if_false,
          bind_eq_ok_iff, check_instances_eq_ok_iff, pure_eq_ok_iff]
        have hinstances : (((warning :: warnings).map ([·])).zipIdx vulnerability_count).flatMap
            (fun p => p.1.map (fun warning => instance_at p.2 (line_of warning))) =
            ((warning :: warnings).zipIdx vulnerability_count).map
              (fun p => instance_at p.2 (line_of p.1)) := by
          rw [List.zipIdx_map, List.flatMap_map, List.map_eq_flatMap]
          rfl
        constructor
        · rintro ⟨_, ⟨hlocated, rfl⟩, rfl⟩
          exact ⟨hlocated, by rw [← hinstances]; simp⟩
        · rintro ⟨hlocated, rfl⟩
          exact ⟨_, ⟨hlocated, rfl⟩, by rw [← hinstances]; simp⟩

theorem get_potential_vulnerabilities_eq_ok_iff (vulnerability_mapping : List (String × String))
    (file contract : String) (report : OyenteReport) (vulnerability_count : Nat)
    (r : List Vulnerability × Number × Nat) :
    get_potential_vulnerabilities vulnerability_mapping file contract report vulnerability_count = .ok r ↔
      ((∀ check ∈ vulnerability_mapping, report.Lists check.1) ∧
        ∃ coverage, report.evm_code_coverage = .ok coverage) ∧
      r = (emitted (report.vulnerability file contract)
          (fun count check => count + (report.shared check.1).length) vulnerability_count
          vulnerability_mapping,
        report.coverage,
        vulnerability_count + (vulnerability_mapping.flatMap (report.check_findings contract)).length) := by
  have hcount := @foldl_count _ _ (fun count check => count + (report.shared check.1).length)
    (report.check_findings contract) (fun _ _ => by simp [OyenteReport.check_findings])
    vulnerability_count vulnerability_mapping
  simp only [get_potential_vulnerabilities, bind_eq_ok_iff, pure_eq_ok_iff,
    collectFrom_eq_ok_iff (convert_check_eq_ok_iff file contract report), hcount]
  constructor
  · rintro ⟨_, ⟨hlists, rfl⟩, coverage, hcoverage, rfl⟩
    exact ⟨⟨hlists, coverage, hcoverage⟩, by rw [OyenteReport.coverage, hcoverage]; rfl⟩
  · rintro ⟨⟨hlists, coverage, hcoverage⟩, rfl⟩
    exact ⟨_, ⟨hlists, rfl⟩, coverage, hcoverage, by rw [OyenteReport.coverage, hcoverage]; rfl⟩

theorem contract_name_eq_ok_iff (report contract : String) :
    contract_name report = .ok contract ↔
      ':' ∈ (replace report ".json" "").toList ∧ contract = contract_of report := by
  have hnamed : (∃ name, contract_name report = .ok name) ↔ ':' ∈ (replace report ".json" "").toList := by
    rw [contract_name]
    constructor
    · intro hname
      by_contra hnone
      rw [List.splitOn_eq_singleton hnone] at hname
      obtain ⟨name, hname⟩ := hname
      cases hname
    · intro hmem
      obtain ⟨front, rest, heq, hfront⟩ := List.eq_append_cons_of_mem hmem
      rw [heq, List.splitOn_append_cons_self_of_not_mem hfront]
      cases hrest : rest.splitOn ':' with
      | nil => exact absurd hrest (List.splitOn_ne_nil _ _)
      | cons name rest => exact ⟨_, rfl⟩
  rw [← hnamed, contract_of]
  constructor
  · intro hname
    exact ⟨⟨_, hname⟩, by rw [hname]; rfl⟩
  · rintro ⟨⟨name, hname⟩, rfl⟩
    rw [hname]
    rfl

theorem convert_report_eq_ok_iff (file : String) (count : Nat) (entry : String × OyenteReport)
    (r : List (List Vulnerability × Coverage) × Nat) :
    convert_report file count entry = .ok r ↔
      Convertible entry ∧
      r = ([(emitted (entry.2.vulnerability file (contract_of entry.1))
          (fun count check => count + (entry.2.shared check.1).length) count vulnerabilities_json,
        { percentage := entry.2.coverage, file, contract := contract_of entry.1 })],
        count + (entry.2.findings (contract_of entry.1)).length) := by
  obtain ⟨name, report⟩ := entry
  simp only [convert_report, bind_eq_ok_iff, pure_eq_ok_iff, contract_name_eq_ok_iff,
    get_potential_vulnerabilities_eq_ok_iff]
  constructor
  · rintro ⟨_, ⟨hnamed, rfl⟩, _, ⟨⟨hlists, hcovered⟩, rfl⟩, rfl⟩
    exact ⟨⟨hnamed, hcovered, hlists⟩, rfl⟩
  · rintro ⟨⟨hnamed, hcovered, hlists⟩, rfl⟩
    exact ⟨_, ⟨hnamed, rfl⟩, _, ⟨⟨hlists, hcovered⟩, rfl⟩, rfl⟩

/-- What `main` collects from the report files. -/
def converted (file : String) (reports : List (String × OyenteReport)) :
    List (List Vulnerability × Coverage) :=
  emitted (fun count entry =>
      [(emitted (entry.2.vulnerability file (contract_of entry.1))
          (fun count check => count + (entry.2.shared check.1).length) count vulnerabilities_json,
        { percentage := entry.2.coverage, file, contract := contract_of entry.1 })])
    (fun count entry => count + (entry.2.findings (contract_of entry.1)).length) 0 reports

theorem main_eq_ok_iff (file : String) (warnings : List String) (reports : List (String × OyenteReport))
    (r : FinalReport) :
    main file warnings reports = .ok r ↔ (reports ≠ [] ∧ ∀ entry ∈ reports, Convertible entry) ∧
      r =
        { status := "success"
          warnings := if warnings.length > 0 then some warnings else none
          coverages :=
            if ((converted file reports).map Prod.snd).length > 0 then
              some ((converted file reports).map Prod.snd) else none
          potential_vulnerabilities :=
            if ((converted file reports).flatMap Prod.fst).length > 0 then
              some ((converted file reports).flatMap Prod.fst) else none } := by
  by_cases hnone : reports = []
  · simp [main, hnone, throw, throwThe, MonadExceptOf.throw, bind, Except.bind]
  · simp only [main, List.length_eq_zero_iff, hnone, if_false, ne_eq, not_false_eq_true, true_and,
      bind_eq_ok_iff, pure_eq_ok_iff, collectFrom_eq_ok_iff (convert_report_eq_ok_iff file)]
    constructor
    · rintro ⟨_, ⟨hall, rfl⟩, rfl⟩
      exact ⟨hall, rfl⟩
    · rintro ⟨hall, rfl⟩
      exact ⟨_, ⟨hall, rfl⟩, rfl⟩

theorem converted_coverages (file : String) (reports : List (String × OyenteReport)) :
    (converted file reports).map Prod.snd = reports.map (fun entry =>
      { percentage := entry.2.coverage, file, contract := contract_of entry.1 }) :=
  map_emitted (fun _ _ => rfl) 0 reports

end

/-- A contract with a reentrancy and two flows. -/
def token_report : OyenteReport :=
  { vulnerabilities := vulnerabilities_json.map (fun check =>
      (check.1, if check.1 = "reentrancy" then ["token.sol:12:5: Warning: Re-Entrancy."] else []))
    money_concurrency := some
      [["token.sol:3:9: Warning: Flow1.", "token.sol:4:9: Warning: Flow1."],
        ["token.sol:7:9: Warning: Flow2."]]
    evm_code_coverage := .ok (Number.of 50.5) }

def token_final : FinalReport :=
  { status := "success"
    warnings := none
    coverages := some [{ percentage := Number.of 50.5, file := "token.sol", contract := "Token" }]
    potential_vulnerabilities := some
      [{ type := "transaction_order_dependency"
         file := "token.sol"
         contract := "Token"
         instances := [instance_at 0 3, instance_at 0 4, instance_at 0 7] },
        { type := "reentrancy"
          file := "token.sol"
          contract := "Token"
          instances := [instance_at 1 12] }] }

example : main "token.sol" [] [("token.sol:Token.json", token_report)] = .ok token_final := by
  decide +kernel

end qsp.oyente
