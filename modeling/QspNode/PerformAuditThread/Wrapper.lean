import QspNode.PerformAuditThread.Audit
import QspNode.Plugins.Wrappers

open qsp.report qsp.report_processing qsp.wrappers

namespace qsp.perform_audit_thread

/-- How `subprocess.run` ends on a `run` script. -/
inductive Subprocess where
  | finished (execution : Execution)
  | timed_out
  | raised (message : String)

theorem status_known (document : Document) :
    document.report.status ∈ [none, some AUDIT_STATUS_SUCCESS, some AUDIT_STATUS_ERROR] := by
  cases document <;> simp [Document.report, AUDIT_STATUS_SUCCESS, AUDIT_STATUS_ERROR]

/-- `Wrapper.check`. The script prints one document, whatever its exit status. -/
def check : Subprocess → Outcome
  | .finished execution =>
    .returned { report := execution.run.1.report, status_known := status_known execution.run.1 }
  | .timed_out => .timed_out
  | .raised message => .raised message

/-- If the script succeeds, its results keep within the node's bounds. -/
def Subprocess.Within : Subprocess → Prop
  | .finished execution => execution.run.2 = 0 → execution.Within
  | .timed_out | .raised _ => True

/-- The findings of an entry are all accepted. -/
def Taken (findings : Option (List qsp.report.Vulnerability)) : Prop :=
  ∀ v ∈ findings.getD [], schema.vulnerability_valid v = true ∧
    ∀ i ∈ v.instances.getD [], report_encoder.AcceptsInstance v.type i

theorem check_taken {subprocess : Subprocess} (hwithin : subprocess.Within) :
    Taken (check subprocess).report.potential_vulnerabilities := by
  cases subprocess with
  | finished execution =>
    obtain ⟨report, hrun⟩ | ⟨report, hrun, hreport⟩ := run_cases execution
    · simp [Taken, check, Outcome.report, hrun, Document.report, empty_report]
    · have haccepted := ((mk_success_report_accepted_iff hreport).mpr (hwithin (by rw [hrun]))).vulnerabilities
      simp only [Taken, check, Outcome.report, hrun, Document.report, getD_map]
      intro v hv
      obtain ⟨w, hw, rfl⟩ := List.mem_map.mp hv
      exact ⟨(haccepted w hw).valid, (haccepted w hw).fits⟩
  | timed_out => simp [Taken, check, Outcome.report, empty_report]
  | raised message => simp [Taken, check, Outcome.report, empty_report]

theorem Taken.valid {findings : Option (List qsp.report.Vulnerability)} (htaken : Taken findings) :
    schema.items schema.vulnerability_valid findings = true := by
  cases findings with
  | none => rfl
  | some findings => exact List.all_eq_true.mpr (fun v hv => (htaken v hv).1)

section
variable {config : AuditConfig} {input : AuditInput} {contract : String}

/-- With the wrappers of the repository, whose results keep within bounds, the findings
    never stand in the way of a report, whatever the interleaving. -/
theorem wrapped_audit_yields_report_iff (hdigest : ∀ text, HexDigest (config.digest text))
    (hencoder : config.report_encoder = report_encoder) {labels : List Label}
    (hwrapped : ∀ i outcome, .check i outcome ∈ labels →
      ∃ subprocess : Subprocess, subprocess.Within ∧ outcome = check subprocess)
    (hrun : lib.transition.run (step config.analyzers) State.init labels = some input.collected)
    (hdone : input.collected.pc = .done) :
    (∃ result, config.audit input = .ok result) ↔
      (schema.address_pattern input.requestor = true ∧ schema.address_pattern config.account = true) ∧
        VersionFits config.node_version ∧
        (¬ input.compilation.Fails →
          EntriesConform config.analyzers (config.entries input) ∧ input.others_valid = true) ∧
        config.Publishes input := by
  have htaken : ∀ label ∈ labels, label.Conforms Taken := by
    intro label hmem
    cases label with
    | check i outcome =>
      obtain ⟨subprocess, hwithin, rfl⟩ := hwrapped i outcome hmem
      exact check_taken hwithin
    | collector now | write i | finish i => trivial
  have hfindings : ∀ entry ∈ config.entries input, Taken entry.potential_vulnerabilities :=
    collected_findings (show Taken none by simp [Taken]) htaken hrun
  have hfit : config.FindingsFit input := by
    intro entry hentry v hv
    have htaken := hfindings entry hentry v hv
    have hinstances := htaken.1
    simp only [schema.vulnerability_valid, Bool.and_eq_true] at hinstances
    obtain ⟨instances, heq⟩ := Option.isSome_iff_exists.mp hinstances.1.1.1.2
    rw [heq] at htaken
    exact ⟨instances, heq, fun i hi => hencoder ▸ htaken.2 i hi⟩
  have hvalid : schema.items schema.analyzer_report_valid
        (audit_report config.analyzers input.collected).analyzers_reports = true ↔
      EntriesConform config.analyzers (config.entries input) :=
    (collected_entries_valid_iff hrun hdone).trans
      (and_iff_left fun entry hentry => (hfindings entry hentry).valid)
  rw [exists_result_iff hdigest, hvalid]
  constructor
  · rintro ⟨haddresses, hversion, hrest, hpublishes⟩
    exact ⟨haddresses, hversion, fun hcompiles => ⟨(hrest hcompiles).1, (hrest hcompiles).2.2⟩, hpublishes⟩
  · rintro ⟨haddresses, hversion, hrest, hpublishes⟩
    exact ⟨haddresses, hversion, fun hcompiles => ⟨(hrest hcompiles).1, hfit, (hrest hcompiles).2⟩,
      hpublishes⟩

end

/-- Securify finds a reentrancy that it is sure of and one that it is not. -/
def token_execution : Execution :=
  { original_file_name := "Token.sol"
    setup := { once_done := true, once := false, pre_run := true, copied := true }
    results := .securify true
      (.ok [("/shared/Token.sol:Token", [("DAO", { violations := [4], warnings := [8], conflicts := [] })])])
    log_output := .ok []
    trace_output := .ok [] }

theorem token_within : (Subprocess.finished token_execution).Within := by
  intro _ log hlog
  obtain rfl := Except.ok.inj hlog
  decide +kernel

def token_run : List Label :=
  [.collector 1, .check 0 (check (.finished token_execution)), .write 0, .finish 0, .collector 1,
    .collector 1, .collector 1, .collector 1, .collector 1, .collector 1]

def token_collected : State := (lib.transition.run (step [securify]) State.init token_run).get (by rfl)

def token_input : AuditInput := { checked_input with collected := token_collected }

theorem wrapped_audit_yields_token_report : ∃ result, uploading_config.audit token_input = .ok result := by
  have hwrapped : ∀ i outcome, Label.check i outcome ∈ token_run →
      ∃ subprocess : Subprocess, subprocess.Within ∧ outcome = check subprocess := by
    simp only [token_run, List.mem_cons, reduceCtorEq, Label.check.injEq, List.not_mem_nil, or_false, false_or]
    rintro i outcome ⟨rfl, rfl⟩
    exact ⟨_, token_within, rfl⟩
  have hversion : VersionFits uploading_config.node_version := ⟨2, 0, 1, by decide +kernel, by decide⟩
  have hrun : lib.transition.run (step [securify]) State.init token_run = some token_collected :=
    (Option.some_get _).symm
  have hconform : EntriesConform uploading_config.analyzers (uploading_config.entries token_input) :=
    ⟨by decide, by decide +kernel⟩
  exact (@wrapped_audit_yields_report_iff uploading_config token_input (fun _ => hexDigest_sample) rfl
    token_run hwrapped hrun rfl).mpr
      ⟨by decide, hversion, fun _ => ⟨hconform, rfl⟩, _, "https://reports/1", true, rfl, rfl, rfl⟩

end qsp.perform_audit_thread
