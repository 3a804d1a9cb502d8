import Mathlib.Data.Set.Card
import QspNode.PerformAuditThread.Audit
import QspNode.PerformAuditThread.Findings
import QspNode.SubmitReportThread.Deemed
import QspNode.SubmitReportThread.Submission

open lib.loops lib.python
open qsp.evt qsp.perform_audit_thread qsp.report qsp.report_processing qsp.schema qsp.vulnerabilities_set

namespace qsp.submit_report_thread

/-- `__check_report`, given what `json.loads` makes of a text and what `getReport`
    answers. -/
def check_report (report_encoder : ReportEncoder) (loads : String → Except PyException Report) (evt : Event)
    (compressed_report_bytes : Option (List UInt8)) : Except PyException Bool := do
  let police_report ← match evt.full_report with
    | none => .error (.TypeError "the JSON object must be str, bytes or bytearray, not NoneType")
    | some full_report => loads full_report
  is_report_deemed_correct report_encoder evt.request_id compressed_report_bytes police_report

theorem check_report_eq_ok_iff {report_encoder : ReportEncoder} {loads : String → Except PyException Report}
    {evt : Event} {compressed_report_bytes : Option (List UInt8)} {verdict : Bool} :
    check_report report_encoder loads evt compressed_report_bytes = .ok verdict ↔
      ∃ full_report report, evt.full_report = some full_report ∧ loads full_report = .ok report ∧
        is_report_deemed_correct report_encoder evt.request_id compressed_report_bytes report =
          .ok verdict := by
  unfold check_report
  cases evt.full_report with
  | none => simp [bind_eq_ok_iff]
  | some full_report => simp [bind_eq_ok_iff]

/-- At least three fifths of the second set are in the first. -/
def Covers {α : Type} (A P : Set α) : Prop := P = ∅ ∨ 3 * P.ncard ≤ 5 * (A ∩ P).ncard

theorem covers_of_subset {α : Type} {A P : Set α} (hsub : P ⊆ A) : Covers A P := by
  right
  rw [Set.inter_eq_right.mpr hsub]
  omega

theorem similar_iff_covers {A P : Finset (String × Int)} :
    Similar A P ↔ Covers (A : Set (String × Int)) (P : Set (String × Int)) := by
  rw [Similar, Covers, ← Finset.coe_inter, Set.ncard_coe_finset, Set.ncard_coe_finset, Finset.coe_eq_empty]

/-- An analyzer's entry lists a type of vulnerability on a line. -/
def Finds (a : AnalyzerReport) (p : String × Int) : Prop :=
  ∃ v ∈ a.potential_vulnerabilities.getD [], v.type = some p.1 ∧
    ∃ i ∈ v.instances.getD [], i.start_line = some p.2

/-- What a node has found in a contract, which is nothing in one that does not
    compile. -/
def Found (config : AuditConfig) (input : AuditInput) : Set (String × Int) :=
  {p | ¬ input.compilation.Fails ∧ ∃ a ∈ config.entries input, Finds a p}

/-- The keys that `from_uncompressed_report` subscripts are there. -/
def Complete (r : Report) : Prop :=
  ∀ a ∈ r.analyzers_reports.getD [], ∀ v ∈ a.potential_vulnerabilities.getD [],
    v.type.isSome = true ∧ ∀ i ∈ v.instances.getD [], i.start_line.isSome = true

theorem vulnerability_pairs_eq_ok_iff (v : Vulnerability) (pairs : List (String × Int)) :
    vulnerability_pairs v = .ok pairs ↔
      (v.type.isSome = true ∧ ∀ i ∈ v.instances.getD [], i.start_line.isSome = true) ∧
        pairs = (v.instances.getD []).flatMap (fun i => [(v.type.getD "", i.start_line.getD 0)]) := by
  rw [vulnerability_pairs, bind_eq_ok_iff]
  simp only [subscript_eq_ok_iff]
  cases htype : v.type with
  | none => simp
  | some type =>
    simp only [Option.some.injEq, exists_eq_left', Option.isSome_some, true_and, Option.getD_some]
    apply collect_except_eq_ok_iff
    intro i bs
    cases hline : i.start_line with
    | none => simp [subscript, bind, Except.bind]
    | some line => simp [subscript, bind, Except.bind, pure, Except.pure, eq_comm]

theorem mem_pairs_iff {v : Vulnerability} {p : String × Int} (htype : v.type.isSome = true)
    (hlines : ∀ i ∈ v.instances.getD [], i.start_line.isSome = true) :
    p ∈ (v.instances.getD []).flatMap (fun i => [(v.type.getD "", i.start_line.getD 0)]) ↔
      v.type = some p.1 ∧ ∃ i ∈ v.instances.getD [], i.start_line = some p.2 := by
  obtain ⟨type, htype⟩ := Option.isSome_iff_exists.mp htype
  simp only [List.mem_flatMap, List.mem_singleton, htype, Option.getD_some, Option.some.injEq]
  constructor
  · rintro ⟨i, hi, rfl⟩
    obtain ⟨line, hline⟩ := Option.isSome_iff_exists.mp (hlines i hi)
    exact ⟨rfl, i, hi, by rw [hline]; rfl⟩
  · rintro ⟨rfl, i, hi, hline⟩
    exact ⟨i, hi, by rw [hline]; rfl⟩

/-- A report with all keys has the set of what its entries list. -/
theorem exists_set {r : Report} (hcomplete : Complete r) :
    ∃ S, from_uncompressed_report (some r) = .ok S ∧
      ∀ p, p ∈ S ↔ ∃ a ∈ r.analyzers_reports.getD [], Finds a p := by
  have hpairs := (collect_except_eq_ok_iff (f := fun a : AnalyzerReport =>
      collect vulnerability_pairs (a.potential_vulnerabilities.getD []))
    (fun a bs => collect_except_eq_ok_iff vulnerability_pairs_eq_ok_iff _ bs)
    (r.analyzers_reports.getD []) _).mpr ⟨hcomplete, rfl⟩
  refine ⟨_, by rw [from_uncompressed_report, report_pairs, hpairs]; rfl, fun p => ?_⟩
  simp only [List.mem_toFinset, List.mem_flatMap, Finds]
  constructor
  · rintro ⟨a, ha, v, hv, i, hi, hp⟩
    obtain ⟨htype, hlines⟩ := hcomplete a ha v hv
    exact ⟨a, ha, v, hv, (mem_pairs_iff htype hlines).mp (List.mem_flatMap.mpr ⟨i, hi, hp⟩)⟩
  · rintro ⟨a, ha, v, hv, hfinds⟩
    obtain ⟨htype, hlines⟩ := hcomplete a ha v hv
    exact ⟨a, ha, v, hv, List.mem_flatMap.mp ((mem_pairs_iff htype hlines).mpr hfinds)⟩

theorem complete_of_valid {r : Report} (hvalid : report_valid r = true) : Complete r := by
  intro a ha v hv
  have hreport : analyzer_report_valid a = true := by
    cases hreports : r.analyzers_reports with
    | none => simp [hreports] at ha
    | some reports =>
      simp only [report_valid, items, hreports, Option.all_some, Bool.and_eq_true, List.all_eq_true] at hvalid
      exact hvalid.2 a (by simpa [hreports] using ha)
  have hvulnerability : vulnerability_valid v = true := by
    cases hlisted : a.potential_vulnerabilities with
    | none => simp [hlisted] at hv
    | some listed =>
      simp only [analyzer_report_valid, items, hlisted, Option.all_some, Bool.and_eq_true,
        List.all_eq_true] at hreport
      exact hreport.2 v (by simpa [hlisted] using hv)
  simp only [vulnerability_valid, required, items, Bool.and_eq_true] at hvulnerability
  refine ⟨hvulnerability.1.1.1.1.1, fun i hi => ?_⟩
  cases hinstances : v.instances with
  | none => simp [hinstances] at hi
  | some instances =>
    have hinstance := hvulnerability.2
    simp only [hinstances, Option.all_some, List.all_eq_true, instance_valid, required,
      Bool.and_eq_true] at hinstance
    exact (hinstance i (by simpa [hinstances] using hi)).1.1.1.2

section
variable {config : AuditConfig} {input : AuditInput} {contract : String}

theorem reports_of_audit (config : AuditConfig) (input : AuditInput) (contract : String) :
    (¬ input.compilation.Fails ∧ (config.get_full_report input contract).report.analyzers_reports.getD [] =
        config.entries input) ∨
      (input.compilation.Fails ∧
        (config.get_full_report input contract).report.analyzers_reports.getD [] = []) := by
  by_cases hfails : input.compilation.Fails
  · exact Or.inr ⟨hfails, by rw [report_of_fails hfails]; rfl⟩
  · exact Or.inl ⟨hfails, by rw [report_of_compiles hfails]; rfl⟩

/-- The set that the police check builds of a node's report is what the node has
    found. -/
theorem found_of_report (hvalid : report_valid (config.get_full_report input contract).report = true) :
    ∃ S, from_uncompressed_report (some (config.get_full_report input contract).report) = .ok S ∧
      (S : Set (String × Int)) = Found config input := by
  obtain ⟨S, hset, hmem⟩ := exists_set (complete_of_valid hvalid)
  refine ⟨S, hset, Set.ext (fun p => ?_)⟩
  rw [Finset.mem_coe, hmem, Found, Set.mem_ofPred_eq]
  rcases reports_of_audit config input contract with
    ⟨hcompiles, hreports⟩ | ⟨hfails, hreports⟩
  · rw [hreports, and_iff_right hcompiles]
  · simp [hreports, hfails]

theorem lower_hexDigest {s : String} (hdigest : HexDigest s) : lower s = s := by
  have hchar : ∀ c ∈ s.toList, c.toLower = c := by
    intro c hc
    apply dif_neg
    rintro ⟨hge, hle⟩
    have hge : 65 ≤ c.toNat := hge
    have hle : c.toNat ≤ 90 := hle
    rcases hdigest.2 c hc with ⟨_, hdigit⟩ | ⟨hletter, _⟩
    · have hdigit : c.toNat ≤ 57 := hdigit
      omega
    · have hletter : 97 ≤ c.toNat := hletter
      omega
  rw [lower, List.map_congr_left hchar, List.map_id', String.ofList_toList]

theorem exists_verdict (encoder : ReportEncoder) {stored : List UInt8} {compressed : String} {p : Report}
    {P : Finset (String × Int)} (request_id : Int)
    (hchain : get_report_in_blockchain (some stored) = some compressed)
    (hP : from_uncompressed_report (some p) = .ok P) :
    ∃ verdict, is_report_deemed_correct encoder request_id (some stored) p = .ok verdict := by
  simp only [is_report_deemed_correct, hchain, hP, bind, Except.bind, pure, Except.pure]
  split
  · exact ⟨_, rfl⟩
  · split
    · exact ⟨_, rfl⟩
    · split
      · exact ⟨_, rfl⟩
      · split
        · exact ⟨_, rfl⟩
        · exact ⟨_, rfl⟩

end

theorem blockchain_of_stored {bits : Bitstring} {h : String} {stored : List UInt8}
    (hhex : to_hex bits = .ok h.toList) (hstored : hex stored = lower h) :
    get_report_in_blockchain (some stored) = some (hex stored) := by
  cases stored with
  | nil =>
    obtain ⟨ds, hds, _, _, hchars⟩ := to_hex_eq_ok_iff.mp hhex
    have hne : h.toList ≠ [] := by simpa [hchars] using hds
    exact absurd hstored.symm (ne_empty_of_toList hne)
  | cons byte bytes => rfl

section
variable {auditor police : AuditConfig} {input input' : AuditInput} {contract contract' : String}

/-- The verdict of one node on the report of another depends on nothing but the
    contracts that they have fetched and on what they have found. -/
theorem deemed_of_audits {result result' : AuditResult} {stored : List UInt8}
    (hencoder : auditor.report_encoder = report_encoder)
    (hdigest : ∀ text, HexDigest (auditor.digest text)) (hdigest' : ∀ text, HexDigest (police.digest text))
    (hcontract : input.contract = .ok contract) (hcontract' : input'.contract = .ok contract')
    (haudit : auditor.audit input = .ok result) (haudit' : police.audit input' = .ok result')
    (hstored : hex stored = lower result.compressed_report) (request_id : Int) :
    ∃ verdict, is_report_deemed_correct report_encoder request_id (some stored)
        (police.get_full_report input' contract').report = .ok verdict ∧
      (verdict = true ↔ auditor.digest contract = police.digest contract' ∧
        Covers (Found auditor input) (Found police input')) := by
  obtain ⟨c, h, _, _, _, hc, ⟨_, hvalid⟩, hcompress, _, _, _, rfl⟩ := audit_eq_ok_iff.mp haudit
  obtain ⟨c', _, _, _, _, hc', ⟨_, hvalid'⟩, _⟩ := audit_eq_ok_iff.mp haudit'
  obtain rfl : contract = c := Except.ok.inj (hcontract.symm.trans hc)
  obtain rfl : contract' = c' := Except.ok.inj (hcontract'.symm.trans hc')
  obtain ⟨A, hA, hfound⟩ := found_of_report hvalid
  obtain ⟨P, hP, hfound'⟩ := found_of_report hvalid'
  rw [hencoder, ReportEncoder.compress_report_eq_ok_iff, ReportEncoder.compress_eq_ok_iff] at hcompress
  obtain ⟨_, _, _, _, _, ds, fs, hcompresses, hhex⟩ := hcompress
  have hpattern := (hdigest' contract').pattern
  obtain ⟨hash, hhash, hdigits⟩ := hcompresses.contract_hash
  obtain rfl : auditor.digest contract = hash :=
    Option.some.inj ((report_contract_hash contract).symm.trans hhash)
  have hsame : HexDigits (police.digest contract').toList ds ↔
      auditor.digest contract = police.digest contract' := by
    have hlower := lower_hash_iff hdigits hpattern
    rw [lower_hexDigest (hdigest contract), lower_hexDigest (hdigest' contract'),
      and_iff_right (hdigest contract).ascii] at hlower
    exact hlower.symm
  have hdeemed := is_report_deemed_correct_compressed request_id hcompresses hhex hstored
    (report_contract_hash contract') hpattern hP
  rw [hsame, ← from_uncompressed_report_findings hA hcompresses.findings, similar_iff_covers, hfound,
    hfound'] at hdeemed
  obtain ⟨verdict, hverdict⟩ := exists_verdict report_encoder request_id
    (blockchain_of_stored hhex hstored) hP
  refine ⟨verdict, hverdict, ?_⟩
  rw [← hdeemed, hverdict, Except.ok.injEq]

/-- The event of an audit that waits for its submission: the row that
    `__process_audit_request` has updated, as the submission thread reads it. -/
def Audited (config : AuditConfig) (input : AuditInput) (evt : Event) : Prop :=
  ∃ (assigned : Event) (block_number : Except PyException Int) (traceback : String) (values row : Row)
    (full : Recovery),
    process_audit_request assigned ((config.audit input).map some) block_number traceback =
        .put (.set_evt_status_to_be_submitted values) full ∧
      (row.fk_status = .AS ∨ row.fk_status = .TS ∨ row.fk_status = .SB) ∧
      decode ((Write.set_evt_status_to_be_submitted values).on row) = some evt

theorem decode_report {row : Row} {evt : Event} (hdecode : decode row = some evt) :
    evt.full_report = row.full_report ∧ evt.compressed_report = row.compressed_report := by
  rw [decode, Evt.traverse] at hdecode
  simp only [Option.bind_eq_bind, Option.bind_eq_some_iff, Option.pure_def, Option.some.injEq] at hdecode
  obtain ⟨_, _, _, _, _, _, rfl⟩ := hdecode
  exact ⟨rfl, rfl⟩

theorem audit_of_audited {config : AuditConfig} {evt : Event} (haudited : Audited config input evt) :
    ∃ result, config.audit input = .ok result ∧ evt.full_report = some result.full_report ∧
      evt.compressed_report = some result.compressed_report := by
  obtain ⟨assigned, block_number, traceback, values, row, full, hput, hopen, hdecode⟩ := haudited
  obtain ⟨result, hresult, _, hcompressed, hfull⟩ := put_of_audit hput
  obtain ⟨hfull', hcompressed'⟩ := decode_report hdecode
  rw [Write.on, if_pos hopen] at hfull' hcompressed'
  cases haudit : config.audit input with
  | error e =>
    rw [haudit] at hresult
    cases hresult
  | ok result' =>
    rw [haudit] at hresult
    cases hresult
    exact ⟨result, rfl, hfull'.trans hfull, hcompressed'.trans hcompressed⟩

/-- The report of a police check goes out with the verdict of `__check_report`. -/
theorem verdict_of_send {config : Config} {height : Int} {evt : Event} {answers : Answers} {send : Send}
    (hpolice : is_police_check evt = true) (hsend : send ∈ sends config height evt answers) :
    ∃ verdict, answers.check_report = .ok verdict ∧ send.is_verified = some verdict := by
  unfold sends at hsend
  split at hsend
  · cases hsend
  · next send' outcome hsubmission =>
    obtain rfl := List.mem_singleton.mp hsend
    rw [submission] at hsubmission
    obtain ⟨is_verified, hverdict, hrest⟩ := bind_eq_ok_iff.mp hsubmission
    obtain ⟨outcome', _, hpair⟩ := bind_eq_ok_iff.mp hrest
    obtain ⟨rfl, _⟩ := Prod.mk.inj (pure_eq_ok_iff.mp hpair)
    have htype : evt.fk_type = .PC := of_decide_eq_true hpolice
    rw [verdict, is_audit, htype, if_neg (by decide), if_pos hpolice] at hverdict
    cases hcheck : answers.check_report with
    | error e =>
      rw [hcheck] at hverdict
      cases hverdict
    | ok b =>
      rw [hcheck] at hverdict
      exact ⟨b, rfl, (Except.ok.inj hverdict).symm⟩

/-- A police node checks the report of another one: both have audited a contract,
    `getReport` answers with what the first has submitted, and `json.loads` reads
    what `json.dumps` has printed. -/
structure Checks (auditor police : AuditConfig) (input input' : AuditInput) (contract contract' : String)
    (evt evt' : Event) (stored : List UInt8) (loads : String → Except PyException Report) : Prop where
  encoder : auditor.report_encoder = report_encoder
  digest : ∀ text, HexDigest (auditor.digest text)
  police_digest : ∀ text, HexDigest (police.digest text)
  fetched : input.contract = .ok contract
  police_fetched : input'.contract = .ok contract'
  audited : Audited auditor input evt
  police_audited : Audited police input' evt'
  police_check : is_police_check evt' = true
  submitted : ∃ config height answers, ∃ send ∈ sends config height evt answers, ∃ h,
    send.compressed_report = some h ∧ hex stored = lower h
  loads : loads (police.dumps none (police.get_full_report input' contract')) =
    .ok (police.get_full_report input' contract').report

section
variable {evt evt' : Event} {config : Config} {height : Int} {answers : Answers} {send : Send}
  {stored : List UInt8} {loads : String → Except PyException Report}

theorem verdict_of_checks
    (hchecks : Checks auditor police input input' contract contract' evt evt' stored loads)
    (hanswer : answers.check_report = check_report report_encoder loads evt' (some stored))
    (hsend : send ∈ sends config height evt' answers) :
    ∃ verdict, send.is_verified = some verdict ∧
      (verdict = true ↔ auditor.digest contract = police.digest contract' ∧
        Covers (Found auditor input) (Found police input')) := by
  obtain ⟨result, haudit, _, hcompressed⟩ := audit_of_audited hchecks.audited
  obtain ⟨result', haudit', hfull, _⟩ := audit_of_audited hchecks.police_audited
  obtain ⟨_, _, _, submitted, hsubmitted, h, hh, hstored⟩ := hchecks.submitted
  obtain rfl : result.compressed_report = h :=
    Option.some.inj ((hcompressed.symm.trans (mem_sends hsubmitted).2.2.2.1.symm).trans hh)
  obtain ⟨verdict, hcheck, hverified⟩ := verdict_of_send hchecks.police_check hsend
  obtain ⟨deemed, hdeemed, hiff⟩ := deemed_of_audits hchecks.encoder hchecks.digest hchecks.police_digest
    hchecks.fetched hchecks.police_fetched haudit haudit' hstored evt'.request_id
  have hreport : loads result'.full_report = .ok (police.get_full_report input' contract').report := by
    obtain ⟨c, _, _, _, _, hc, _, _, _, _, _, rfl⟩ := audit_eq_ok_iff.mp haudit'
    obtain rfl : contract' = c := Except.ok.inj (hchecks.police_fetched.symm.trans hc)
    exact hchecks.loads
  rw [hanswer, check_report_eq_ok_iff] at hcheck
  obtain ⟨full_report, report, htext, hread, hcheck⟩ := hcheck
  obtain rfl : result'.full_report = full_report := Option.some.inj (hfull.symm.trans htext)
  obtain rfl := Except.ok.inj (hread.symm.trans hreport)
  obtain rfl : deemed = verdict := Except.ok.inj (hdeemed.symm.trans hcheck)
  exact ⟨deemed, hverified, hiff⟩

theorem finds_congr {a b : AnalyzerReport} (hsame : a.potential_vulnerabilities = b.potential_vulnerabilities)
    (p : String × Int) : Finds a p ↔ Finds b p := by
  rw [Finds, Finds, hsame]

theorem mem_found_iff {config : AuditConfig} {p : String × Int} :
    p ∈ Found config input ↔ ¬ input.compilation.Fails ∧
      ∃ i < config.analyzers.length, Finds (input.collected.local_reports i) p := by
  rw [Found, Set.mem_ofPred_eq, AuditConfig.entries, audit_report, compute_audit_result,
    lib.loops.getD_nonempty]
  apply and_congr_right
  intro _
  constructor
  · rintro ⟨a, ha, hfinds⟩
    obtain ⟨i, hi⟩ := List.getElem?_of_mem ha
    obtain ⟨analyzer, hanalyzer, rfl⟩ := getElem?_reports.mp hi
    exact ⟨i, (List.getElem?_eq_some_iff.mp hanalyzer).1,
      (finds_congr (fail_safe_findings analyzer _) p).mp hfinds⟩
  · rintro ⟨i, hi, hfinds⟩
    have hentry := (getElem?_reports (s := input.collected)).mpr ⟨_, List.getElem?_eq_getElem hi, rfl⟩
    exact ⟨_, List.mem_of_getElem? hentry, (finds_congr (fail_safe_findings _ _) p).mpr hfinds⟩

/-- Some check of a node's analyzers has left a finding. -/
def Checked (config : AuditConfig) (s : State) (p : String × Int) : Prop :=
  ∃ i < config.analyzers.length, ∃ outcome, (s.threads i).outcome = some outcome ∧ Finds outcome.report p

/-- In every interleaving a node finds nothing that no check has left. -/
theorem checked_of_found {config : AuditConfig} {labels : List Label} {p : String × Int}
    (hrun : lib.transition.run (step config.analyzers) State.init labels = some input.collected)
    (hdone : input.collected.pc = .done) (hfound : p ∈ Found config input) :
    Checked config input.collected p := by
  obtain ⟨_, i, hi, hfinds⟩ := mem_found_iff.mp hfound
  have hlists := run_lists hi hrun
  have hphase : phase i input.collected.pc = .reported := by rw [hdone]; rfl
  rw [View.Lists, view, hphase] at hlists
  by_cases hwritten : lib.transition.Occurs (step config.analyzers) (WritesInTime i) State.init labels
  · obtain ⟨outcome, houtcome, hsame⟩ := hlists.2.1 hwritten
    exact ⟨i, hi, outcome, houtcome, (finds_congr hsame p).mp hfinds⟩
  · obtain ⟨v, hv, _⟩ := hfinds
    rw [hlists.2.2 hwritten] at hv
    cases hv

/-- It finds all that they have left when none was late. -/
theorem found_of_checked {config : AuditConfig} {labels : List Label} {p : String × Int}
    (hrun : lib.transition.run (step config.analyzers) State.init labels = some input.collected)
    (hdone : input.collected.pc = .done) (hcompiles : ¬ input.compilation.Fails)
    (hjoined : ∀ i < config.analyzers.length, input.collected.alive_at_join i = false)
    (hchecked : Checked config input.collected p) : p ∈ Found config input := by
  obtain ⟨i, hi, outcome, houtcome, hfinds⟩ := hchecked
  have hlists := run_lists hi hrun
  have hphase : phase i input.collected.pc = .reported := by rw [hdone]; rfl
  rw [View.Lists, view, hphase] at hlists
  obtain ⟨outcome', houtcome', hsame⟩ := hlists.2.1 (hlists.1 (hjoined i hi))
  obtain rfl : outcome = outcome' := Option.some.inj (houtcome.symm.trans houtcome')
  exact mem_found_iff.mpr ⟨hcompiles, i, hi, (finds_congr hsame p).mpr hfinds⟩

/-- From the analyzers of two nodes to what the second one submits about the first:
    a report is verified exactly when both have audited the same contract and it
    lists enough of what the police has found. -/
theorem police_verdict_iff
    (hchecks : Checks auditor police input input' contract contract' evt evt' stored loads)
    (hanswer : answers.check_report = check_report report_encoder loads evt' (some stored))
    (hsend : send ∈ sends config height evt' answers) :
    send.is_verified = some true ↔ auditor.digest contract = police.digest contract' ∧
      Covers (Found auditor input) (Found police input') := by
  obtain ⟨verdict, hverified, hiff⟩ := verdict_of_checks hchecks hanswer hsend
  rw [← hiff, hverified, Option.some.injEq]

/-- Whatever the interleavings in the two nodes, a node is never rejected by one
    whose analyzers know no more than its own, if these have ended in time. -/
theorem agreeing_nodes_verified {labels labels' : List Label}
    (hchecks : Checks auditor police input input' contract contract' evt evt' stored loads)
    (hanswer : answers.check_report = check_report report_encoder loads evt' (some stored))
    (hsend : send ∈ sends config height evt' answers)
    (hrun : lib.transition.run (step auditor.analyzers) State.init labels = some input.collected)
    (hdone : input.collected.pc = .done)
    (hrun' : lib.transition.run (step police.analyzers) State.init labels' = some input'.collected)
    (hdone' : input'.collected.pc = .done)
    (hsame : auditor.digest contract = police.digest contract')
    (hcompiles : input.compilation.Fails → input'.compilation.Fails)
    (hjoined : ∀ i < auditor.analyzers.length, input.collected.alive_at_join i = false)
    (hagree : ∀ p, Checked police input'.collected p → Checked auditor input.collected p) :
    send.is_verified = some true := by
  obtain ⟨verdict, hverified, hiff⟩ := verdict_of_checks hchecks hanswer hsend
  have hsub : Found police input' ⊆ Found auditor input := by
    intro p hp
    have hcompiles' := (mem_found_iff.mp hp).1
    exact found_of_checked hrun hdone (fun hfails => hcompiles' (hcompiles hfails)) hjoined
      (hagree p (checked_of_found hrun' hdone' hp))
  rw [hverified, hiff.mpr ⟨hsame, covers_of_subset hsub⟩]

end

end

/-- The report of the node with one analyzer, as `json.dumps` prints it. -/
def printed_report : String :=
  "\x7b\"timestamp\": 1, \"contract_uri\": \"https://contracts/Token.sol\", \"contract_hash\": \"" ++
    sample_hash 'a' ++ "\", \"requestor\": \"" ++ address ++ "\", \"auditor\": \"" ++ address ++
    "\", \"request_id\": 7, \"version\": \"2.0.1\", \"audit_state\": 4, \"status\": \"success\", " ++
    "\"analyzers_reports\": [\x7b\"status\": \"success\", \"potential_vulnerabilities\": " ++
    "[\x7b\"type\": \"other\", \"file\": \"DAO.sol\", \"instances\": [" ++
    "\x7b\"ref_id\": 0, \"start_line\": 5\x7d, " ++
    "\x7b\"ref_id\": 1, \"start_line\": 5, \"end_line\": 5\x7d, " ++
    "\x7b\"ref_id\": 2, \"start_line\": 5, \"end_line\": 9\x7d]\x7d], " ++
    "\"analyzer\": \x7b\"name\": \"Securify\"\x7d, " ++
    "\"start_time\": 1, \"end_time\": 1\x7d], \"compilation_warnings\": [\"Token.sol: unused\"]\x7d"

/-- A node that prints its report so. -/
def printing_config : AuditConfig := { uploading_config with dumps := fun _ _ => printed_report }

def read_report (text : String) : Except PyException Report :=
  if text = printed_report then
    .ok (printing_config.get_full_report checked_input "contract Token \x7b\x7d").report
  else .error (.ValueError "Expecting value: line 1 column 1 (char 0)")

/-- The row of an audit of the sample contract. -/
def audited_values : Row := { stored_row with full_report := some printed_report }

def audited_event (fk_type : EvtType) : Event :=
  { assigned_row.event with
    fk_status := .TS
    fk_type
    audit_uri := some "https://reports/1"
    audit_hash := some (sample_hash 'a')
    audit_state := some 4
    full_report := some printed_report
    compressed_report := some (sample_compressed 'A')
    submission_block_nbr := some 120
    submission_attempts := 1
    status_info := some "Successfully generated report" }

theorem audited_sample (fk_type : EvtType) : Audited printing_config checked_input (audited_event fk_type) := by
  refine ⟨assigned_row.event, .ok 120, "", audited_values, encode { assigned_row.event with fk_type },
    .put (set_evt_status_to_error { assigned_row.event with status_info := some "" }), ?_, Or.inl rfl, ?_⟩
  · decide +kernel
  · cases fk_type <;> decide +kernel

def node_config : Config :=
  { n_blocks_confirmation := 0
    submission_timeout_limit_blocks := 10
    block_discard_on_restart := 1
    max_assigned_requests := 1
    enable_police_audit_polling := true
    audit_contract_address := "0x0" }

/-- A provider that takes the transaction at once. -/
def taking_calls (check_report : Except PyException Bool) : Answers :=
  { check_report
    toBytes := .ok ()
    getTransactionCount := .ok 5
    provider := fun _ =>
      { buildTransaction := .ok ()
        sendRawTransaction := .ok "0xfeed"
        waitForTransactionReceipt := .ok ()
        start_block := .ok 0
        current_block := .ok 0
        rounds := []
        getTransactionCount := .ok 5 }
    traceback := "" }

def sample_send (fk_type : EvtType) (is_verified : Option Bool) : Send :=
  { request_id := 7
    fk_type
    audit_state := some 4
    compressed_report := some (sample_compressed 'A')
    is_verified
    height := 130
    accepted := [5] }

def police_calls : Answers :=
  taking_calls (check_report report_encoder read_report (audited_event .PC) (some (sample_stored 0xaa)))

/-- The first node has submitted its report, and the second one checks it. -/
theorem checks_sample : Checks printing_config printing_config checked_input checked_input
    "contract Token \x7b\x7d" "contract Token \x7b\x7d" (audited_event .AU) (audited_event .PC)
    (sample_stored 0xaa) read_report where
  encoder := rfl
  digest := fun _ => hexDigest_sample
  police_digest := fun _ => hexDigest_sample
  fetched := rfl
  police_fetched := rfl
  audited := audited_sample .AU
  police_audited := audited_sample .PC
  police_check := rfl
  submitted := ⟨node_config, 130, taking_calls (.ok true), sample_send .AU none, by decide +kernel,
    sample_compressed 'A', rfl, by decide +kernel⟩
  loads := if_pos rfl

theorem answer_sample : police_calls.check_report =
    check_report report_encoder read_report (audited_event .PC) (some (sample_stored 0xaa)) := rfl

theorem sends_sample :
    sample_send .PC (some true) ∈ sends node_config 130 (audited_event .PC) police_calls := by
  decide +kernel

theorem police_verdict_iff_sample :
    (sample_send .PC (some true)).is_verified = some true ↔
      printing_config.digest "contract Token \x7b\x7d" = printing_config.digest "contract Token \x7b\x7d" ∧
        Covers (Found printing_config checked_input) (Found printing_config checked_input) :=
  police_verdict_iff checks_sample answer_sample sends_sample

theorem agreeing_nodes_verified_sample : (sample_send .PC (some true)).is_verified = some true := by
  have hcompiles : checked_input.compilation.Fails → checked_input.compilation.Fails := id
  have hjoined : ∀ i < printing_config.analyzers.length, checked_input.collected.alive_at_join i = false := by
    intro i hi
    obtain rfl : i = 0 := Nat.lt_one_iff.mp hi
    rfl
  exact agreeing_nodes_verified checks_sample answer_sample sends_sample run_checked rfl run_checked rfl rfl
    hcompiles hjoined (fun _ hchecked => hchecked)

end qsp.submit_report_thread
